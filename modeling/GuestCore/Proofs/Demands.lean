import GuestCore.Proofs.Batches
import GuestCore.Proofs.MemberHistory

/-!
# What Descriptions Demand

The steps of a session describe values, receivers and definitions.  A description demands things:
each function that it names is asked for, and each object that it describes is created.  The demands
of a step can be read off its text.  They are met while the step is built, one after the other in
the order in which they stand, and nothing else is asked of registries on the way.
-/

namespace GuestCore

open Session

namespace Body

variable {κ : Type}

mutual

/-- The constants of a body in the order in which they stand. -/
def constants : Body κ → List κ
  | constant value => [value]
  | argument _ | argumentCount | depth | lookup _ | fail _ => []
  | list items | sequence items | call _ items | callAt _ _ items | registerBatch _ _ items =>
    constantsAll items
  | operator _ _ left right | writeMember left _ right | attempt left right =>
    constants left ++ constants right
  | choose condition thenBranch elseBranch =>
    constants condition ++ constants thenBranch ++ constants elseBranch
  | execute callee arguments | executeAt _ callee arguments =>
    constants callee ++ constantsAll arguments
  | register _ body _ | readMember body _ | removeMember body _ => constants body

def constantsAll : List (Body κ) → List κ
  | [] => []
  | body :: rest => constants body ++ constantsAll rest

end

end Body

namespace Session

/-! ## Demands -/

inductive Demand where
  /-- A new object. -/
  | object
  /-- The function of a name, which is created if it is new. -/
  | function (registry name : String)
deriving DecidableEq, Repr

namespace ValueSpec

mutual

/-- What the value demands, in the order in which its parts are built. -/
def demands : ValueSpec → List Demand
  | null | boolean _ | integer _ | text _ | slot _ => []
  | list items => demandsAll items
  | function name registry => [.function registry name]
  | object fields => demandsFields fields ++ [.object]
  | nested _ item => demands item

def demandsAll : List ValueSpec → List Demand
  | [] => []
  | spec :: rest => demands spec ++ demandsAll rest

def demandsFields : List (String × ValueSpec) → List Demand
  | [] => []
  | (_, spec) :: rest => demands spec ++ demandsFields rest

end

end ValueSpec

/-- What the constants of a body demand. -/
def bodyDemands (body : Body ValueSpec) : List Demand :=
  body.constants.flatMap ValueSpec.demands

def ForeignSpec.demands (spec : ForeignSpec) : List Demand :=
  spec.native.elim [] ValueSpec.demands ++ (spec.members.elim [] ValueSpec.demands ++
    (spec.elements.elim [] ValueSpec.demands ++ spec.body.elim [] bodyDemands))

def ReceiverSpec.demands : ReceiverSpec → List Demand
  | slot _ | descriptor _ | functions _ => []
  | view delegate => delegate.demands
  | foreign spec => spec.demands
  | value spec => spec.demands

def DefinitionSpec.demands (spec : DefinitionSpec) : List Demand :=
  bodyDemands spec.body

def Message.demands : Message → List Demand
  | writeMember _ content => content.demands
  | execute arguments _ => ValueSpec.demandsAll arguments
  | describes candidate => candidate.demands
  | _ => []

def StoreRequest.demands : StoreRequest → List Demand
  | write content | getOrInsert content => content.demands
  | read | remove | get | contains => []

def Callee.demands : Callee → List Demand
  | named _ => []
  | function spec | throughSite _ spec => spec.demands

/-- What the step demands.  A lookup that creates is a demand of its own. -/
def Step.demands : Step → List Demand
  | define _ receiver | probe receiver | display receiver | debug receiver | classify receiver =>
    receiver.demands
  | compareCells left right | sameFunction left right => left.demands ++ right.demands
  | operate _ _ left right | identical left right => left.demands ++ right.demands
  | message receiver sent => receiver.demands ++ sent.demands
  | store object _ request => object.demands ++ request.demands
  | typeError _ operands => operands.flatMap ReceiverSpec.demands
  | register _ definition _ => definition.demands
  | lookup name create registry => if create then [.function registry name] else []
  | batch _ entries => entries.flatMap fun entry ↦ entry.2.demands
  | call callee arguments _ => ValueSpec.demandsAll arguments ++ callee.demands
  | operation _ | location _ _ | makeFault _ _ | functions _ | registerBatch _ _ | site _
  | dispatcher _ => []

/-- The effect meets the demand, given the registries that names stand for. -/
inductive Demand.MetBy (registries : Members (RegistryId × DispatcherId)) :
    Demand → Effect → Prop where
  | object (members : Members Value) : MetBy registries .object (.newObject members)
  | function {registry name : String} {known : RegistryId × DispatcherId}
      (hknown : registries.get? registry = some known) :
    MetBy registries (.function registry name) (.findOrCreate known.1 name)

/-- What meets a demand does so when more names stand for registries. -/
theorem Demand.MetBy.mono {registries more : Members (RegistryId × DispatcherId)}
    (hkept : ∀ {name known}, registries.get? name = some known → more.get? name = some known)
    {demand : Demand} {effect : Effect} (hmet : demand.MetBy registries effect) :
    demand.MetBy more effect := by
  cases hmet with
  | object members => exact .object members
  | function hknown => exact .function (hkept hknown)

/-- What a step asks of a registry in its own right, after its demands are met.  What becomes of a
batch is given. -/
def Step.ownEffects (batchEffects : RegistryId → Batch → List Effect) (state after : State) :
    Step → List Effect
  | register name definition registry =>
    match definition.build.run state, after.registries.get? registry with
    | .ok (built, _), some known => [.register known.1 name built]
    | _, _ => []
  | registerBatch name registry =>
    match state.batches.get? name, after.registries.get? registry with
    | some described, some known => batchEffects known.1 described
    | _, _ => []
  | _ => []

theorem Step.mem_ownEffects {world : World} {state after : State} {step : Step} {effect : Effect}
    (heffect : effect ∈ step.ownEffects world.batchEffects state after) :
    (∃ registry name definition, effect = .register registry name definition) ∨
      ∃ registry batch, effect = .beginBatch registry batch := by
  cases step with
  | register name definition registry =>
    rw [ownEffects] at heffect
    split at heffect
    · exact .inl ⟨_, _, _, List.mem_singleton.mp heffect⟩
    · cases heffect
  | registerBatch name registry =>
    rw [ownEffects] at heffect
    split at heffect
    · rcases World.mem_batchEffects heffect with hbegin | ⟨entry, -, hentry⟩
      · exact .inr ⟨_, _, hbegin⟩
      · exact .inl ⟨_, _, _, hentry⟩
    · cases heffect
  | _ => cases heffect

end Session

/-! ## Effects between states -/

namespace Effect

/-- The effect is one that somebody asked for: an object, a function, a registration or a batch. -/
def isDemanded : Effect → Bool
  | newObject _ | findOrCreate _ _ | register _ _ _ | beginBatch _ _ => true
  | _ => false

/-- The effect can be taken anywhere, and meets no demand. -/
def isQuiet : Effect → Bool
  | freshIdentity | writeMember _ _ _ | setMembers _ _ => true
  | _ => false

variable {effect : Effect} {effects : List Effect}

theorem allowed_of_isQuiet (hquiet : effect.isQuiet = true) (world : World) :
    effect.Allowed world := by
  cases effect with
  | freshIdentity | writeMember | setMembers => trivial
  | _ => cases hquiet

theorem not_isDemanded_of_isQuiet (hquiet : effect.isQuiet = true) :
    ¬ effect.isDemanded = true := by
  cases effect with
  | freshIdentity | writeMember | setMembers => exact Bool.false_ne_true
  | _ => cases hquiet

theorem allAllowed_of_isQuiet (hquiet : ∀ effect ∈ effects, effect.isQuiet = true)
    (world : World) : Moment.AllAllowed world effects := by
  induction effects generalizing world with
  | nil => trivial
  | cons effect rest ih =>
    obtain ⟨hfirst, hrest⟩ := List.forall_mem_cons.mp hquiet
    exact ⟨allowed_of_isQuiet hfirst world, ih hrest _⟩

end Effect

namespace Session

variable {state middle after : State} {effects more : List Effect} {demands others : List Demand}

/-- Effects lead from one state of a session to another, which knows all registries of the
first. -/
structure State.Takes (state : State) (effects : List Effect) (after : State) : Prop where
  world_eq : after.world = Effect.applyAll effects state.world
  allowed : state.NamesExist → Moment.AllAllowed state.world effects
  names : state.NamesExist → after.NamesExist
  registries : ∀ {name known}, state.registries.get? name = some known →
    after.registries.get? name = some known

namespace State.Takes

theorem refl (state : State) : state.Takes [] state :=
  ⟨rfl, fun _ ↦ trivial, id, id⟩

theorem trans (hfirst : state.Takes effects middle) (hsecond : middle.Takes more after) :
    state.Takes (effects ++ more) after where
  world_eq := by rw [hsecond.world_eq, hfirst.world_eq, Effect.applyAll_append]
  allowed hnames := Moment.allAllowed_append.mpr
    ⟨hfirst.allowed hnames, hfirst.world_eq ▸ hsecond.allowed (hfirst.names hnames)⟩
  names := hsecond.names ∘ hfirst.names
  registries := hsecond.registries ∘ hfirst.registries

theorem applyAll (hallowed : state.NamesExist → Moment.AllAllowed state.world effects) :
    state.Takes effects { state with world := Effect.applyAll effects state.world } :=
  ⟨rfl, hallowed, fun hnames ↦ hnames.setWorld (World.Extends.applyAll effects _), id⟩

/-- Nothing is done to the world, or to the names of registries. -/
theorem of_same (hworld : after.world = state.world)
    (hregistries : after.registries = state.registries) : state.Takes [] after := by
  refine ⟨hworld, fun _ ↦ trivial, fun hnames name known hname ↦ ?_, fun hname ↦ ?_⟩
  · rw [hworld]
    exact hnames name known (hregistries ▸ hname)
  · rw [hregistries]
    exact hname

/-- A registry is found, or created together with its dispatcher. -/
theorem registry {name : String} {known : RegistryId × DispatcherId}
    (hrun : (Script.registry name).run state = .ok (known, after)) :
    ∃ effects, state.Takes effects after ∧ after.registries.get? name = some known ∧
      ∀ effect ∈ effects, ¬ effect.isDemanded = true := by
  rw [Script.run_registry] at hrun
  cases hname : state.registries.get? name with
  | some found =>
    rw [hname] at hrun
    cases hrun
    exact ⟨[], .refl state, hname, nofun⟩
  | none =>
    rw [hname] at hrun
    cases hrun
    obtain ⟨-, hregistry, -⟩ := state.addNames_exist name
    refine ⟨[.newRegistry state.config, .newDispatcher state.newNames.1],
      ⟨rfl, fun _ ↦ ⟨trivial, hregistry, trivial⟩, fun hnames ↦ hnames.addNames name, ?_⟩, ?_, ?_⟩
    · intro other found hother
      refine (Members.get?_insert ..).trans ?_
      split
      · next hsame =>
        subst hsame
        rw [hname] at hother
        cases hother
      · exact hother
    · exact (Members.get?_insert ..).trans (if_pos rfl)
    · simp [Effect.isDemanded]

end State.Takes

/-- The demands are met on the way from one state to the other. -/
def State.Meets (state : State) (demands : List Demand) (after : State) : Prop :=
  ∃ effects, state.Takes effects after ∧
    List.Forall₂ (Demand.MetBy after.registries) demands (effects.filter Effect.isDemanded)

/-- On the way from one state to the other, the demands of the step are met, and then what it asks
in its own right is done. -/
def State.Completes (state : State) (step : Step) (after : State) : Prop :=
  ∃ middle : State, state.Meets step.demands middle ∧
    middle.Takes (step.ownEffects state.world.batchEffects state after) after

namespace State.Meets

/-- What is met stays met, because names keep their registries. -/
theorem trans (hfirst : state.Meets demands middle) (hsecond : middle.Meets others after) :
    state.Meets (demands ++ others) after := by
  obtain ⟨effects, htakes, hmet⟩ := hfirst
  obtain ⟨more, htakesMore, hmetMore⟩ := hsecond
  refine ⟨effects ++ more, htakes.trans htakesMore, ?_⟩
  rw [List.filter_append]
  exact List.rel_append (hmet.imp fun _ _ ↦ .mono htakesMore.registries) hmetMore

theorem of_takes (htakes : state.Takes effects after)
    (hnone : ∀ effect ∈ effects, ¬ effect.isDemanded = true) : state.Meets [] after :=
  ⟨effects, htakes, by rw [List.filter_eq_nil_iff.mpr hnone]; exact .nil⟩

theorem of_quiet (hquiet : ∀ effect ∈ effects, effect.isQuiet = true) :
    state.Meets [] { state with world := Effect.applyAll effects state.world } :=
  of_takes (.applyAll fun _ ↦ Effect.allAllowed_of_isQuiet hquiet _)
    fun effect heffect ↦ Effect.not_isDemanded_of_isQuiet (hquiet effect heffect)

end State.Meets

end Session

/-! ## Scripts -/

/-- However the action ends, it has taken quiet effects alone. -/
def Action.IsQuiet {α : Type} (action : Action α) : Prop :=
  ∀ world after, (action world).world? = some after →
    ∃ effects, (∀ effect ∈ effects, Effect.isQuiet effect = true) ∧
      after = Effect.applyAll effects world

namespace Session

variable {α β : Type} {demands others : List Demand} {script : Script α}

/-- A sequence of scripts that succeeds has two parts that succeed. -/
theorem Script.bind_ok {next : α → Script β} {state after : State} {value : β}
    (hrun : (script >>= next).run state = .ok (value, after)) :
    ∃ first middle, script.run state = .ok (first, middle) ∧
      (next first).run middle = .ok (value, after) := by
  rw [StateT.run_bind] at hrun
  cases hfirst : script.run state with
  | error malformed =>
    rw [hfirst] at hrun
    cases hrun
  | ok first =>
    rw [hfirst] at hrun
    exact ⟨first.1, first.2, rfl, hrun⟩

/-- Whenever the script succeeds, it has met the demands. -/
def Script.Meets (demands : List Demand) (script : Script α) : Prop :=
  ∀ ⦃state : State⦄ ⦃value : α⦄ ⦃after : State⦄, script.run state = .ok (value, after) →
    state.Meets demands after

namespace Script.Meets

theorem bind {next : α → Script β} (hscript : script.Meets demands)
    (hnext : ∀ value, (next value).Meets others) :
    Script.Meets (demands ++ others) (script >>= next) := by
  intro state value after hrun
  obtain ⟨first, middle, hfirst, hsecond⟩ := Script.bind_ok hrun
  exact (hscript hfirst).trans (hnext first hsecond)

/-- What comes first demands nothing. -/
theorem after {next : α → Script β} (hscript : script.Meets [])
    (hnext : ∀ value, (next value).Meets demands) : Script.Meets demands (script >>= next) :=
  hscript.bind hnext

/-- What comes next demands nothing. -/
theorem before {next : α → Script β} (hscript : script.Meets demands)
    (hnext : ∀ value, (next value).Meets []) : Script.Meets demands (script >>= next) :=
  List.append_nil demands ▸ hscript.bind hnext

/-- The state is read, or changed but for its world and the names of registries. -/
theorem of_same (hscript : ∀ {state value after}, script.run state = .ok (value, after) →
    after.world = state.world ∧ after.registries = state.registries) : script.Meets [] :=
  fun _ _ _ hrun ↦ .of_takes (.of_same (hscript hrun).1 (hscript hrun).2) nofun

theorem pure (value : α) : Script.Meets [] (Pure.pure value : Script α) :=
  of_same fun hrun ↦ by cases hrun; exact ⟨rfl, rfl⟩

theorem throw (malformed : Malformed) :
    Script.Meets demands (MonadExcept.throw malformed : Script α) :=
  nofun

theorem get : Script.Meets [] (MonadState.get : Script State) :=
  of_same fun hrun ↦ by cases hrun; exact ⟨rfl, rfl⟩

theorem world : Script.Meets [] Script.world :=
  of_same fun hrun ↦ by cases hrun; exact ⟨rfl, rfl⟩

/-- An answer is read off the world. -/
theorem answer {look : World → α} : Script.Meets [] (do return look (← Script.world)) :=
  world.after fun _ ↦ .pure _

theorem change {step : World → α × World} (effects : World → List Effect)
    (hquiet : ∀ world, ∀ effect ∈ effects world, effect.isQuiet = true)
    (hstep : ∀ world, (step world).2 = Effect.applyAll (effects world) world) :
    Script.Meets [] (Script.change step) := by
  intro state value after hrun
  cases hrun
  rw [hstep]
  exact .of_quiet (hquiet state.world)

/-- A fresh identity is taken, for whatever it serves. -/
theorem freshIdentity {step : World → α × World}
    (hstep : ∀ world, (step world).2 = world.freshIdentity.2) :
    Script.Meets [] (Script.change step) :=
  change (fun _ ↦ [.freshIdentity]) (fun _ ↦ List.forall_mem_singleton.mpr rfl) hstep

theorem newObject (members : Members Value) :
    Script.Meets [.object] (Script.change fun world ↦ world.newObject members) := by
  intro state value after hrun
  cases hrun
  exact ⟨[.newObject members], .applyAll fun _ ↦ ⟨trivial, trivial⟩, .cons (.object members) .nil⟩

theorem perform {action : Action α} (haction : action.IsQuiet) :
    Script.Meets [] (Script.perform action) := by
  intro state value after hrun
  rw [Script.run_perform] at hrun
  cases houtcome : action state.world with
  | returned result world | raised fault world =>
    rw [houtcome] at hrun
    cases hrun
    obtain ⟨effects, hquiet, rfl⟩ := haction state.world world (by rw [houtcome]; rfl)
    exact .of_quiet hquiet
  | exhausted =>
    rw [houtcome] at hrun
    cases hrun

/-- A registry is found or created; what follows begins where its name is known. -/
theorem onRegistry (name : String) {next : RegistryId × DispatcherId → Script α}
    (hnext : ∀ {known state value after}, state.registries.get? name = some known →
      (next known).run state = .ok (value, after) → state.Meets demands after) :
    Script.Meets demands (Script.registry name >>= next) := by
  intro state value after hrun
  obtain ⟨known, middle, hfirst, hsecond⟩ := Script.bind_ok hrun
  obtain ⟨effects, htakes, hknown, hnone⟩ := State.Takes.registry hfirst
  have hfound : state.Meets [] middle := .of_takes htakes hnone
  exact hfound.trans (hnext hknown hsecond)

theorem registry (name : String) {next : RegistryId × DispatcherId → Script α}
    (hnext : ∀ known, (next known).Meets demands) :
    Script.Meets demands (Script.registry name >>= next) :=
  onRegistry name fun _ hrun ↦ hnext _ hrun

/-- The function of a name is asked for. -/
theorem findOrCreate {registry name : String} {known : RegistryId × DispatcherId} {state : State}
    (hknown : state.registries.get? registry = some known) :
    state.Meets [.function registry name]
      { state with world := (state.world.findOrCreate known.1 name).2 } :=
  ⟨[.findOrCreate known.1 name], .applyAll fun hnames ↦ ⟨(hnames _ _ hknown).1, trivial⟩,
    .cons (.function hknown) .nil⟩

/-- A function is looked for, which meets no demand. -/
theorem find {registry name : String} {known : RegistryId × DispatcherId} {state : State}
    (hknown : state.registries.get? registry = some known) :
    state.Meets [] { state with world := (state.world.find known.1 name).2 } :=
  ⟨[.find known.1 name], .applyAll fun hnames ↦ ⟨(hnames _ _ hknown).1, trivial⟩, .nil⟩

theorem place (slot : String) : Script.Meets [] (Script.place slot) := by
  refine get.after fun state ↦ ?_
  cases state.slots.get? slot with
  | some place => exact .pure place
  | none => exact .throw _

theorem mapM {measure : α → List Demand} {convert : α → Script β}
    (hconvert : ∀ value, (convert value).Meets (measure value)) (given : Option α) :
    Script.Meets (given.elim [] measure) (given.mapM convert) := by
  cases given with
  | none => exact .pure none
  | some value => exact (hconvert value).before fun _ ↦ .pure _

end Script.Meets

end Session

end GuestCore
