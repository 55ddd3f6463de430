import GuestCore.Proofs.Batches

/-!
# Registries Are Isolated

A call runs on a dispatcher, which belongs to one registry, its home.  Whatever is called, and
however calls nest, names are asked for and registered at home, and the only depth that changes is
that of the dispatcher itself.  So every other registry stays as it is, with its functions and its
dispatchers; it is not even read, because the call would go through the same events if that
registry were any other.
-/

namespace GuestCore

open Session

/-! ## Events at home -/

/-- The effect asks no registry but the home, and does bookkeeping for no dispatcher but the given
one. -/
def Effect.StaysIn (home : RegistryId) (dispatcher : DispatcherId) : Effect → Prop
  | find registry _ | findOrCreate registry _ | register registry _ _ | beginBatch registry _ =>
    registry = home
  | noteCall other _ _ => other = dispatcher
  | freshIdentity | writeMember _ _ _ | setMembers _ _ | refuseCall _ _ => True
  | newObject _ | newRegistry _ | newDispatcher _ => False

def Event.StaysIn (home : RegistryId) (dispatcher : DispatcherId) : Event → Prop
  | effect change => change.StaysIn home dispatcher
  | enter frame | leave frame => frame.dispatcher = dispatcher

/-- The registry is as it was, with all its functions and the depths of its dispatchers. -/
structure World.SameRegistry (registry : RegistryId) (before after : World) : Prop where
  registry_eq : after.registry registry = before.registry registry
  functions_eq : ∀ name function, before.functionNamed? registry name = some function →
    after.functionState function = before.functionState function
  dispatchers_eq : ∀ dispatcher, (before.dispatcher dispatcher).registry = registry →
    after.dispatcher dispatcher = before.dispatcher dispatcher

namespace World

variable {registry home other : RegistryId} {before world after : World}
  {dispatcher : DispatcherId}

namespace SameRegistry

theorem refl (registry : RegistryId) (world : World) : SameRegistry registry world world :=
  ⟨rfl, fun _ _ _ ↦ rfl, fun _ _ ↦ rfl⟩

theorem trans (hfirst : SameRegistry registry before world)
    (hsecond : SameRegistry registry world after) : SameRegistry registry before after where
  registry_eq := hsecond.registry_eq.trans hfirst.registry_eq
  functions_eq name function hname := by
    have hstill : world.functionNamed? registry name = some function := by
      rw [functionNamed?, hfirst.registry_eq]
      exact hname
    exact (hsecond.functions_eq name function hstill).trans
      (hfirst.functions_eq name function hname)
  dispatchers_eq dispatcher hregistry := by
    have hsame := hfirst.dispatchers_eq dispatcher hregistry
    rw [hsecond.dispatchers_eq dispatcher (hsame ▸ hregistry), hsame]

end SameRegistry

theorem dispatcher_setDepth_of_ne {first second : DispatcherId} (hother : second ≠ first)
    (depth : Nat) : (world.setDepth first depth).dispatcher second = world.dispatcher second := by
  refine (Table.get_modify world.dispatchers first.index second.index _).trans (if_neg ?_)
  rintro ⟨heq, -⟩
  exact hother (by cases first; cases second; simp_all)

theorem registry_findOrCreate_of_ne (hother : other ≠ registry) (name : String) :
    (world.findOrCreate registry name).2.registry other = world.registry other := by
  cases hname : world.functionNamed? registry name with
  | some function =>
    rw [findOrCreate_of_some hname]
    rfl
  | none =>
    rw [findOrCreate_of_none hname]
    exact registry_modifyRegistry_of_ne hother _

theorem registry_beginBatch_of_ne (hother : other ≠ registry) (batch : Batch) :
    (world.beginBatch registry batch).registry other = world.registry other := by
  unfold beginBatch
  dsimp only
  split
  · rfl
  · exact registry_modifyRegistry_of_ne hother _

end World

/-! ## One event -/

namespace Effect

variable {home other : RegistryId} {dispatcher : DispatcherId} {effect : Effect} {world : World}

theorem StaysIn.registry_eq (hstays : effect.StaysIn home dispatcher) (hother : other ≠ home) :
    (effect.apply world).registry other = world.registry other := by
  cases effect with
  | freshIdentity | writeMember | setMembers | refuseCall | find => rfl
  | findOrCreate registry name =>
    obtain rfl : registry = home := hstays
    exact World.registry_findOrCreate_of_ne hother name
  | register registry name definition =>
    obtain rfl : registry = home := hstays
    exact World.registry_register_of_ne hother name definition
  | beginBatch registry batch =>
    obtain rfl : registry = home := hstays
    exact World.registry_beginBatch_of_ne hother batch
  | noteCall caller site function =>
    exact World.eq_of_visible_eq (fun world ↦ world.registry other) (fun _ ↦ rfl)
      (world.visible_noteCall caller site function)
  | newObject | newRegistry | newDispatcher => exact hstays.elim

theorem StaysIn.eq_home_of_mentioned? (hstays : effect.StaysIn home dispatcher)
    {registry : RegistryId} {name : String} (hname : effect.mentioned? registry = some name) :
    registry = home := by
  cases effect with
  | findOrCreate asked | register asked =>
    obtain ⟨rfl, -⟩ := Option.ite_none_right_eq_some.mp hname
    exact hstays
  | _ => cases hname

theorem StaysIn.dispatchers_eq (hstays : effect.StaysIn home dispatcher) :
    (effect.apply world).dispatchers = world.dispatchers := by
  rw [dispatchers_apply]
  split
  · exact hstays.elim
  · rfl

/-- A function of another registry is neither new nor redefined. -/
theorem StaysIn.functionState_eq (hstays : effect.StaysIn home dispatcher) (hother : other ≠ home)
    (hcanonical : world.Canonical) (hallowed : effect.Allowed world) {name : String}
    {function : FunctionId} (hname : world.functionNamed? other name = some function) :
    (effect.apply world).functionState function = world.functionState function := by
  cases effect.functionChange hallowed with
  | unchanged hfunctions =>
    rw [World.functionState, hfunctions]
    rfl
  | created registry newName definition _ hfunctions =>
    rw [World.functionState_of_push hfunctions, if_neg (hcanonical.ne_new hname)]
  | redefined registry newName changed definition hknown hfunctions _ hmentioned =>
    have hhome : registry = home :=
      hstays.eq_home_of_mentioned? ((hmentioned registry).trans (if_pos rfl))
    have hdistinct : function ≠ changed := by
      rintro rfl
      exact hother ((hcanonical.injective hname hknown).1.trans hhome)
    rw [World.functionState_of_redefine hfunctions, if_neg fun hsame ↦ hdistinct hsame.1]

end Effect

namespace Event

variable {home : RegistryId} {dispatcher : DispatcherId} {world : World}

theorem StaysIn.home_apply {event : Event} (hstays : event.StaysIn home dispatcher) :
    ((event.apply world).dispatcher dispatcher).registry =
      (world.dispatcher dispatcher).registry := by
  cases event with
  | enter frame | leave frame => exact World.registry_dispatcher_setDepth _ _ _ _
  | effect effect =>
    exact congrArg (fun dispatchers ↦ (Table.get dispatchers dispatcher.index).registry)
      hstays.dispatchers_eq

theorem home_replay {events : List Event}
    (hstays : ∀ event ∈ events, event.StaysIn home dispatcher) :
    ((replay events world).dispatcher dispatcher).registry =
      (world.dispatcher dispatcher).registry := by
  induction events generalizing world with
  | nil => rfl
  | cons event rest ih =>
    obtain ⟨hfirst, hrest⟩ := List.forall_mem_cons.mp hstays
    rw [replay_cons, ih hrest, hfirst.home_apply]

end Event

namespace Moment

variable {moment : Moment} {home other : RegistryId} {dispatcher : DispatcherId}

theorem Step.allowed_of_follow {effect : Effect}
    (hstep : moment.Step (moment.follow (.effect effect))) : effect.Allowed moment.world := by
  generalize hnext : moment.follow (.effect effect) = next at hstep
  have hjournal : moment.journal ++ [effect] = next.journal := congrArg Moment.journal hnext
  cases hstep with
  | effect change hallowed =>
    obtain rfl : effect = change := List.singleton_inj.mp (List.append_cancel_left hjournal)
    exact hallowed
  | enter | leave => exact absurd hjournal (by simp)

/-- What happens at home leaves other registries alone. -/
theorem sameRegistry_follow {event : Event} (hreachable : moment.Reachable)
    (hstep : moment.Step (moment.follow event)) (hstays : event.StaysIn home dispatcher)
    (hhome : (moment.world.dispatcher dispatcher).registry = home) (hother : other ≠ home) :
    World.SameRegistry other moment.world (moment.follow event).world := by
  have hdistinct {caller : DispatcherId}
      (hcaller : (moment.world.dispatcher caller).registry = other) : caller ≠ dispatcher := by
    rintro rfl
    exact hother (hcaller.symm.trans hhome)
  cases event with
  | enter frame | leave frame =>
    obtain rfl : frame.dispatcher = dispatcher := hstays
    exact ⟨rfl, fun _ _ _ ↦ rfl, fun caller hcaller ↦
      World.dispatcher_setDepth_of_ne (hdistinct hcaller) _⟩
  | effect effect =>
    have hallowed : effect.Allowed moment.world := Step.allowed_of_follow hstep
    refine ⟨hstays.registry_eq hother, fun name function hname ↦
      hstays.functionState_eq hother hreachable.canonical hallowed hname, fun caller _ ↦ ?_⟩
    exact congrArg (Table.get · caller.index) hstays.dispatchers_eq

/-- However many events there are at home, other registries stay as they were. -/
theorem Legal.sameRegistry {events : List Event} (hlegal : moment.Legal events)
    (hreachable : moment.Reachable) (hstays : ∀ event ∈ events, event.StaysIn home dispatcher)
    (hhome : (moment.world.dispatcher dispatcher).registry = home) (hother : other ≠ home) :
    World.SameRegistry other moment.world (moment.followAll events).world := by
  induction events generalizing moment with
  | nil => exact .refl other moment.world
  | cons event rest ih =>
    obtain ⟨hfirst, hrest⟩ := List.forall_mem_cons.mp hstays
    have hstill : ((moment.follow event).world.dispatcher dispatcher).registry = home := by
      rw [world_follow, hfirst.home_apply, hhome]
    exact (sameRegistry_follow hreachable hlegal.1 hfirst hhome hother).trans
      (ih hlegal.2 (hreachable.leads (.single hlegal.1)) hrest hstill)

end Moment

/-! ## Another registry is not read -/

theorem Table.modify_comm_of_ne {α : Type} (table : Table α) {first second : Nat}
    (hdistinct : first ≠ second) (change other : α → α) :
    (table.modify first change).modify second other =
      (table.modify second other).modify first change := by
  simp only [modify, mk.injEq]
  apply Array.ext
  · simp
  · intro position hleft hright
    simp only [Array.getElem_modify]
    split <;> split <;> simp_all

namespace World

variable {registry other : RegistryId} (world : World) (change : Registry → Registry)

theorem modifyRegistry_comm (hother : other ≠ registry) (alter : Registry → Registry) :
    (world.modifyRegistry other change).modifyRegistry registry alter =
      (world.modifyRegistry registry alter).modifyRegistry other change := by
  have hindex : other.index ≠ registry.index := fun heq ↦
    hother (by cases other; cases registry; simp_all)
  simp only [modifyRegistry, world.registries.modify_comm_of_ne hindex]

theorem functionNamed?_modifyRegistry_of_ne (hother : registry ≠ other) (name : String) :
    (world.modifyRegistry other change).functionNamed? registry name =
      world.functionNamed? registry name := by
  rw [functionNamed?, registry_modifyRegistry_of_ne hother]
  rfl

theorem addFunction_modifyRegistry (hother : other ≠ registry) (name : String)
    (definition : Option Definition) :
    ((world.modifyRegistry other change).addFunction registry name definition).2 =
      (world.addFunction registry name definition).2.modifyRegistry other change :=
  modifyRegistry_comm (world.newFunction { name, definition }).2 change hother _

theorem findOrCreate_modifyRegistry (hother : other ≠ registry) (name : String) :
    (world.modifyRegistry other change).findOrCreate registry name =
      ((world.findOrCreate registry name).1,
        (world.findOrCreate registry name).2.modifyRegistry other change) := by
  have hsame := world.functionNamed?_modifyRegistry_of_ne change hother.symm name
  cases hname : world.functionNamed? registry name with
  | some function =>
    rw [findOrCreate_of_some hname, findOrCreate_of_some (hsame.trans hname)]
    rfl
  | none =>
    rw [findOrCreate_of_none hname, findOrCreate_of_none (hsame.trans hname)]
    refine Prod.ext rfl ?_
    exact congrArg (World.log · _)
      ((world.log (.lookup name true)).addFunction_modifyRegistry change hother name none)

theorem register_modifyRegistry (hother : other ≠ registry) (name : String)
    (definition : Definition) :
    (world.modifyRegistry other change).register registry name definition =
      ((world.register registry name definition).1,
        (world.register registry name definition).2.modifyRegistry other change) := by
  have hsame := world.functionNamed?_modifyRegistry_of_ne change hother.symm name
  cases hname : world.functionNamed? registry name with
  | some function =>
    rw [register_of_some definition hname, register_of_some definition (hsame.trans hname)]
    rfl
  | none =>
    rw [register_of_none definition hname, register_of_none definition (hsame.trans hname)]
    refine Prod.ext rfl ?_
    exact congrArg (World.log · _)
      ((world.log (.register name)).addFunction_modifyRegistry change hother name _)

theorem registerAll_modifyRegistry (hother : other ≠ registry)
    (entries : List (String × Definition)) :
    (world.modifyRegistry other change).registerAll registry entries =
      (world.registerAll registry entries).modifyRegistry other change := by
  induction entries generalizing world with
  | nil => rfl
  | cons entry rest ih =>
    simp only [registerAll, List.foldl_cons] at ih ⊢
    rw [register_modifyRegistry _ _ hother, ih]

theorem beginBatch_modifyRegistry (hother : other ≠ registry) (batch : Batch) :
    (world.modifyRegistry other change).beginBatch registry batch =
      (world.beginBatch registry batch).modifyRegistry other change := by
  have hsame : ((world.modifyRegistry other change).log
        (.registerBatch batch.entries.length)).registry registry =
      (world.log (.registerBatch batch.entries.length)).registry registry :=
    registry_modifyRegistry_of_ne hother.symm change
  unfold beginBatch
  dsimp only
  rw [hsame]
  split
  · rfl
  · exact modifyRegistry_comm (world.log _) change hother _

theorem registerBatch_modifyRegistry (hother : other ≠ registry) (batch : Batch) :
    (world.modifyRegistry other change).registerBatch registry batch =
      (world.registerBatch registry batch).modifyRegistry other change := by
  rw [registerBatch_eq, registerBatch_eq, registry_modifyRegistry_of_ne hother.symm,
    beginBatch_modifyRegistry _ _ hother, registerAll_modifyRegistry _ _ hother]
  split <;> rfl

theorem modifyRegistry_foldl_log (records : List TraceRecord) :
    (records.foldl World.log world).modifyRegistry other change =
      records.foldl World.log (world.modifyRegistry other change) := by
  induction records generalizing world with
  | nil => rfl
  | cons record rest ih => exact ih (world.log record)

theorem noteSlowCall_modifyRegistry {dispatcher : DispatcherId}
    (hother : other ≠ (world.dispatcher dispatcher).registry) (site : String)
    (function : FunctionId) :
    (world.modifyRegistry other change).noteSlowCall dispatcher site function =
      (world.noteSlowCall dispatcher site function).modifyRegistry other change := by
  have hconfig : (world.modifyRegistry other change).configOf dispatcher =
      world.configOf dispatcher :=
    congrArg Registry.config (registry_modifyRegistry_of_ne hother.symm change)
  have hstate : (world.modifyRegistry other change).functionState function =
      world.functionState function := rfl
  unfold noteSlowCall
  dsimp only
  rw [hstate, hconfig]
  cases (world.functionState function).definition with
  | none => rfl
  | some definition =>
    dsimp only
    rw [modifyRegistry_foldl_log]
    rfl

theorem noteCall_modifyRegistry {dispatcher : DispatcherId}
    (hother : other ≠ (world.dispatcher dispatcher).registry) (site : String)
    (function : FunctionId) :
    (world.modifyRegistry other change).noteCall dispatcher site function =
      (world.noteCall dispatcher site function).modifyRegistry other change := by
  have hconsult : ((world.modifyRegistry other change).site site).consult function
      ((world.modifyRegistry other change).functionState function).published =
        (world.site site).consult function (world.functionState function).published := rfl
  unfold noteCall
  dsimp only
  rw [hconsult]
  cases (world.site site).consult function (world.functionState function).published with
  | current definition => rfl
  | stale cached => exact noteSlowCall_modifyRegistry (world.log _) change hother site function
  | unknown => exact world.noteSlowCall_modifyRegistry change hother site function

end World

theorem Event.StaysIn.apply_modifyRegistry {home other : RegistryId} {dispatcher : DispatcherId}
    {event : Event} {world : World} (hstays : event.StaysIn home dispatcher)
    (hhome : (world.dispatcher dispatcher).registry = home) (hother : other ≠ home)
    (change : Registry → Registry) :
    event.apply (world.modifyRegistry other change) =
      (event.apply world).modifyRegistry other change := by
  cases event with
  | enter | leave => rfl
  | effect effect =>
    cases effect with
    | freshIdentity | writeMember | setMembers | refuseCall | find => rfl
    | findOrCreate registry name =>
      obtain rfl : registry = home := hstays
      exact congrArg Prod.snd (world.findOrCreate_modifyRegistry change hother name)
    | register registry name definition =>
      obtain rfl : registry = home := hstays
      exact congrArg Prod.snd (world.register_modifyRegistry change hother name definition)
    | beginBatch registry batch =>
      obtain rfl : registry = home := hstays
      exact world.beginBatch_modifyRegistry change hother batch
    | noteCall caller site function =>
      obtain rfl : caller = dispatcher := hstays
      exact world.noteCall_modifyRegistry change (hhome ▸ hother) site function
    | newObject | newRegistry | newDispatcher => exact hstays.elim

theorem Event.replay_modifyRegistry {home other : RegistryId} {dispatcher : DispatcherId}
    {events : List Event} {world : World}
    (hstays : ∀ event ∈ events, event.StaysIn home dispatcher)
    (hhome : (world.dispatcher dispatcher).registry = home) (hother : other ≠ home)
    (change : Registry → Registry) :
    replay events (world.modifyRegistry other change) =
      (replay events world).modifyRegistry other change := by
  induction events generalizing world with
  | nil => rfl
  | cons event rest ih =>
    obtain ⟨hfirst, hrest⟩ := List.forall_mem_cons.mp hstays
    rw [replay_cons, replay_cons, hfirst.apply_modifyRegistry hhome hother,
      ih hrest (hfirst.home_apply.trans hhome)]

namespace Value

variable {left right : World}

mutual

theorem display_eq_of_names_eq (hnames : ∀ function,
    (left.functionState function).name = (right.functionState function).name) :
    (value : Value) → value.display left = value.display right
  | null | integer _ | boolean _ | text _ _ | object _ => by simp only [display]
  | function id => by simp only [display, hnames]
  | list _ items => by simp only [display, displayAll_eq_of_names_eq hnames items]

theorem displayAll_eq_of_names_eq (hnames : ∀ function,
    (left.functionState function).name = (right.functionState function).name) :
    (items : List Value) → displayAll left items = displayAll right items
  | [] => by simp only [displayAll]
  | item :: rest => by
    simp only [displayAll, display_eq_of_names_eq hnames item,
      displayAll_eq_of_names_eq hnames rest]

end

end Value

/-- Operators read nothing of the world but the names of functions. -/
theorem Operator.apply_eq_of_names_eq {left right : World}
    (hnames : ∀ function,
      (left.functionState function).name = (right.functionState function).name)
    (operator : BinaryOperator) (operation : Operation) (first second : Receiver) :
    apply left operator operation first second = apply right operator operation first second := by
  have hdisplay : Value.display left = Value.display right :=
    funext fun value ↦ value.display_eq_of_names_eq hnames
  have hdescribe : describe left = describe right := by
    funext operand
    simp only [describe, Receiver.viewDisplay, hdisplay]
  have hjoin : joinText left = joinText right := by
    funext operand
    simp only [joinText, Receiver.viewDisplay, hdisplay]
  cases operator <;>
    simp only [apply, add, sub, mul, lt, le, onIntegers, typeError, typeErrorMessage, hdescribe,
      hjoin]

/-! ## Computations at home -/

namespace Traced

variable {α β : Type} {dispatcher : DispatcherId}

/-- The events of a result are at home, where the dispatcher stays, and the other result differs
only in a registry away from home. -/
structure AtHome (dispatcher : DispatcherId) (home other : RegistryId)
    (change : Registry → Registry) (result altered : Outcome α × List Event) : Prop where
  events : ∀ event ∈ result.2, event.StaysIn home dispatcher
  home : ∀ after, result.1.world? = some after →
    (after.dispatcher dispatcher).registry = home
  altered_eq : altered = (result.1.mapWorld (·.modifyRegistry other change), result.2)

/-- From any world the computation stays in the home of the dispatcher, and it would go through the
same events if another registry were changed. -/
def StaysHome (dispatcher : DispatcherId) (traced : Traced α) : Prop :=
  ∀ (world : World) (other : RegistryId) (change : Registry → Registry),
    other ≠ (world.dispatcher dispatcher).registry →
      AtHome dispatcher (world.dispatcher dispatcher).registry other change (traced world)
        (traced (world.modifyRegistry other change))

namespace StaysHome

variable {first fallback : Traced α}

theorem pure (value : α) : StaysHome dispatcher (Pure.pure value : Traced α) :=
  fun _ _ _ _ ↦ ⟨nofun, fun _ hafter ↦ by cases hafter; rfl, rfl⟩

theorem raise (fault : Fault) :
    StaysHome dispatcher (fun world ↦ (.raised fault world, []) : Traced α) :=
  fun _ _ _ _ ↦ ⟨nofun, fun _ hafter ↦ by cases hafter; rfl, rfl⟩

/-- A computation goes on where another one has ended, at home still. -/
theorem continued {next : Traced β} (hnext : next.StaysHome dispatcher) {middle : World}
    {home other : RegistryId} (change : Registry → Registry) {events : List Event}
    (hevents : ∀ event ∈ events, event.StaysIn home dispatcher)
    (hmiddle : (middle.dispatcher dispatcher).registry = home) (hother : other ≠ home) :
    AtHome dispatcher home other change ((next middle).1, events ++ (next middle).2)
      ((next (middle.modifyRegistry other change)).1,
        events ++ (next (middle.modifyRegistry other change)).2) := by
  subst hmiddle
  obtain ⟨hmore, hhome, haltered⟩ := hnext middle other change hother
  refine ⟨List.forall_mem_append.mpr ⟨hevents, hmore⟩, hhome, ?_⟩
  rw [haltered]

theorem bind {next : α → Traced β} (hfirst : first.StaysHome dispatcher)
    (hnext : ∀ value, (next value).StaysHome dispatcher) :
    StaysHome dispatcher (first >>= next) := by
  intro world other change hother
  have hhere := hfirst world other change hother
  change AtHome _ _ _ _ (Traced.bind first next world) (Traced.bind first next _)
  unfold Traced.bind
  generalize first world = result at hhere
  generalize first (world.modifyRegistry other change) = altered at hhere
  obtain ⟨hevents, hhome, rfl⟩ := hhere
  obtain ⟨outcome, events⟩ := result
  cases outcome with
  | returned value middle => exact (hnext value).continued change hevents (hhome middle rfl) hother
  | raised | exhausted => exact ⟨hevents, hhome, rfl⟩

theorem orElse (hfirst : first.StaysHome dispatcher)
    (hfallback : fallback.StaysHome dispatcher) :
    StaysHome dispatcher (first.orElse fallback) := by
  intro world other change hother
  have hhere := hfirst world other change hother
  unfold Traced.orElse
  generalize first world = result at hhere
  generalize first (world.modifyRegistry other change) = altered at hhere
  obtain ⟨hevents, hhome, rfl⟩ := hhere
  obtain ⟨outcome, events⟩ := result
  cases outcome with
  | raised fault middle => exact hfallback.continued change hevents (hhome middle rfl) hother
  | returned | exhausted => exact ⟨hevents, hhome, rfl⟩

end StaysHome

/-- What a part of a body does, it does at home. -/
theorem staysIn_effects {home : RegistryId} {world : World} (part : Body.Leaf α)
    (hhome : (world.dispatcher dispatcher).registry = home) :
    ∀ effect ∈ part.effects dispatcher world, effect.StaysIn home dispatcher := by
  subst hhome
  cases part with
  | depth | readMember | fail | notExecutable => exact List.forall_mem_nil _
  | newList => exact List.forall_mem_singleton.mpr trivial
  | findOrCreate | register => exact List.forall_mem_singleton.mpr rfl
  | operator op operation left right =>
    simp only [Body.Leaf.effects]
    split
    · exact List.forall_mem_singleton.mpr trivial
    · exact List.forall_mem_nil _
  | writeMember value member content =>
    intro effect heffect
    obtain ⟨object, -, rfl⟩ := Option.map_eq_some_iff.mp (Option.mem_toList.mp heffect)
    trivial
  | registerBatch batch =>
    intro effect heffect
    rcases World.mem_batchEffects heffect with rfl | ⟨entry, -, rfl⟩ <;> rfl
  | removeMember value member =>
    intro effect heffect
    obtain ⟨object, -, hremoved⟩ := Option.bind_eq_some_iff.mp (Option.mem_toList.mp heffect)
    obtain ⟨removed, -, rfl⟩ := Option.map_eq_some_iff.mp hremoved
    trivial

/-- A part of a body reads nothing of other registries. -/
theorem performing_modifyRegistry {world : World} {other : RegistryId}
    (hother : other ≠ (world.dispatcher dispatcher).registry) (change : Registry → Registry)
    (part : Body.Leaf α) :
    part.perform dispatcher (world.modifyRegistry other change) =
        (part.perform dispatcher world).mapWorld (·.modifyRegistry other change) ∧
      part.effects dispatcher (world.modifyRegistry other change) =
        part.effects dispatcher world := by
  cases part with
  | depth | newList | fail | notExecutable => exact ⟨rfl, rfl⟩
  | operator op operation left right =>
    have hsame : Operator.apply (world.modifyRegistry other change) op operation (.native left)
        (.native right) = Operator.apply world op operation (.native left) (.native right) :=
      Operator.apply_eq_of_names_eq (fun _ ↦ by rfl) ..
    simp only [Body.Leaf.perform, Body.Leaf.effects, Operator.run, hsame, and_true]
    cases Operator.apply world op operation (.native left) (.native right) with
    | error fault => rfl
    | ok scalar => cases scalar <;> rfl
  | findOrCreate name =>
    have hsame := world.findOrCreate_modifyRegistry change hother name
    refine ⟨?_, rfl⟩
    change Outcome.returned (World.findOrCreate _ _ name).1 (World.findOrCreate _ _ name).2 = _
    exact hsame ▸ rfl
  | register name definition =>
    have hsame := world.register_modifyRegistry change hother name definition
    refine ⟨?_, rfl⟩
    change Outcome.returned (Value.function (World.register _ _ name definition).1)
      (World.register _ _ name definition).2 = _
    exact hsame ▸ rfl
  | registerBatch batch =>
    constructor
    · exact congrArg (Outcome.returned ()) (world.registerBatch_modifyRegistry change hother batch)
    · have hhome : ((world.modifyRegistry other change).dispatcher dispatcher).registry =
        (world.dispatcher dispatcher).registry := rfl
      simp only [Body.Leaf.effects, World.batchEffects, hhome,
        World.registry_modifyRegistry_of_ne hother.symm]
  | readMember value member =>
    have hsame : value.readMember (world.modifyRegistry other change) member =
      value.readMember world member := rfl
    simp only [Body.Leaf.perform, hsame]
    cases value.readMember world member <;> exact ⟨rfl, rfl⟩
  | writeMember value member content =>
    simp only [Body.Leaf.perform, Value.writeMember]
    cases value.object? <;> exact ⟨rfl, rfl⟩
  | removeMember value member =>
    simp only [Body.Leaf.perform, Value.removeMember]
    cases value.object? with
    | none => exact ⟨rfl, rfl⟩
    | some object =>
      have hsame : (world.modifyRegistry other change).members object = world.members object := rfl
      dsimp only
      rw [hsame]
      cases (world.members object).remove member <;> exact ⟨rfl, rfl⟩

theorem StaysHome.performing (part : Body.Leaf α) :
    StaysHome dispatcher (.performing (part.perform dispatcher) fun world ↦
      part.effects dispatcher world) := by
  intro world other change hother
  have hstays : ∀ event ∈ (part.effects dispatcher world).map Event.effect,
      event.StaysIn (world.dispatcher dispatcher).registry dispatcher :=
    List.forall_mem_map.mpr (staysIn_effects part rfl)
  obtain ⟨hperform, heffects⟩ := performing_modifyRegistry hother change part
  refine ⟨hstays, fun after hafter ↦ ?_, ?_⟩
  · change (part.perform dispatcher world).world? = some after at hafter
    rw [part.world?_perform] at hafter
    obtain rfl := Option.some.inj hafter
    exact Event.home_replay hstays
  · simp only [Traced.performing, hperform, heffects]

section Calls

variable {traced : TracedRunner}

/-- A call that begins and ends on the dispatcher is at home if what it runs is. -/
theorem AtHome.activated {home other : RegistryId} {change : Registry → Registry} {frame : Frame}
    {result altered : Outcome Value × List Event}
    (hinner : AtHome dispatcher home other change result altered)
    (hframe : frame.dispatcher = dispatcher) :
    AtHome dispatcher home other change
      (result.1.mapWorld (Event.leave frame).apply,
        .enter frame :: (result.2 ++ result.1.leaving frame))
      (altered.1.mapWorld (Event.leave frame).apply,
        .enter frame :: (altered.2 ++ altered.1.leaving frame)) := by
  obtain ⟨hevents, hhome, rfl⟩ := hinner
  obtain ⟨outcome, events⟩ := result
  have hfinal {after : World} (hafter : outcome.world? = some after) :
      (((Event.leave frame).apply after).dispatcher dispatcher).registry = home :=
    (World.registry_dispatcher_setDepth _ _ _ _).trans (hhome after hafter)
  cases outcome with
  | returned value after | raised fault after =>
    refine ⟨List.forall_mem_cons.mpr ⟨hframe, List.forall_mem_append.mpr ⟨hevents,
      List.forall_mem_singleton.mpr hframe⟩⟩, fun _ hafter ↦ ?_, rfl⟩
    cases hafter
    exact hfinal rfl
  | exhausted =>
    exact ⟨List.forall_mem_cons.mpr ⟨hframe, List.forall_mem_append.mpr ⟨hevents, nofun⟩⟩, nofun,
      rfl⟩

theorem activate_staysHome
    (hrun : ∀ definition arguments, (traced dispatcher definition arguments).StaysHome dispatcher)
    (name : String) (definition : Definition) (arguments : List Value) :
    (activate traced dispatcher arguments name definition).StaysHome dispatcher := by
  intro world other change hother
  have hconfig : (world.modifyRegistry other change).configOf dispatcher =
      world.configOf dispatcher :=
    congrArg Registry.config (World.registry_modifyRegistry_of_ne hother.symm change)
  have hdepth : (world.modifyRegistry other change).depth dispatcher = world.depth dispatcher := rfl
  unfold activate
  dsimp only
  rw [hconfig, hdepth]
  cases (world.configOf dispatcher).reachedLimit? (world.depth dispatcher) with
  | some limit =>
    refine ⟨List.forall_mem_singleton.mpr trivial, fun after hafter ↦ ?_, rfl⟩
    cases hafter
    rfl
  | none =>
    let frame : Frame := ⟨dispatcher, world.depth dispatcher⟩
    have hentered : (((Event.enter frame).apply world).dispatcher dispatcher).registry =
        (world.dispatcher dispatcher).registry := World.registry_dispatcher_setDepth _ _ _ _
    have hinner := hrun definition arguments ((Event.enter frame).apply world) other change
      (hentered ▸ hother)
    rw [hentered] at hinner
    exact hinner.activated rfl

theorem call_staysHome
    (hrun : ∀ definition arguments, (traced dispatcher definition arguments).StaysHome dispatcher)
    (arguments : List Value) (routing : Routing) (route : Route) :
    (call traced dispatcher arguments routing route).StaysHome dispatcher := by
  have henter (target : Except Fault (String × Definition)) :
      (enter traced dispatcher arguments target).StaysHome dispatcher := by
    cases target with
    | ok found => exact activate_staysHome hrun found.1 found.2 arguments
    | error fault => exact .raise fault
  intro world other change hother
  have hstays : ∀ event ∈ route.events routing world dispatcher,
      event.StaysIn (world.dispatcher dispatcher).registry dispatcher := by
    refine List.forall_mem_map.mpr ?_
    cases route with
    | direct | executed => exact List.forall_mem_nil _
    | named => exact List.forall_mem_singleton.mpr rfl
    | throughSite =>
      cases routing with
      | cached => exact List.forall_mem_singleton.mpr rfl
      | generic => exact List.forall_mem_nil _
  have hevents : route.events routing (world.modifyRegistry other change) dispatcher =
      route.events routing world dispatcher := rfl
  have htarget : route.target routing (world.modifyRegistry other change) dispatcher =
      route.target routing world dispatcher := by
    cases route with
    | direct | executed | throughSite => rfl
    | named name =>
      have hsame : (world.modifyRegistry other change).dispatcher dispatcher =
          world.dispatcher dispatcher := rfl
      rw [Route.target, Route.target, hsame,
        world.functionNamed?_modifyRegistry_of_ne change hother.symm]
      rfl
  have hreplay := Event.replay_modifyRegistry hstays rfl hother change
  have hhere := (henter (route.target routing world dispatcher)).continued change hstays
    (Event.home_replay hstays) hother
  unfold call
  dsimp only
  rw [hevents, htarget, hreplay]
  exact hhere

end Calls

theorem staysHome_closed (routing : Routing) (dispatcher : DispatcherId) :
    Closed routing dispatcher (StaysHome dispatcher) where
  pure := .pure
  bind := .bind
  orElse := .orElse
  leaf := .performing
  call hrun arguments route := call_staysHome hrun arguments routing route
  exhausted _ _ _ _ := ⟨nofun, nofun, rfl⟩

end Traced

/-! ## Calls -/

/-- How a call leaves a registry alone that is not the home of its dispatcher. -/
structure LeavesAlone (moment : Moment) (call : PreparedCall) (routing : Routing)
    (allowance : Nat) (other : RegistryId) : Prop where
  /-- The events are those of the call, and they are steps from moment to moment. -/
  told : (call.traced routing allowance moment.world).1 =
      call.perform routing allowance moment.world ∧
    moment.Legal (call.traced routing allowance moment.world).2
  /-- Names are asked for and registered at home, and calls are counted on the dispatcher. -/
  at_home : ∀ event ∈ (call.traced routing allowance moment.world).2,
    event.StaysIn (moment.world.dispatcher call.dispatcher).registry call.dispatcher
  /-- After each of the events, the other registry is what it was. -/
  throughout : ∀ events, events <+: (call.traced routing allowance moment.world).2 →
    World.SameRegistry other moment.world (Event.replay events moment.world)
  at_end : ∀ after, (call.perform routing allowance moment.world).world? = some after →
    World.SameRegistry other moment.world after
  /-- Whatever names the other registry has, and whatever its settings are, the call is the
  same. -/
  unread : ∀ change, call.perform routing allowance (moment.world.modifyRegistry other change) =
    (call.perform routing allowance moment.world).mapWorld (·.modifyRegistry other change)

theorem Session.PreparedCall.leavesAlone (call : PreparedCall) (routing : Routing)
    (allowance : Nat) {moment : Moment} (hreachable : moment.Reachable)
    (hdispatcher : moment.world.HasDispatcher call.dispatcher) {other : RegistryId}
    (hother : other ≠ (moment.world.dispatcher call.dispatcher).registry) :
    LeavesAlone moment call routing allowance other := by
  have hdescribes := call.traced_describes routing allowance
  have hstays := call.traced_of_closed (Traced.staysHome_closed routing _) allowance moment.world
    other
  obtain ⟨hlegal, -⟩ := call.traced_of_closed (Traced.goesInSteps_closed routing _) allowance moment
    hreachable hdispatcher
  have hevents := (hstays id hother).events
  have hsame (events : List Event)
      (hbegin : events <+: (call.traced routing allowance moment.world).2) :
      World.SameRegistry other moment.world (Event.replay events moment.world) := by
    obtain ⟨rest, heq⟩ := hbegin
    rw [← heq] at hlegal hevents
    rw [← moment.world_followAll]
    exact (Moment.legal_append_iff.mp hlegal).1.sameRegistry hreachable
      (List.forall_mem_append.mp hevents).1 rfl hother
  refine ⟨⟨(hdescribes _).1, hlegal⟩, hevents, hsame, fun after hafter ↦ ?_, fun change ↦ ?_⟩
  · rw [← (hdescribes _).2 after hafter]
    exact hsame _ List.prefix_rfl
  · rw [← (hdescribes _).1, ← (hdescribes _).1, (hstays change hother).altered_eq]

/-- Registries are isolated from each other, at every moment of every run.  A call on a dispatcher
leaves all registries alone but the home of the dispatcher, whatever is called.  A call through a
call site, which all registries share, runs what the function is bound to that it is given. -/
theorem registries_isolated :
    (∀ (moment : Moment) (call : PreparedCall) (routing : Routing) (allowance : Nat)
      (other : RegistryId), moment.Reachable → moment.world.HasDispatcher call.dispatcher →
        other ≠ (moment.world.dispatcher call.dispatcher).registry →
          LeavesAlone moment call routing allowance other) ∧
    ∀ (moment : Moment) (run : Runner) (dispatcher : DispatcherId) (site : String)
      (function : FunctionId) (arguments : List Value), moment.Reachable →
        (moment.world.noteCall dispatcher site function).visible = moment.world.visible ∧
        Dispatch.callThroughCache run dispatcher site function arguments moment.world =
          Route.enter run dispatcher arguments (moment.world.functionState function).target
            (moment.world.noteCall dispatcher site function) := by
  refine ⟨fun moment call routing allowance other hreachable hdispatcher hother ↦
    call.leavesAlone routing allowance hreachable hdispatcher hother, ?_⟩
  intro moment run dispatcher site function arguments hreachable
  have hvisible := moment.world.visible_noteCall dispatcher site function
  have hstate : (moment.world.noteCall dispatcher site function).functionState function =
      moment.world.functionState function :=
    World.eq_of_visible_eq (fun world ↦ world.functionState function) (fun _ ↦ rfl) hvisible
  refine ⟨hvisible, ?_⟩
  rw [hreachable.coherent.callThroughCache_eq_call, Route.call_eq_enter_target, hstate]

/-- Two registries with a function of the same name, at the same generation, which one call site
remembers both. -/
def sharedSiteEffects : List Effect :=
  [.newRegistry {}, .newDispatcher ⟨0⟩, .newRegistry {}, .newDispatcher ⟨1⟩,
    .register ⟨0⟩ "f" { body := .constant (.integer 1) },
    .register ⟨1⟩ "f" { body := .register "g" (.constant (.integer 2)) none },
    .noteCall ⟨0⟩ "site" ⟨0⟩, .noteCall ⟨1⟩ "site" ⟨1⟩]

/-- The function of the second registry is called through the shared site on the dispatcher of the
first: what it registers goes to the first, and the second is left alone. -/
theorem registries_isolated_shared_site :
    let moment := Moment.start.after sharedSiteEffects
    let call : PreparedCall := ⟨.route (.throughSite "site" ⟨1⟩), ⟨0⟩, [], .result⟩
    ((moment.world.site "site").targets.map fun target ↦
        (target.function, (moment.world.functionState target.function).name, target.generation)) =
      [(⟨0⟩, "f", 0), (⟨1⟩, "f", 0)] ∧
    (call.perform .cached 2 moment.world).world?.map (fun after ↦
        ((after.registry ⟨0⟩).functions.keys, (after.site "site").fastHits)) =
      some (["f", "g"], 1) ∧
    LeavesAlone moment call .cached 2 ⟨1⟩ ∧
    Dispatch.callThroughCache (run .cached 2) ⟨0⟩ "site" ⟨1⟩ [] moment.world =
      Route.enter (run .cached 2) ⟨0⟩ [] (moment.world.functionState ⟨1⟩).target
        (moment.world.noteCall ⟨0⟩ "site" ⟨1⟩) := by
  intro moment call
  have hreachable : moment.Reachable := Moment.leads_after _ _ (by decide)
  refine ⟨by decide +kernel, by decide +kernel, ?_, ?_⟩
  · exact registries_isolated.1 moment call .cached 2 ⟨1⟩ hreachable (by decide) (by decide)
  · exact (registries_isolated.2 moment (run .cached 2) ⟨0⟩ "site" ⟨1⟩ [] hreachable).2

end GuestCore
