import GuestCore.Proofs.Alike.Calls

/-!
# Runs With Interruptions

A run may be interrupted at any of its points by a lookup that nobody asked for.  It is then a
computation that may end in several ways, one for each choice of interruptions.  The run without
interruptions is one of them, and it predicts all others as long as no names are looked up but
loose ones: however they end, they end alike.
-/

namespace GuestCore

variable {loose : RegistryId → String → Bool} {stage later : Stage}

/-! ## Interruptions -/

/-- At one point of a run nothing happens, or a loose name is looked up that nobody asked for, and
created if it is new. -/
inductive World.Interrupted (loose : RegistryId → String → Bool) (world : World) :
    World → Prop where
  | not : Interrupted loose world world
  | lookup {registry : RegistryId} {name : String} (hloose : loose registry name = true)
      (hregistry : world.HasRegistry registry) :
    Interrupted loose world (world.findOrCreate registry name).2

theorem World.Alike.interrupted {left right between : World}
    (hworlds : World.Alike loose stage left right)
    (hinterrupted : right.Interrupted loose between) :
    World.Alike loose stage left between := by
  cases hinterrupted with
  | not => exact hworlds
  | lookup hloose hregistry =>
    refine hworlds.findOrCreate_right ?_ hloose
    rwa [World.HasRegistry, hworlds.size_registries_eq]

/-- A computation that may end in several ways. -/
def Possible (α : Type) : Type :=
  World → Outcome α → Prop

namespace Possible

variable {α β : Type}

/-- The ways in which two computations in a row may end. -/
inductive Sequence (first : Possible α) (next : α → Possible β) (world : World) :
    Outcome β → Prop where
  | returned {value : α} {middle : World} {outcome : Outcome β}
      (hfirst : first world (.returned value middle)) (hnext : next value middle outcome) :
    Sequence first next world outcome
  | raised {fault : Fault} {middle : World} (hfirst : first world (.raised fault middle)) :
    Sequence first next world (.raised fault middle)
  | exhausted (hfirst : first world .exhausted) : Sequence first next world .exhausted

/-- The ways in which a computation with a fallback may end. -/
inductive Fallback (first fallback : Possible α) (world : World) : Outcome α → Prop where
  | returned {value : α} {after : World} (hfirst : first world (.returned value after)) :
    Fallback first fallback world (.returned value after)
  | raised {fault : Fault} {middle : World} {outcome : Outcome α}
      (hfirst : first world (.raised fault middle)) (hfallback : fallback middle outcome) :
    Fallback first fallback world outcome
  | exhausted (hfirst : first world .exhausted) : Fallback first fallback world .exhausted

instance : Monad Possible where
  pure value := fun world outcome ↦ outcome = .returned value world
  bind := Sequence

/-- The computation, with a point before it at which it may be interrupted. -/
def interrupted (loose : RegistryId → String → Bool) (inner : Possible α) : Possible α :=
  fun world outcome ↦ ∃ between, world.Interrupted loose between ∧ inner between outcome

/-- The ways in which a computation may end that may be interrupted after it. -/
inductive Finish (loose : RegistryId → String → Bool) (inner : Possible α) (world : World) :
    Outcome α → Prop where
  | returned {value : α} {middle after : World} (hinner : inner world (.returned value middle))
      (hinterrupted : middle.Interrupted loose after) :
    Finish loose inner world (.returned value after)
  | raised {fault : Fault} {middle after : World} (hinner : inner world (.raised fault middle))
      (hinterrupted : middle.Interrupted loose after) :
    Finish loose inner world (.raised fault after)
  | exhausted (hinner : inner world .exhausted) : Finish loose inner world .exhausted

end Possible

/-- Runs a definition in one of several ways. -/
abbrev PossibleRunner := DispatcherId → Definition → List Value → Possible Value

/-- The runner ends in a possible way wherever it is used. -/
def PossibleRunner.Admits (possible : PossibleRunner) (run : Runner) : Prop :=
  ∀ dispatcher definition arguments world,
    possible dispatcher definition arguments world (run dispatcher definition arguments world)

/-- The ways in which a call may end if what it runs may end in several ways. -/
def Route.possibly (routing : Routing) (possible : PossibleRunner) (dispatcher : DispatcherId)
    (arguments : List Value) (route : Route) : Possible Value :=
  fun world outcome ↦ ∃ run, possible.Admits run ∧
    outcome = route.call routing run dispatcher arguments world

/-- Bodies that may be interrupted before everything they do and before every call. -/
def Body.Interpretation.interrupted (loose : RegistryId → String → Bool) (routing : Routing)
    (possible : PossibleRunner) (dispatcher : DispatcherId) : Interpretation Possible where
  leaf part := .interrupted loose fun world outcome ↦ outcome = part.perform dispatcher world
  orElse := .Fallback
  call route arguments :=
    .interrupted loose (route.possibly routing possible dispatcher arguments)

/-- Runs bodies that may be interrupted at every point, with calls nested at most as deeply as the
allowance. -/
def interruptedRun (loose : RegistryId → String → Bool) (routing : Routing) :
    Nat → PossibleRunner
  | 0 => fun _ _ _ _ outcome ↦ outcome = .exhausted
  | allowance + 1 => fun dispatcher definition arguments ↦
    .Finish loose (definition.body.interpret
      (.interrupted loose routing (interruptedRun loose routing allowance) dispatcher) arguments)

theorem Possible.Finish.uninterrupted {α : Type} {inner : Possible α} {world : World}
    {outcome : Outcome α} (hinner : inner world outcome) :
    Possible.Finish loose inner world outcome := by
  cases outcome with
  | returned value after => exact .returned hinner .not
  | raised fault after => exact .raised hinner .not
  | exhausted => exact .exhausted hinner

/-- A body that is not interrupted ends in a possible way. -/
theorem Body.interrupted_eval {routing : Routing} {possible : PossibleRunner} {run : Runner}
    (hadmits : possible.Admits run) (dispatcher : DispatcherId) (arguments : List Value)
    (body : Body Value) (world : World) :
    body.interpret (.interrupted loose routing possible dispatcher) arguments world
      (body.eval routing run dispatcher arguments world) := by
  have hcorresponds : (Interpretation.running routing run dispatcher).Corresponds
      (.interrupted loose routing possible dispatcher)
      (fun {_} action possible ↦ ∀ world, possible world (action world)) :=
    { pure := fun _ _ ↦ rfl
      bind := fun {_ _ first _ _ _} hfirst hnext world ↦ by
        have hhere := hfirst world
        change Possible.Sequence _ _ _ (Action.bind _ _ world)
        unfold Action.bind
        generalize first world = outcome at hhere
        cases outcome with
        | returned value middle => exact .returned hhere (hnext value middle)
        | raised fault middle => exact .raised hhere
        | exhausted => exact .exhausted hhere
      orElse := fun {first _ _ _} hfirst hfallback world ↦ by
        have hhere := hfirst world
        change Possible.Fallback _ _ _ (Action.orElse _ _ world)
        unfold Action.orElse
        generalize first world = outcome at hhere
        cases outcome with
        | returned value after => exact .returned hhere
        | raised fault middle => exact .raised hhere (hfallback middle)
        | exhausted => exact .exhausted hhere
      leaf := fun _ world ↦ ⟨world, .not, rfl⟩
      call := fun _ _ world ↦ ⟨world, .not, run, hadmits, rfl⟩ }
  rw [eval_eq_interpret]
  exact interpret_related hcorresponds arguments body world

/-- A run without interruptions is among the possible ones. -/
theorem admits_run (loose : RegistryId → String → Bool) (routing : Routing) :
    (allowance : Nat) → (interruptedRun loose routing allowance).Admits (run routing allowance)
  | 0 => fun _ _ _ _ ↦ rfl
  | allowance + 1 => fun dispatcher definition arguments world ↦
    .uninterrupted (Body.interrupted_eval (admits_run loose routing allowance) dispatcher arguments
      definition.body world)

/-! ## Predictions -/

/-- However the right side ends from a world that is alike, it ends as the left side does. -/
def Action.Predicts {α β : Type} (loose : RegistryId → String → Bool) (stage : Stage)
    (values : Stage → α → β → Prop) (left : Action α) (right : Possible β) : Prop :=
  ∀ ⦃later : Stage⦄, stage ≤ later → ∀ ⦃leftWorld rightWorld : World⦄,
    World.Alike loose later leftWorld rightWorld → ∀ ⦃outcome : Outcome β⦄,
      right rightWorld outcome → Outcome.Alike loose later values (left leftWorld) outcome

namespace Action.Predicts

variable {α β γ δ : Type} {values : Stage → α → β → Prop} {others : Stage → γ → δ → Prop}
  {left : Action α} {right : Possible β}

theorem mono (hpredicts : Action.Predicts loose stage values left right) (hlater : stage ≤ later) :
    Action.Predicts loose later values left right :=
  fun _ hmore ↦ hpredicts (hlater.trans hmore)

theorem pure {value : α} {other : β}
    (hvalues : ∀ later, stage ≤ later → values later value other) :
    Action.Predicts loose stage values (Pure.pure value) (Pure.pure other) := by
  rintro later hlater _ _ hworlds _ rfl
  exact .return_now hworlds (hvalues later hlater)

theorem raise (fault : Fault) :
    Action.Predicts loose stage values (Action.raise fault)
      (fun world outcome ↦ outcome = .raised fault world) := by
  rintro later _ _ _ hworlds _ rfl
  exact .raise_now fault hworlds

theorem bind {next : α → Action γ} {following : β → Possible δ}
    (hfirst : Action.Predicts loose stage values left right)
    (hnext : ∀ later, stage ≤ later → ∀ value other, values later value other →
      Action.Predicts loose later others (next value) (following other)) :
    Action.Predicts loose stage others (left >>= next) (right >>= following) := by
  intro later hlater leftWorld rightWorld hworlds outcome houtcome
  change Outcome.Alike loose later others (Action.bind left next leftWorld) outcome
  unfold Action.bind
  cases houtcome with
  | returned hright hfollowing =>
    have hends := hfirst hlater hworlds hright
    generalize left leftWorld = ending at hends
    cases hends with
    | returned hmore hvalues hmiddle =>
      have hrest := hnext _ (hlater.trans hmore) _ _ hvalues le_rfl hmiddle hfollowing
      exact hrest.of_later hmore
  | raised hright =>
    have hends := hfirst hlater hworlds hright
    generalize left leftWorld = ending at hends
    cases hends with
    | raised hmore hmiddle => exact .raised hmore hmiddle
  | exhausted hright =>
    have hends := hfirst hlater hworlds hright
    generalize left leftWorld = ending at hends
    cases hends with
    | exhausted => exact .exhausted

theorem orElse {fallback : Action α} {alternative : Possible β}
    (hfirst : Action.Predicts loose stage values left right)
    (hfallback : Action.Predicts loose stage values fallback alternative) :
    Action.Predicts loose stage values (left.orElse fallback)
      (Possible.Fallback right alternative) := by
  intro later hlater leftWorld rightWorld hworlds outcome houtcome
  unfold Action.orElse
  cases houtcome with
  | returned hright =>
    have hends := hfirst hlater hworlds hright
    generalize left leftWorld = ending at hends
    cases hends with
    | returned hmore hvalues hafter => exact .returned hmore hvalues hafter
  | raised hright halternative =>
    have hends := hfirst hlater hworlds hright
    generalize left leftWorld = ending at hends
    cases hends with
    | raised hmore hmiddle =>
      exact (hfallback (hlater.trans hmore) hmiddle halternative).of_later hmore
  | exhausted hright =>
    have hends := hfirst hlater hworlds hright
    generalize left leftWorld = ending at hends
    cases hends with
    | exhausted => exact .exhausted

/-- Interruptions do not make a difference. -/
theorem interrupted (hpredicts : Action.Predicts loose stage values left right) :
    Action.Predicts loose stage values left (right.interrupted loose) := by
  rintro later hlater leftWorld rightWorld hworlds outcome ⟨between, hinterrupted, hright⟩
  exact hpredicts hlater (hworlds.interrupted hinterrupted) hright

theorem finish (hpredicts : Action.Predicts loose stage values left right) :
    Action.Predicts loose stage values left (right.Finish loose) := by
  intro later hlater leftWorld rightWorld hworlds outcome houtcome
  cases houtcome with
  | returned hinner hinterrupted =>
    have hends := hpredicts hlater hworlds hinner
    generalize left leftWorld = ending at hends
    cases hends with
    | returned hmore hvalues hafter =>
      exact .returned hmore hvalues (hafter.interrupted hinterrupted)
  | raised hinner hinterrupted =>
    have hends := hpredicts hlater hworlds hinner
    generalize left leftWorld = ending at hends
    cases hends with
    | raised hmore hafter => exact .raised hmore (hafter.interrupted hinterrupted)
  | exhausted hinner => exact hpredicts hlater hworlds hinner

end Action.Predicts

/-! ## Bodies -/

namespace Body

variable {left : Interpretation Action} {right : Interpretation Possible}
  {arguments others : List Value}

/-- Every part of a body predicts the parts that are alike. -/
structure Interpretation.Predicts (loose : RegistryId → String → Bool) (stage : Stage)
    (left : Interpretation Action) (right : Interpretation Possible) : Prop where
  orElse : ∀ {later : Stage}, stage ≤ later → ∀ {first fallback : Action Value}
    {second alternative : Possible Value}, first.Predicts loose later Value.Alike second →
      fallback.Predicts loose later Value.Alike alternative →
        (left.orElse first fallback).Predicts loose later Value.Alike
          (right.orElse second alternative)
  leaf : ∀ {later : Stage}, stage ≤ later → ∀ {α : Type} {part other : Leaf α},
    part.Alike later other →
      (left.leaf part).Predicts loose later (fun later ↦ part.Results later) (right.leaf other)
  call : ∀ {later : Stage}, stage ≤ later → ∀ {route other : Route}, route.Alike later other →
    ∀ {arguments others : List Value}, List.Forall₂ (Value.Alike later) arguments others →
      (left.call route arguments).Predicts loose later Value.Alike (right.call other others)

theorem getD_alike (harguments : List.Forall₂ (Value.Alike stage) arguments others) (index : Nat) :
    (arguments.getD index .null).Alike stage (others.getD index .null) := by
  induction harguments generalizing index with
  | nil => exact .null
  | cons hfirst _ ih =>
    cases index with
    | zero => exact hfirst
    | succ index => exact ih index

theorem getLastD_alike {values values' : List Value} {last last' : Value}
    (hvalues : List.Forall₂ (Value.Alike stage) values values') (hlast : last.Alike stage last') :
    (values.getLastD last).Alike stage (values'.getLastD last') := by
  induction hvalues generalizing last last' with
  | nil => exact hlast
  | cons hfirst _ ih =>
    rw [List.getLastD_cons, List.getLastD_cons]
    exact ih hfirst

mutual

/-- If every part of a body is predicted, so is the body. -/
theorem Related.interpret (h : left.Predicts loose stage right)
    (harguments : List.Forall₂ (Value.Alike stage) arguments others) :
    {body other : Body Value} → Body.Alike stage body other →
      (body.interpret left arguments).Predicts loose stage Value.Alike
        (other.interpret right others)
  | constant _, _, .constant hvalue => by
    rw [Body.interpret, Body.interpret]
    exact .pure fun _ hlater ↦ hvalue.mono hlater
  | argument _, _, .argument index => by
    rw [Body.interpret, Body.interpret]
    exact .pure fun _ hlater ↦ (getD_alike harguments index).mono hlater
  | argumentCount, _, .argumentCount => by
    rw [Body.interpret, Body.interpret, harguments.length_eq]
    exact .pure fun _ _ ↦ .integer _
  | depth, _, .depth => by
    rw [Body.interpret, Body.interpret]
    exact h.leaf le_rfl .depth
  | lookup _, _, .lookup name => by
    rw [Body.interpret, Body.interpret]
    apply (h.leaf le_rfl (.findOrCreate name)).bind
    intro later _ function other halike
    exact .pure fun _ hlast ↦ .function (hlast.functions halike)
  | list _, _, .list hitems => by
    rw [Body.interpret, Body.interpret]
    apply (allRelated_interpret h harguments hitems).bind
    intro later hlater values values' hvalues
    exact h.leaf hlater (.newList hvalues)
  | operator _ _ _ _, _, .operator op operation hleft hright => by
    rw [Body.interpret, Body.interpret]
    apply (Related.interpret h harguments hleft).bind
    intro later hlater value value' hvalue
    apply ((Related.interpret h harguments hright).mono hlater).bind
    intro last hlast other other' hother
    exact h.leaf (hlater.trans hlast) (.operator op operation (hvalue.mono hlast) hother)
  | choose _ _ _, _, .choose hcondition hthen helse => by
    rw [Body.interpret, Body.interpret]
    apply (Related.interpret h harguments hcondition).bind
    intro later hlater value value' hvalue
    have hthenBranch := (Related.interpret h harguments hthen).mono hlater
    have helseBranch := (Related.interpret h harguments helse).mono hlater
    cases hvalue with
    | boolean truth =>
      cases truth with
      | true => exact hthenBranch
      | false => exact helseBranch
    | _ => exact helseBranch
  | call _ _, _, .call name hparts => by
    rw [Body.interpret, Body.interpret]
    apply (allRelated_interpret h harguments hparts).bind
    intro later hlater values values' hvalues
    exact h.call hlater (.named name) hvalues
  | execute _ _, _, .execute hcallee hparts => by
    rw [Body.interpret, Body.interpret]
    apply (Related.interpret h harguments hcallee).bind
    intro later hlater value value' hvalue
    apply ((allRelated_interpret h harguments hparts).mono hlater).bind
    intro last hlast values values' hvalues
    have hfunction := (hvalue.mono hlast).function?
    generalize value.function? = function, value'.function? = function' at hfunction
    cases hfunction with
    | none => exact h.leaf (hlater.trans hlast) .notExecutable
    | some halike => exact h.call (hlater.trans hlast) (.executed halike) hvalues
  | callAt _ _ _, _, .callAt site name hparts => by
    rw [Body.interpret, Body.interpret]
    apply (allRelated_interpret h harguments hparts).bind
    intro later hlater values values' hvalues
    apply (h.leaf hlater (.findOrCreate name)).bind
    intro last hlast function other halike
    exact h.call (hlater.trans hlast) (.throughSite site halike)
      (Value.allAlike_mono hlast hvalues)
  | executeAt _ _ _, _, .executeAt site hcallee hparts => by
    rw [Body.interpret, Body.interpret]
    apply (Related.interpret h harguments hcallee).bind
    intro later hlater value value' hvalue
    apply ((allRelated_interpret h harguments hparts).mono hlater).bind
    intro last hlast values values' hvalues
    have hfunction := (hvalue.mono hlast).function?
    generalize value.function? = function, value'.function? = function' at hfunction
    cases hfunction with
    | none => exact h.leaf (hlater.trans hlast) .notExecutable
    | some halike => exact h.call (hlater.trans hlast) (.throughSite site halike) hvalues
  | sequence _, _, .sequence hitems => by
    rw [Body.interpret, Body.interpret]
    apply (allRelated_interpret h harguments hitems).bind
    intro later _ values values' hvalues
    exact .pure fun _ hlast ↦ getLastD_alike (Value.allAlike_mono hlast hvalues) .null
  | register _ _ _, _, .register name location hbody => by
    rw [Body.interpret, Body.interpret]
    have hdefinition : Definition.Alike stage { body := _, location } { body := _, location } :=
      ⟨hbody, rfl⟩
    exact h.leaf le_rfl (.register name hdefinition)
  | registerBatch _ _ _, _, .registerBatch identity names hbodies => by
    rw [Body.interpret, Body.interpret]
    apply (h.leaf le_rfl (.registerBatch (.ofBodies identity names hbodies))).bind
    intro _ _ _ _ _
    exact .pure fun _ _ ↦ .null
  | readMember _ _, _, .readMember member hobject => by
    rw [Body.interpret, Body.interpret]
    apply (Related.interpret h harguments hobject).bind
    intro later hlater value value' hvalue
    exact h.leaf hlater (.readMember hvalue member)
  | writeMember _ _ _, _, .writeMember member hobject hcontent => by
    rw [Body.interpret, Body.interpret]
    apply (Related.interpret h harguments hobject).bind
    intro later hlater value value' hvalue
    apply ((Related.interpret h harguments hcontent).mono hlater).bind
    intro last hlast content content' hcontent
    apply (h.leaf (hlater.trans hlast) (.writeMember (hvalue.mono hlast) member hcontent)).bind
    intro _ _ _ _ _
    exact .pure fun _ hend ↦ hcontent.mono (le_trans ‹_› hend)
  | removeMember _ _, _, .removeMember member hobject => by
    rw [Body.interpret, Body.interpret]
    apply (Related.interpret h harguments hobject).bind
    intro later hlater value value' hvalue
    apply (h.leaf hlater (.removeMember hvalue member)).bind
    intro _ _ _ _ _
    exact .pure fun _ _ ↦ .null
  | fail _, _, .fail member => by
    rw [Body.interpret, Body.interpret]
    exact h.leaf le_rfl (.fail member)
  | attempt _ _, _, .attempt hbody hfallback => by
    rw [Body.interpret, Body.interpret]
    exact h.orElse le_rfl (Related.interpret h harguments hbody)
      (Related.interpret h harguments hfallback)

theorem allRelated_interpret (h : left.Predicts loose stage right)
    (harguments : List.Forall₂ (Value.Alike stage) arguments others) :
    {bodies bodies' : List (Body Value)} → List.Forall₂ (Body.Alike stage) bodies bodies' →
      (interpretAll left arguments bodies).Predicts loose stage
        (fun later ↦ List.Forall₂ (Value.Alike later)) (interpretAll right others bodies')
  | [], _, .nil => by
    rw [interpretAll, interpretAll]
    exact .pure fun _ _ ↦ .nil
  | _ :: _, _, .cons hfirst hrest => by
    rw [interpretAll, interpretAll]
    apply (Related.interpret h harguments hfirst).bind
    intro later hlater value value' hvalue
    apply ((allRelated_interpret h harguments hrest).mono hlater).bind
    intro last hlast values values' hvalues
    exact .pure fun _ hend ↦
      .cons (hvalue.mono (hlast.trans hend)) (Value.allAlike_mono hend hvalues)

end

end Body

/-! ## Runs -/

/-- What the runner does to a definition predicts what may happen to alike ones. -/
def RunnerPredicts (loose : RegistryId → String → Bool) (stage : Stage) (dispatcher : DispatcherId)
    (run : Runner) (possible : PossibleRunner) : Prop :=
  ∀ ⦃later : Stage⦄, stage ≤ later → ∀ ⦃definition definition' : Definition⦄,
    definition.Alike later definition' → ∀ ⦃arguments others : List Value⦄,
      List.Forall₂ (Value.Alike later) arguments others →
        Action.Predicts loose later Value.Alike (run dispatcher definition arguments)
          (possible dispatcher definition' others)

section

variable {dispatcher : DispatcherId} {run : Runner} {possible : PossibleRunner}
  {arguments others : List Value}

theorem RunnerPredicts.call (routing : Routing)
    (hrun : RunnerPredicts loose stage dispatcher run possible) {route other : Route}
    (hroute : route.Alike stage other)
    (harguments : List.Forall₂ (Value.Alike stage) arguments others) :
    Action.Predicts loose stage Value.Alike (route.call routing run dispatcher arguments)
      (other.possibly routing possible dispatcher others) := by
  rintro later hlater leftWorld rightWorld hworlds _ ⟨run', hadmits, rfl⟩
  have halike : RunnersAlike loose stage dispatcher run run' :=
    fun _ hlater _ _ hdefinition _ _ harguments _ hmore _ _ hworlds ↦
      hrun hlater hdefinition harguments hmore hworlds (hadmits ..)
  exact hroute.call routing halike harguments hlater hworlds

theorem RunnerPredicts.interpretation (routing : Routing)
    (hrun : RunnerPredicts loose stage dispatcher run possible)
    (hdispatcher : stage.dispatchers dispatcher) :
    (Body.Interpretation.running routing run dispatcher).Predicts loose stage
      (.interrupted loose routing possible dispatcher) where
  orElse _ _ _ _ _ hfirst hfallback := hfirst.orElse hfallback
  leaf hlater _ _ _ hpart := by
    refine Action.Predicts.interrupted ?_
    rintro last hlast leftWorld rightWorld hworlds _ rfl
    exact hpart.perform (hlater.dispatchers hdispatcher) hlast hworlds
  call {later} hlater _ _ hroute _ _ harguments := by
    have hlaterRun : RunnerPredicts loose later dispatcher run possible :=
      fun _ hmore ↦ hrun (hlater.trans hmore)
    exact (hlaterRun.call routing hroute harguments).interrupted

/-- A body predicts alike bodies, however often they are interrupted. -/
theorem RunnerPredicts.eval (routing : Routing)
    (hrun : RunnerPredicts loose stage dispatcher run possible)
    (hdispatcher : stage.dispatchers dispatcher) {body other : Body Value}
    (hbody : body.Alike stage other)
    (harguments : List.Forall₂ (Value.Alike stage) arguments others) :
    Action.Predicts loose stage Value.Alike (body.eval routing run dispatcher arguments)
      (Possible.Finish loose
        (other.interpret (.interrupted loose routing possible dispatcher) others)) := by
  rw [Body.eval_eq_interpret]
  exact (Body.Related.interpret (hrun.interpretation routing hdispatcher) harguments hbody).finish

end

/-- Runs that are interrupted by extra lookups of loose names end as a run that is not. -/
theorem run_predicts (routing : Routing) {dispatcher : DispatcherId} :
    (allowance : Nat) → ∀ {stage : Stage}, stage.dispatchers dispatcher →
      RunnerPredicts loose stage dispatcher (run routing allowance)
        (interruptedRun loose routing allowance)
  | 0 => by
    rintro _ _ _ _ _ _ _ _ _ _ _ _ _ _ _ rfl
    exact .exhausted
  | allowance + 1 => by
    intro hdispatcher later hlater definition definition' hdefinition _ _ harguments
    have hknown := hlater.dispatchers hdispatcher
    exact (run_predicts routing allowance hknown).eval routing hknown hdefinition.body harguments

/-- The ways in which the execution of a receiver may end. -/
def Receiver.possibly (loose : RegistryId → String → Bool) (routing : Routing)
    (possible : PossibleRunner) (dispatcher : DispatcherId) (arguments : List Value) :
    Receiver → Possible Value
  | native value =>
    match value.function? with
    | some callee =>
      .interrupted loose ((Route.executed callee).possibly routing possible dispatcher arguments)
    | none => fun world outcome ↦ outcome = .raised (.unsupportedMessage "execute") world
  | descriptor _ | functions _ => fun world outcome ↦
    outcome = .raised (.unsupportedMessage "execute") world
  | foreign value =>
    match value.body? with
    | some body =>
      .Finish loose (body.interpret (.interrupted loose routing possible dispatcher) arguments)
    | none => fun world outcome ↦ outcome = .raised (.unsupportedMessage "execute") world
  | view delegate => delegate.possibly loose routing possible dispatcher arguments

namespace Receiver

variable {dispatcher : DispatcherId} {run : Runner} {possible : PossibleRunner}

theorem possibly_execute (routing : Routing) (hadmits : possible.Admits run)
    (arguments : List Value) (receiver : Receiver) (world : World) :
    receiver.possibly loose routing possible dispatcher arguments world
      (receiver.execute routing run dispatcher arguments world) := by
  induction receiver with
  | native value =>
    rw [possibly, execute, Value.execute]
    cases hfunction : value.function? with
    | some callee =>
      refine ⟨world, .not, run, hadmits, ?_⟩
      rw [Route.call, Value.execute]
      rfl
    | none => rfl
  | descriptor | functions => rfl
  | foreign value =>
    rw [possibly, execute]
    cases value.body? with
    | some body => exact .uninterrupted (body.interrupted_eval hadmits dispatcher arguments world)
    | none => rfl
  | view delegate ih => exact ih

theorem Alike.execute (routing : Routing)
    (hrun : RunnerPredicts loose stage dispatcher run possible)
    (hdispatcher : stage.dispatchers dispatcher) {receiver other : Receiver}
    (hreceiver : receiver.Alike stage other) {arguments others : List Value}
    (harguments : List.Forall₂ (Value.Alike stage) arguments others) :
    Action.Predicts loose stage Value.Alike (receiver.execute routing run dispatcher arguments)
      (other.possibly loose routing possible dispatcher others) := by
  induction hreceiver with
  | @native value value' hvalue =>
    have hfunction := hvalue.function?
    rw [Receiver.execute, possibly, Value.execute]
    generalize value.function? = callee, value'.function? = callee' at hfunction
    cases hfunction with
    | none => exact .raise _
    | some halike => exact (hrun.call routing (.executed halike) harguments).interrupted
  | descriptor | functions => exact .raise _
  | @foreign value value' hvalue =>
    have hbody := hvalue.body
    rw [Receiver.execute, possibly]
    generalize value.body? = body, value'.body? = body' at hbody
    cases hbody with
    | none => exact .raise _
    | some hbody => exact hrun.eval routing hdispatcher hbody harguments
  | view _ ih => exact ih

end Receiver

/-! ## Calls of sessions -/

namespace Session

inductive Callable.Alike (stage : Stage) : Callable → Callable → Prop where
  | route {route other : Route} (hroute : route.Alike stage other) :
    Alike stage (.route route) (.route other)
  | receiver {receiver other : Receiver} (hreceiver : receiver.Alike stage other) :
    Alike stage (.receiver receiver) (.receiver other)

namespace PreparedCall

/-- The same call with alike values, on a dispatcher that both sides know. -/
structure Alike (stage : Stage) (call other : PreparedCall) : Prop where
  callable : call.callable.Alike stage other.callable
  arguments : List.Forall₂ (Value.Alike stage) call.arguments other.arguments
  dispatcher_eq : call.dispatcher = other.dispatcher
  reply_eq : call.reply = other.reply
  dispatcher : stage.dispatchers call.dispatcher

/-- The ways in which a call may end that may be interrupted at every point. -/
def possibly (loose : RegistryId → String → Bool) (routing : Routing) (allowance : Nat)
    (call : PreparedCall) : Possible Value :=
  match call.callable with
  | .route route =>
    .interrupted loose (route.possibly routing (interruptedRun loose routing allowance)
      call.dispatcher call.arguments)
  | .receiver receiver =>
    receiver.possibly loose routing (interruptedRun loose routing allowance) call.dispatcher
      call.arguments

theorem possibly_perform (loose : RegistryId → String → Bool) (routing : Routing) (allowance : Nat)
    (call : PreparedCall) (world : World) :
    call.possibly loose routing allowance world (call.perform routing allowance world) := by
  have hadmits := admits_run loose routing allowance
  unfold possibly perform
  cases call.callable with
  | route route => exact ⟨world, .not, _, hadmits, rfl⟩
  | receiver receiver => exact receiver.possibly_execute routing hadmits call.arguments world

/-- A call predicts alike calls, however often they are interrupted. -/
theorem Alike.predicts (routing : Routing) (allowance : Nat) {call other : PreparedCall}
    (hcall : call.Alike stage other) :
    Action.Predicts loose stage Value.Alike (call.perform routing allowance)
      (other.possibly loose routing allowance) := by
  have hrun : RunnerPredicts loose stage call.dispatcher _ _ :=
    run_predicts routing allowance hcall.dispatcher
  have hcallable := hcall.callable
  unfold perform possibly
  rw [← hcall.dispatcher_eq]
  generalize call.callable = callable, other.callable = callable' at hcallable
  cases hcallable with
  | route hroute => exact (hrun.call routing hroute hcall.arguments).interrupted
  | receiver hreceiver => exact hreceiver.execute routing hrun hcall.dispatcher hcall.arguments

theorem Alike.perform (routing : Routing) (allowance : Nat) {call other : PreparedCall}
    (hcall : call.Alike stage other) :
    Action.Alike loose stage Value.Alike (call.perform routing allowance)
      (other.perform routing allowance) :=
  fun _ hlater _ _ hworlds ↦
    hcall.predicts routing allowance hlater hworlds
      (other.possibly_perform loose routing allowance _)

end PreparedCall

end Session

end GuestCore
