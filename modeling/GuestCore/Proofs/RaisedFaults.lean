import GuestCore.Proofs.Refusals

/-!
# The Faults of a Run

A fault that is raised may be caught, and then nothing is left of it.  A raising computation tells
its outcome and all faults that were raised on the way, each where it arose.  Bodies can be
evaluated as raising computations; the outcome is that of evaluation, and the faults of exceeded
depth among those that are told are the refused calls of the run, one by one.
-/

namespace GuestCore

open Session

/-- The limit, if the fault is that of a call beyond it. -/
def Fault.exceeded? (fault : Fault) : Option Nat :=
  match fault.kind with
  | .depthExceeded limit => some limit
  | _ => none

/-- The limit, if the record is that of a refused call. -/
def TraceRecord.exceeded? (record : TraceRecord) : Option Nat :=
  record.refusal?.map Prod.snd

/-- The limit, if a call beyond it is refused. -/
def Event.exceeded? (event : Event) : Option Nat :=
  event.refusal?.map Prod.snd

namespace Outcome

variable {α : Type}

def fault? : Outcome α → Option Fault
  | raised fault _ => some fault
  | returned _ _ | exhausted => none

theorem overflow?_eq (outcome : Outcome α) :
    outcome.overflow? = outcome.fault?.bind Fault.exceeded? := by
  cases outcome <;> rfl

theorem fault?_mapWorld (change : World → World) (outcome : Outcome α) :
    (outcome.mapWorld change).fault? = outcome.fault? := by
  cases outcome <;> rfl

end Outcome

/-! ## Raising computations -/

/-- A computation that tells its outcome and the faults on the way, caught or not. -/
def Raising (α : Type) : Type :=
  World → Outcome α × List Fault

namespace Raising

variable {α β : Type}

def pure (value : α) : Raising α :=
  fun world ↦ (.returned value world, [])

def bind (first : Raising α) (next : α → Raising β) : Raising β := fun world ↦
  match first world with
  | (.returned value after, faults) =>
    let (outcome, more) := next value after
    (outcome, faults ++ more)
  | (.raised fault after, faults) => (.raised fault after, faults)
  | (.exhausted, faults) => (.exhausted, faults)

def orElse (first fallback : Raising α) : Raising α := fun world ↦
  match first world with
  | (.returned value after, faults) => (.returned value after, faults)
  | (.raised _ after, faults) =>
    let (outcome, more) := fallback after
    (outcome, faults ++ more)
  | (.exhausted, faults) => (.exhausted, faults)

instance : Monad Raising where
  pure := Raising.pure
  bind := Raising.bind

/-- An action that raises no fault but the one with which it ends. -/
def performing (action : Action α) : Raising α :=
  fun world ↦ (action world, (action world).fault?.toList)

end Raising

abbrev RaisingRunner := DispatcherId → Definition → List Value → Raising Value

namespace Raising

variable (run : RaisingRunner) (dispatcher : DispatcherId) (arguments : List Value)

/-- Runs a definition as one more active call, or raises the fault of a refused one. -/
def activate (name : String) (definition : Definition) : Raising Value := fun world ↦
  let depth := world.depth dispatcher
  match (world.configOf dispatcher).reachedLimit? depth with
  | some limit =>
    (.raised (.depthExceeded limit) (world.log (.depthExceeded name limit)),
      [.depthExceeded limit])
  | none =>
    let (outcome, faults) :=
      run dispatcher definition arguments (world.setDepth dispatcher (depth + 1))
    (outcome.mapWorld fun after ↦ after.setDepth dispatcher depth, faults)

def call (routing : Routing) (route : Route) : Raising Value := fun world ↦
  let after := Event.replay (route.events routing world dispatcher) world
  match route.target routing world dispatcher with
  | .ok (name, definition) => activate run dispatcher arguments name definition after
  | .error fault => (.raised fault after, [fault])

end Raising

/-- Bodies as raising computations. -/
def Body.Interpretation.raising (routing : Routing) (run : RaisingRunner)
    (dispatcher : DispatcherId) : Body.Interpretation Raising where
  leaf part := .performing (part.perform dispatcher)
  orElse := Raising.orElse
  call route arguments := Raising.call run dispatcher arguments routing route

/-- Runs bodies as raising computations. -/
def raisingRun (routing : Routing) : Nat → RaisingRunner
  | 0 => fun _ _ _ _ ↦ (.exhausted, [])
  | allowance + 1 => fun dispatcher definition arguments ↦
    definition.body.interpret (.raising routing (raisingRun routing allowance) dispatcher)
      arguments

/-- Calls a receiver as a raising computation. -/
def Receiver.raising (routing : Routing) (run : RaisingRunner) (dispatcher : DispatcherId)
    (arguments : List Value) : Receiver → Raising Value
  | native value =>
    match value.function? with
    | some callee => .call run dispatcher arguments routing (.executed callee)
    | none => .performing (.raise (.unsupportedMessage "execute"))
  | descriptor _ | functions _ => .performing (.raise (.unsupportedMessage "execute"))
  | foreign value =>
    match value.body? with
    | some body => body.interpret (.raising routing run dispatcher) arguments
    | none => .performing (.raise (.unsupportedMessage "execute"))
  | view delegate => delegate.raising routing run dispatcher arguments

/-! ## Faults and events -/

namespace Raising

variable {α β : Type}

/-- What a raising computation tells and what a traced one tells are of the same run: the outcomes
are the same, the faults of exceeded depth are the refused calls, and a fault with which the run
ends is told last. -/
structure Matches (told : Outcome α × List Fault) (traced : Outcome α × List Event) : Prop where
  outcome_eq : told.1 = traced.1
  exceeded_eq : told.2.filterMap Fault.exceeded? = traced.2.filterMap Event.exceeded?
  last_eq : ∀ fault, told.1.fault? = some fault → told.2.getLast? = some fault

/-- What was told before stays told. -/
theorem Matches.append {told : Outcome α × List Fault} {traced : Outcome α × List Event}
    (hmatches : Matches told traced) {faults : List Fault} {events : List Event}
    (hbefore : faults.filterMap Fault.exceeded? = events.filterMap Event.exceeded?) :
    Matches (told.1, faults ++ told.2) (traced.1, events ++ traced.2) where
  outcome_eq := hmatches.outcome_eq
  exceeded_eq := by
    rw [List.filterMap_append, List.filterMap_append, hbefore, hmatches.exceeded_eq]
  last_eq fault hfault := by
    rw [List.getLast?_append, hmatches.last_eq fault hfault]
    rfl

def Agrees (raising : Raising α) (traced : Traced α) : Prop :=
  ∀ world, Matches (raising world) (traced world)

namespace Agrees

variable {first fallback : Raising α} {second alternative : Traced α}

theorem pure (value : α) : Agrees (Pure.pure value : Raising α) (Pure.pure value) :=
  fun _ ↦ ⟨rfl, rfl, nofun⟩

theorem raise {fault : Fault} (hkind : fault.exceeded? = none) :
    Agrees (.performing (.raise fault) : Raising α) fun world ↦ (.raised fault world, []) := by
  refine fun world ↦ ⟨rfl, ?_, fun other hother ↦ hother⟩
  simp [performing, Action.raise, Outcome.fault?, hkind]

theorem bind {next : α → Raising β} {following : α → Traced β} (hfirst : first.Agrees second)
    (hnext : ∀ value, (next value).Agrees (following value)) :
    Agrees (first >>= next) (second >>= following) := by
  intro world
  have hmatches := hfirst world
  change Matches (Raising.bind first next world) (Traced.bind second following world)
  unfold Raising.bind Traced.bind
  generalize first world = told at hmatches
  generalize second world = traced at hmatches
  obtain ⟨outcome, faults⟩ := told
  obtain ⟨_, events⟩ := traced
  obtain rfl := hmatches.outcome_eq
  cases outcome with
  | returned value middle => exact (hnext value middle).append hmatches.exceeded_eq
  | raised fault middle => exact ⟨rfl, hmatches.exceeded_eq, hmatches.last_eq⟩
  | exhausted => exact ⟨rfl, hmatches.exceeded_eq, nofun⟩

theorem orElse (hfirst : first.Agrees second) (hfallback : fallback.Agrees alternative) :
    Agrees (first.orElse fallback) (second.orElse alternative) := by
  intro world
  have hmatches := hfirst world
  unfold Raising.orElse Traced.orElse
  generalize first world = told at hmatches
  generalize second world = traced at hmatches
  obtain ⟨outcome, faults⟩ := told
  obtain ⟨_, events⟩ := traced
  obtain rfl := hmatches.outcome_eq
  cases outcome with
  | returned value middle => exact ⟨rfl, hmatches.exceeded_eq, nofun⟩
  | raised fault middle => exact (hfallback middle).append hmatches.exceeded_eq
  | exhausted => exact ⟨rfl, hmatches.exceeded_eq, nofun⟩

end Agrees

end Raising

theorem Event.exceeded?_of_isPlain {effect : Effect} (hplain : effect.isPlain = true) :
    (Event.effect effect).exceeded? = none := by
  cases effect with
  | refuseCall => cases hplain
  | _ => rfl

/-- What bodies do by themselves raises no fault of exceeded depth, and refuses no call. -/
theorem Raising.leaf_agrees {α : Type} (dispatcher : DispatcherId) (part : Body.Leaf α) :
    Agrees (.performing (part.perform dispatcher))
      (.performing (part.perform dispatcher) fun world ↦ part.effects dispatcher world) := by
  intro world
  refine ⟨rfl, ?_, fun fault hfault ↦ ?_⟩
  · have hplain := part.isPlain_effects dispatcher world
    have hevents : ((part.effects dispatcher world).map Event.effect).filterMap
        Event.exceeded? = [] := by
      rw [List.filterMap_eq_nil_iff, List.forall_mem_map]
      exact fun effect heffect ↦ Event.exceeded?_of_isPlain (hplain effect heffect)
    have hoverflow := part.overflow?_perform dispatcher world
    rw [Outcome.overflow?_eq] at hoverflow
    simp only [performing, Traced.performing, hevents]
    cases hfault : (part.perform dispatcher world).fault? with
    | none => rfl
    | some fault =>
      rw [hfault] at hoverflow
      exact List.filterMap_cons_none hoverflow
  · simp only [performing] at hfault ⊢
    rw [hfault]
    rfl

namespace Raising

section Runs

variable {raising : RaisingRunner} {traced : TracedRunner} {dispatcher : DispatcherId}

theorem activate_agrees
    (hrun : ∀ definition arguments,
      (raising dispatcher definition arguments).Agrees (traced dispatcher definition arguments))
    (name : String) (definition : Definition) (arguments : List Value) :
    (activate raising dispatcher arguments name definition).Agrees
      (Traced.activate traced dispatcher arguments name definition) := by
  intro world
  unfold activate Traced.activate
  dsimp only
  cases (world.configOf dispatcher).reachedLimit? (world.depth dispatcher) with
  | some limit => exact ⟨rfl, rfl, fun fault hfault ↦ hfault⟩
  | none =>
    have hmatches := hrun definition arguments
      (world.setDepth dispatcher (world.depth dispatcher + 1))
    dsimp only [Event.apply]
    generalize raising dispatcher definition arguments _ = told at hmatches
    generalize traced dispatcher definition arguments _ = run at hmatches
    have hleaving (frame : Frame) : (run.1.leaving frame).filterMap Event.exceeded? = [] := by
      cases run.1 <;> rfl
    refine ⟨congrArg (Outcome.mapWorld _) hmatches.outcome_eq, ?_, ?_⟩
    · rw [List.filterMap_cons_none rfl, List.filterMap_append, hleaving, List.append_nil]
      exact hmatches.exceeded_eq
    · intro fault hfault
      rw [Outcome.fault?_mapWorld] at hfault
      exact hmatches.last_eq fault hfault

theorem exceeded?_route_events (routing : Routing) (route : Route) (world : World)
    (dispatcher : DispatcherId) :
    (route.events routing world dispatcher).filterMap Event.exceeded? = [] := by
  cases route with
  | direct | executed | named => rfl
  | throughSite site callee => cases routing <;> rfl

theorem call_agrees
    (hrun : ∀ definition arguments,
      (raising dispatcher definition arguments).Agrees (traced dispatcher definition arguments))
    (arguments : List Value) (routing : Routing) (route : Route) :
    (call raising dispatcher arguments routing route).Agrees
      (Traced.call traced dispatcher arguments routing route) := by
  intro world
  have hquiet : ([] : List Fault).filterMap Fault.exceeded? =
      (route.events routing world dispatcher).filterMap Event.exceeded? :=
    (exceeded?_route_events routing route world dispatcher).symm
  unfold call Traced.call
  cases htarget : route.target routing world dispatcher with
  | ok found =>
    have hmatches := activate_agrees hrun found.1 found.2 arguments
      (Event.replay (route.events routing world dispatcher) world)
    exact hmatches.append hquiet
  | error fault =>
    obtain ⟨name, rfl⟩ := Route.target_error htarget
    refine ⟨rfl, ?_, fun other hother ↦ hother⟩
    change [] = (route.events routing world dispatcher ++ []).filterMap Event.exceeded?
    rw [List.append_nil, ← hquiet]
    rfl

theorem interpret_agrees
    (hrun : ∀ definition arguments,
      (raising dispatcher definition arguments).Agrees (traced dispatcher definition arguments))
    (routing : Routing) (arguments : List Value) (body : Body Value) :
    Agrees (body.interpret (.raising routing raising dispatcher) arguments)
      (body.interpret (.tracing routing traced dispatcher) arguments) := by
  have hparts : Body.Interpretation.Corresponds (.raising routing raising dispatcher)
      (.tracing routing traced dispatcher) Agrees :=
    { pure := .pure
      bind := .bind
      orElse := .orElse
      leaf := leaf_agrees dispatcher
      call := fun route arguments ↦ call_agrees hrun arguments routing route }
  exact Body.interpret_related hparts arguments body

end Runs

theorem raisingRun_agrees (routing : Routing) (allowance : Nat) (dispatcher : DispatcherId)
    (definition : Definition) (arguments : List Value) :
    (raisingRun routing allowance dispatcher definition arguments).Agrees
      (tracedRun routing allowance dispatcher definition arguments) := by
  induction allowance generalizing definition arguments with
  | zero => exact fun _ ↦ ⟨rfl, rfl, nofun⟩
  | succ allowance ih => exact interpret_agrees ih routing arguments definition.body

theorem receiver_agrees (routing : Routing) (allowance : Nat) (dispatcher : DispatcherId)
    (arguments : List Value) (receiver : Receiver) :
    (receiver.raising routing (raisingRun routing allowance) dispatcher arguments).Agrees
      (receiver.traced routing (tracedRun routing allowance) dispatcher arguments) := by
  have hrun := raisingRun_agrees routing allowance dispatcher
  induction receiver with
  | native value =>
    unfold Receiver.raising Receiver.traced
    cases value.function? with
    | some callee => exact call_agrees hrun arguments routing (.executed callee)
    | none => exact .raise rfl
  | descriptor | functions => exact .raise rfl
  | foreign value =>
    unfold Receiver.raising Receiver.traced
    cases value.body? with
    | some body => exact interpret_agrees hrun routing arguments body
    | none => exact .raise rfl
  | view delegate ih => exact ih

end Raising

/-! ## The faults of a session -/

namespace Session

/-- The call as a raising computation. -/
def PreparedCall.raising (call : PreparedCall) (routing : Routing) (allowance : Nat) :
    Raising Value :=
  match call.callable with
  | .route route =>
    .call (raisingRun routing allowance) call.dispatcher call.arguments routing route
  | .receiver receiver =>
    receiver.raising routing (raisingRun routing allowance) call.dispatcher call.arguments

theorem PreparedCall.raising_agrees (call : PreparedCall) (routing : Routing) (allowance : Nat) :
    (call.raising routing allowance).Agrees (call.traced routing allowance) := by
  unfold raising traced
  cases call.callable with
  | route route =>
    have hrun := Raising.raisingRun_agrees routing allowance call.dispatcher
    exact Raising.call_agrees hrun call.arguments routing route
  | receiver receiver => exact Raising.receiver_agrees routing allowance _ _ receiver

/-- The faults that are told of a call are those of the call as it is performed: it ends in the same
way, with the last of them if with any, and the trace records those of exceeded depth. -/
structure PreparedCall.TellsFaults (call : PreparedCall) (routing : Routing) (allowance : Nat)
    (world : World) : Prop where
  outcome_eq : (call.raising routing allowance world).1 = call.perform routing allowance world
  last_eq : ∀ fault, (call.perform routing allowance world).fault? = some fault →
    (call.raising routing allowance world).2.getLast? = some fault
  records_eq : ∀ after, (call.perform routing allowance world).world? = some after →
    ∃ records, after.trace = world.trace ++ records ∧
      records.filterMap TraceRecord.exceeded? =
        (call.raising routing allowance world).2.filterMap Fault.exceeded?

theorem PreparedCall.tellsFaults (call : PreparedCall) (routing : Routing) (allowance : Nat)
    (world : World) : call.TellsFaults routing allowance world := by
  have hmatches := call.raising_agrees routing allowance world
  obtain ⟨hdescribes, hreplay⟩ := call.traced_describes routing allowance world
  have houtcome := hmatches.outcome_eq.trans hdescribes
  refine ⟨houtcome, houtcome ▸ hmatches.last_eq, fun after hends ↦ ?_⟩
  obtain ⟨records, hhistory, hrefusals⟩ :=
    World.Refused.replay (call.traced routing allowance world).2 world
  rw [hreplay after hends] at hhistory
  refine ⟨records.reverse, ?_, ?_⟩
  · rw [World.trace, hhistory, List.reverse_append, World.trace]
  · rw [hmatches.exceeded_eq]
    unfold TraceRecord.exceeded? Event.exceeded?
    rw [← List.map_filterMap, ← List.map_filterMap, hrefusals]

/-- The faults raised by the call that a step makes. -/
def stepFaults (routing : Routing) (allowance : Nat) (step : Step) (state : State) : List Fault :=
  match prepareCall? step with
  | none => []
  | some prepare =>
    match prepare.run state with
    | .ok (call, prepared) => (call.raising routing allowance prepared.world).2
    | .error _ => []

/-- The faults raised by the calls that a session makes, one after the other. -/
def callFaults (routing : Routing) (allowance : Nat) : List Step → State → List Fault
  | [], _ => []
  | step :: rest, state =>
    stepFaults routing allowance step state ++
      match (runStep routing allowance step).run state with
      | .ok (_, after) => callFaults routing allowance rest after
      | .error _ => []

variable {routing : Routing} {allowance : Nat}

theorem exceeded?_stepFaults (step : Step) (state : State) :
    (stepFaults routing allowance step state).filterMap Fault.exceeded? =
      (stepEvents routing allowance step state).filterMap Event.exceeded? := by
  unfold stepFaults stepEvents
  cases prepareCall? step with
  | none => rfl
  | some prepare =>
    dsimp only
    cases prepare.run state with
    | error malformed => rfl
    | ok result => exact (result.1.raising_agrees routing allowance result.2.world).exceeded_eq

/-- The faults of exceeded depth that a session raises are the calls that it refuses. -/
theorem exceeded?_callFaults (steps : List Step) (state : State) :
    (callFaults routing allowance steps state).filterMap Fault.exceeded? =
      (callEvents routing allowance steps state).filterMap Event.exceeded? := by
  induction steps generalizing state with
  | nil => rfl
  | cons step rest ih =>
    rw [callFaults, callEvents, List.filterMap_append, List.filterMap_append, exceeded?_stepFaults]
    cases (runStep routing allowance step).run state with
    | error malformed => rfl
    | ok result => rw [ih]

end Session

end GuestCore
