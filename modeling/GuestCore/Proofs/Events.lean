import GuestCore.Proofs.CallDepth

/-!
# The Events of a Run

Whatever a run does to the world it does in events: effects, and calls that begin and end.  A
traced computation tells its events along with its outcome.  Bodies can be evaluated as traced
computations; the outcome is that of evaluation, the world at the end is found by replaying the
events, and each event is a step from one moment of the run to the next.
-/

namespace GuestCore

inductive Event where
  | effect (effect : Effect)
  /-- A call begins; the frame holds the depth that it finds. -/
  | enter (frame : Frame)
  | leave (frame : Frame)

namespace Event

def apply : Event → World → World
  | effect change, world => change.apply world
  | enter frame, world => world.setDepth frame.dispatcher (frame.depth + 1)
  | leave frame, world => world.setDepth frame.dispatcher frame.depth

/-- The world after some events in a row. -/
def replay (events : List Event) (world : World) : World :=
  events.foldl (fun world event ↦ event.apply world) world

@[simp]
theorem replay_nil (world : World) : replay [] world = world := rfl

@[simp]
theorem replay_cons (event : Event) (events : List Event) (world : World) :
    replay (event :: events) world = replay events (event.apply world) := rfl

@[simp]
theorem replay_append (first second : List Event) (world : World) :
    replay (first ++ second) world = replay second (replay first world) :=
  List.foldl_append

end Event

/-! ## What bodies do by themselves -/

namespace Body.Leaf

variable {α : Type}

/-- The effect of a part of a body, if it has one. -/
def effects (dispatcher : DispatcherId) (world : World) : Leaf α → List Effect
  | depth | readMember _ _ | fail _ | notExecutable => []
  | newList _ => [.freshIdentity]
  | operator op operation left right =>
    match Operator.apply world op operation (.native left) (.native right) with
    | .ok (.text _) => [.freshIdentity]
    | _ => []
  | findOrCreate name => [.findOrCreate (world.dispatcher dispatcher).registry name]
  | register name definition =>
    [.register (world.dispatcher dispatcher).registry name definition]
  | registerBatch batch => world.batchEffects (world.dispatcher dispatcher).registry batch
  | writeMember value member content =>
    (value.object?.map fun object ↦ .writeMember object member content).toList
  | removeMember value member =>
    (value.object?.bind fun object ↦
      ((world.members object).remove member).toOption.map fun removed ↦
        .setMembers object removed.2).toList

/-- A part of a body ends in the world that its effect leaves behind. -/
theorem world?_perform (dispatcher : DispatcherId) (world : World) (part : Leaf α) :
    (part.perform dispatcher world).world? =
      some (Event.replay ((part.effects dispatcher world).map .effect) world) := by
  cases part with
  | depth | newList | findOrCreate | register | fail | notExecutable => rfl
  | operator op operation left right =>
    simp only [perform, Operator.run, effects]
    cases Operator.apply world op operation (.native left) (.native right) with
    | error fault => rfl
    | ok scalar => cases scalar <;> rfl
  | readMember value member =>
    simp only [perform]
    cases value.readMember world member <;> rfl
  | registerBatch batch =>
    rw [effects, Event.replay, List.foldl_map]
    exact congrArg some (world.applyAll_batchEffects _ batch).symm
  | writeMember value member content =>
    simp only [perform, Value.writeMember, effects]
    cases value.object? <;> rfl
  | removeMember value member =>
    simp only [perform, Value.removeMember, effects]
    cases value.object? with
    | none => rfl
    | some object =>
      dsimp only [Option.bind_some]
      cases (world.members object).remove member <;> rfl

/-- The requests of a part of a body reach the registry of its dispatcher. -/
theorem allAllowed_effects {dispatcher : DispatcherId} {world : World}
    (hregistry : world.HasRegistry (world.dispatcher dispatcher).registry) (part : Leaf α) :
    Moment.AllAllowed world (part.effects dispatcher world) := by
  cases part with
  | depth | readMember | fail | notExecutable => trivial
  | newList => exact ⟨trivial, trivial⟩
  | findOrCreate | register => exact ⟨hregistry, trivial⟩
  | registerBatch batch => exact World.allAllowed_batchEffects hregistry batch
  | operator op operation left right =>
    simp only [effects]
    split
    · exact ⟨trivial, trivial⟩
    · trivial
  | writeMember value member content =>
    simp only [effects]
    cases value.object? with
    | none => trivial
    | some object => exact ⟨trivial, trivial⟩
  | removeMember value member =>
    simp only [effects]
    cases value.object? with
    | none => trivial
    | some object =>
      dsimp only [Option.bind_some]
      cases (world.members object).remove member with
      | ok removed => exact ⟨trivial, trivial⟩
      | error => trivial

theorem effects_contents (dispatcher : DispatcherId) (part : Leaf α) (world : World) :
    part.effects dispatcher world.contents = part.effects dispatcher world := by
  cases part with
  | operator => simp [effects]
  | registerBatch => simp [effects, World.batchEffects]
  | _ => rfl

theorem isPlain_effects (dispatcher : DispatcherId) (world : World) (part : Leaf α) :
    ∀ effect ∈ part.effects dispatcher world, effect.isPlain = true := by
  intro effect heffect
  cases part with
  | depth | readMember | fail | notExecutable => cases heffect
  | newList | findOrCreate | register =>
    obtain rfl := List.mem_singleton.mp heffect
    rfl
  | operator op operation left right =>
    simp only [effects] at heffect
    split at heffect
    · obtain rfl := List.mem_singleton.mp heffect
      rfl
    · cases heffect
  | writeMember value member content =>
    obtain ⟨object, -, rfl⟩ := Option.map_eq_some_iff.mp (Option.mem_toList.mp heffect)
    rfl
  | registerBatch batch =>
    rcases World.mem_batchEffects heffect with rfl | ⟨entry, -, rfl⟩ <;> rfl
  | removeMember value member =>
    obtain ⟨object, -, hremoved⟩ := Option.bind_eq_some_iff.mp (Option.mem_toList.mp heffect)
    obtain ⟨removed, -, rfl⟩ := Option.map_eq_some_iff.mp hremoved
    rfl

end Body.Leaf

/-! ## Calls -/

/-- What the function is bound to, under its name. -/
def FunctionState.target (state : FunctionState) : Except Fault (String × Definition) :=
  match state.definition with
  | some definition => .ok (state.name, definition)
  | none => .error (.undefinedFunction state.name)

namespace Route

/-- What is to be run, or why nothing is; a call site answers from what it remembers. -/
def target (routing : Routing) (world : World) (dispatcher : DispatcherId) :
    Route → Except Fault (String × Definition)
  | direct callee | executed callee => (world.functionState callee).target
  | named name =>
    match world.functionNamed? (world.dispatcher dispatcher).registry name with
    | some callee => (world.functionState callee).target
    | none => .error (.undefinedFunction name)
  | throughSite site callee =>
    let state := world.functionState callee
    match routing, (world.site site).consult callee state.published with
    | .cached, .current definition => .ok (state.name, definition)
    | .cached, .stale _ | .cached, .unknown | .generic, _ => state.target

/-- What happens before the call itself. -/
def events (routing : Routing) (world : World) (dispatcher : DispatcherId) (route : Route) :
    List Event :=
  (route.effects routing world dispatcher).map .effect

variable (routing : Routing) (run : Runner) (dispatcher : DispatcherId) (arguments : List Value)
  (world : World)

/-- Runs what was found, or fails. -/
def enter : Except Fault (String × Definition) → Action Value
  | .ok (name, definition) => Dispatch.activate run dispatcher name definition arguments
  | .error fault => .raise fault

theorem call_eq_enter_target (callee : FunctionId) :
    Dispatch.call run dispatcher callee arguments world =
      enter run dispatcher arguments (world.functionState callee).target world := by
  unfold Dispatch.call FunctionState.target
  dsimp only
  cases (world.functionState callee).definition <;> rfl

/-- Every way of calling finds out what to run, and then runs it as one more active call. -/
theorem call_eq_enter (route : Route) :
    route.call routing run dispatcher arguments world =
      enter run dispatcher arguments (route.target routing world dispatcher)
        (Event.replay (route.events routing world dispatcher) world) := by
  cases route with
  | direct callee | executed callee =>
    exact call_eq_enter_target run dispatcher arguments world callee
  | named name =>
    change Dispatch.callNamed run dispatcher name arguments world = _
    unfold Dispatch.callNamed World.find
    cases hname : world.functionNamed? (world.dispatcher dispatcher).registry name with
    | some callee =>
      simp only [target, hname]
      exact call_eq_enter_target run dispatcher arguments _ callee
    | none =>
      simp only [target, hname]
      rfl
  | throughSite site callee =>
    cases routing with
    | generic => exact call_eq_enter_target run dispatcher arguments world callee
    | cached =>
      have hslow (before : World) :
          Dispatch.callSlowly run dispatcher site callee arguments before =
            enter run dispatcher arguments (before.functionState callee).target
              (before.noteSlowCall dispatcher site callee) := by
        have hstate : (before.noteSlowCall dispatcher site callee).functionState callee =
            before.functionState callee :=
          World.eq_of_visible_eq (fun world ↦ world.functionState callee) (fun _ ↦ rfl)
            (before.visible_noteSlowCall dispatcher site callee)
        rw [World.callSlowly_eq_call, call_eq_enter_target, hstate]
      change Dispatch.callThroughCache run dispatcher site callee arguments world =
        enter run dispatcher arguments _ (world.noteCall dispatcher site callee)
      unfold Dispatch.callThroughCache World.noteCall
      cases hrecall : (world.site site).consult callee (world.functionState callee).published with
      | current definition =>
        simp only [target, hrecall]
        rfl
      | stale cached =>
        simp only [target, hrecall]
        exact hslow _
      | unknown =>
        simp only [target, hrecall]
        exact hslow _

end Route

/-! ## Traced computations -/

/-- A computation that tells its outcome and the events on the way. -/
def Traced (α : Type) : Type :=
  World → Outcome α × List Event

namespace Traced

variable {α β : Type}

def pure (value : α) : Traced α :=
  fun world ↦ (.returned value world, [])

def bind (first : Traced α) (next : α → Traced β) : Traced β := fun world ↦
  match first world with
  | (.returned value after, events) =>
    let (outcome, more) := next value after
    (outcome, events ++ more)
  | (.raised fault after, events) => (.raised fault after, events)
  | (.exhausted, events) => (.exhausted, events)

def orElse (first fallback : Traced α) : Traced α := fun world ↦
  match first world with
  | (.returned value after, events) => (.returned value after, events)
  | (.raised _ after, events) =>
    let (outcome, more) := fallback after
    (outcome, events ++ more)
  | (.exhausted, events) => (.exhausted, events)

instance : Monad Traced where
  pure := Traced.pure
  bind := Traced.bind

/-- An action with the effects that it is known to have. -/
def performing (action : Action α) (effects : World → List Effect) : Traced α :=
  fun world ↦ (action world, (effects world).map .effect)

end Traced

/-- The outcome with its world changed, however it ends. -/
def Outcome.mapWorld {α : Type} (change : World → World) : Outcome α → Outcome α
  | returned value world => .returned value (change world)
  | raised fault world => .raised fault (change world)
  | exhausted => .exhausted

theorem Action.restoring_eq {α : Type} (action : Action α) (restore : World → World)
    (world : World) : action.restoring restore world = (action world).mapWorld restore := by
  unfold Action.restoring
  cases action world <;> rfl

/-- The event at the end of a call, if it does end. -/
def Outcome.leaving {α : Type} (frame : Frame) : Outcome α → List Event
  | returned _ _ | raised _ _ => [.leave frame]
  | exhausted => []

abbrev TracedRunner := DispatcherId → Definition → List Value → Traced Value

namespace Traced

variable (run : TracedRunner) (dispatcher : DispatcherId) (arguments : List Value)

/-- Runs a definition as one more active call. -/
def activate (name : String) (definition : Definition) : Traced Value := fun world ↦
  let frame : Frame := ⟨dispatcher, world.depth dispatcher⟩
  match (world.configOf dispatcher).reachedLimit? frame.depth with
  | some limit =>
    (.raised (.depthExceeded limit) (world.log (.depthExceeded name limit)),
      [.effect (.refuseCall name limit)])
  | none =>
    let (outcome, events) :=
      run dispatcher definition arguments ((Event.enter frame).apply world)
    (outcome.mapWorld (Event.leave frame).apply,
      .enter frame :: (events ++ outcome.leaving frame))

/-- Runs what was found, or fails. -/
def enter : Except Fault (String × Definition) → Traced Value
  | .ok (name, definition) => activate run dispatcher arguments name definition
  | .error fault => fun world ↦ (.raised fault world, [])

def call (routing : Routing) (route : Route) : Traced Value := fun world ↦
  let before := route.events routing world dispatcher
  let (outcome, events) :=
    enter run dispatcher arguments (route.target routing world dispatcher)
      (Event.replay before world)
  (outcome, before ++ events)

end Traced

/-- Bodies as traced computations. -/
def Body.Interpretation.tracing (routing : Routing) (run : TracedRunner)
    (dispatcher : DispatcherId) : Body.Interpretation Traced where
  leaf part := .performing (part.perform dispatcher) fun world ↦ part.effects dispatcher world
  orElse := Traced.orElse
  call route arguments := Traced.call run dispatcher arguments routing route

/-- Runs bodies as traced computations. -/
def tracedRun (routing : Routing) : Nat → TracedRunner
  | 0 => fun _ _ _ _ ↦ (.exhausted, [])
  | allowance + 1 => fun dispatcher definition arguments ↦
    definition.body.interpret (.tracing routing (tracedRun routing allowance) dispatcher) arguments

/-- Calls a receiver as a traced computation. -/
def Receiver.traced (routing : Routing) (run : TracedRunner) (dispatcher : DispatcherId)
    (arguments : List Value) : Receiver → Traced Value
  | native value =>
    match value.function? with
    | some callee => .call run dispatcher arguments routing (.executed callee)
    | none => fun world ↦ (.raised (.unsupportedMessage "execute") world, [])
  | descriptor _ | functions _ => fun world ↦ (.raised (.unsupportedMessage "execute") world, [])
  | foreign value =>
    match value.body? with
    | some body => body.interpret (.tracing routing run dispatcher) arguments
    | none => fun world ↦ (.raised (.unsupportedMessage "execute") world, [])
  | view delegate => delegate.traced routing run dispatcher arguments

namespace Traced

/-- What holds of the parts of bodies, and of what is put together from them. -/
structure PartsClosed (dispatcher : DispatcherId) (motive : ∀ {α : Type}, Traced α → Prop) :
    Prop where
  pure : ∀ {α : Type} (value : α), motive (Pure.pure value)
  bind : ∀ {α β : Type} {first : Traced α} {next : α → Traced β},
    motive first → (∀ value, motive (next value)) → motive (first >>= next)
  orElse : ∀ {first fallback : Traced Value},
    motive first → motive fallback → motive (first.orElse fallback)
  leaf : ∀ {α : Type} (part : Body.Leaf α),
    motive (.performing (part.perform dispatcher) fun world ↦ part.effects dispatcher world)

/-- Moreover it holds of calls, if it holds of what they run. -/
structure Closed (routing : Routing) (dispatcher : DispatcherId)
    (motive : ∀ {α : Type}, Traced α → Prop) : Prop extends PartsClosed dispatcher motive where
  call : ∀ {run : TracedRunner},
    (∀ definition arguments, motive (run dispatcher definition arguments)) →
      ∀ (arguments : List Value) (route : Route),
        motive (.call run dispatcher arguments routing route)
  exhausted : motive (fun _ ↦ (.exhausted, []) : Traced Value)

section Closed

variable {routing : Routing} {dispatcher : DispatcherId}
  {motive : ∀ {α : Type}, Traced α → Prop} {run : TracedRunner}

theorem PartsClosed.interpret (hparts : PartsClosed dispatcher motive)
    (hcalls : ∀ arguments route, motive (.call run dispatcher arguments routing route))
    (arguments : List Value) (body : Body Value) :
    motive (body.interpret (.tracing routing run dispatcher) arguments) := by
  have hcorresponds : Body.Interpretation.Corresponds (.tracing routing run dispatcher)
      (.tracing routing run dispatcher) fun left _ ↦ motive left :=
    { pure := hparts.pure
      bind := hparts.bind
      orElse := hparts.orElse
      leaf := hparts.leaf
      call := fun route arguments ↦ hcalls arguments route }
  exact Body.interpret_related hcorresponds arguments body

theorem PartsClosed.receiver (hparts : PartsClosed dispatcher motive)
    (hcalls : ∀ arguments route, motive (.call run dispatcher arguments routing route))
    (arguments : List Value) (receiver : Receiver) :
    motive (receiver.traced routing run dispatcher arguments) := by
  have hraise : motive (fun world ↦ (.raised (.unsupportedMessage "execute") world, [])) :=
    hparts.leaf .notExecutable
  induction receiver with
  | native value =>
    unfold Receiver.traced
    cases value.function? with
    | some callee => exact hcalls arguments (.executed callee)
    | none => exact hraise
  | descriptor | functions => exact hraise
  | foreign value =>
    unfold Receiver.traced
    cases value.body? with
    | some body => exact hparts.interpret hcalls arguments body
    | none => exact hraise
  | view delegate ih => exact ih

theorem Closed.tracedRun (hclosed : Closed routing dispatcher motive) (allowance : Nat)
    (definition : Definition) (arguments : List Value) :
    motive (tracedRun routing allowance dispatcher definition arguments) := by
  induction allowance generalizing definition arguments with
  | zero => exact hclosed.exhausted
  | succ allowance ih => exact hclosed.interpret (hclosed.call ih) arguments definition.body

end Closed

end Traced

/-! ## Tracing does not change what happens -/

namespace Traced

variable {α β : Type}

/-- The computation tells the outcome of the action, and events that lead to its world. -/
def Describes (traced : Traced α) (action : Action α) : Prop :=
  ∀ world, (traced world).1 = action world ∧
    ∀ after, (action world).world? = some after → Event.replay (traced world).2 world = after

namespace Describes

variable {first fallback : Traced α} {action alternative : Action α}

theorem pure (value : α) : Describes (Pure.pure value : Traced α) (Pure.pure value) :=
  fun _ ↦ ⟨rfl, fun _ hafter ↦ Option.some.inj hafter⟩

theorem raise (fault : Fault) :
    Describes (fun world ↦ (.raised fault world, []) : Traced α) (.raise fault) :=
  fun _ ↦ ⟨rfl, fun _ hafter ↦ Option.some.inj hafter⟩

theorem bind {next : α → Traced β} {following : α → Action β} (hfirst : first.Describes action)
    (hnext : ∀ value, (next value).Describes (following value)) :
    Describes (first >>= next) (action >>= following) := by
  intro world
  obtain ⟨houtcome, hreplay⟩ := hfirst world
  change (Traced.bind first next world).1 = Action.bind action following world ∧
    ∀ after, (Action.bind action following world).world? = some after →
      Event.replay (Traced.bind first next world).2 world = after
  unfold Traced.bind Action.bind
  rw [← houtcome] at hreplay ⊢
  generalize first world = result at hreplay
  obtain ⟨outcome, events⟩ := result
  cases outcome with
  | returned value middle =>
    have hmiddle := hreplay middle rfl
    obtain ⟨hrest, hafter⟩ := hnext value middle
    refine ⟨hrest, fun after hend ↦ ?_⟩
    dsimp only at hmiddle ⊢
    rw [Event.replay_append, hmiddle]
    exact hafter after hend
  | raised fault middle => exact ⟨rfl, hreplay⟩
  | exhausted => exact ⟨rfl, nofun⟩

theorem orElse (hfirst : first.Describes action) (hfallback : fallback.Describes alternative) :
    Describes (first.orElse fallback) (action.orElse alternative) := by
  intro world
  obtain ⟨houtcome, hreplay⟩ := hfirst world
  unfold Traced.orElse Action.orElse
  rw [← houtcome] at hreplay ⊢
  generalize first world = result at hreplay
  obtain ⟨outcome, events⟩ := result
  cases outcome with
  | returned value middle => exact ⟨rfl, hreplay⟩
  | raised fault middle =>
    have hmiddle := hreplay middle rfl
    obtain ⟨hrest, hafter⟩ := hfallback middle
    refine ⟨hrest, fun after hend ↦ ?_⟩
    dsimp only at hmiddle ⊢
    rw [Event.replay_append, hmiddle]
    exact hafter after hend
  | exhausted => exact ⟨rfl, nofun⟩

theorem performing {effects : World → List Effect}
    (heffects : ∀ world, (action world).world? =
      some (Event.replay ((effects world).map .effect) world)) :
    Describes (.performing action effects) action := by
  intro world
  refine ⟨rfl, fun after hafter ↦ ?_⟩
  rw [heffects] at hafter
  exact Option.some.inj hafter

end Describes

section Runs

variable {traced : TracedRunner} {run : Runner} {dispatcher : DispatcherId}

theorem activate_describes
    (hrun : ∀ definition arguments,
      (traced dispatcher definition arguments).Describes (run dispatcher definition arguments))
    (name : String) (definition : Definition) (arguments : List Value) :
    (activate traced dispatcher arguments name definition).Describes
      (Dispatch.activate run dispatcher name definition arguments) := by
  intro world
  unfold activate Dispatch.activate
  dsimp only
  cases (world.configOf dispatcher).reachedLimit? (world.depth dispatcher) with
  | some limit => exact ⟨rfl, fun _ hafter ↦ Option.some.inj hafter⟩
  | none =>
    obtain ⟨houtcome, hreplay⟩ := hrun definition arguments
      (world.setDepth dispatcher (world.depth dispatcher + 1))
    rw [Action.restoring_eq, ← houtcome]
    rw [← houtcome] at hreplay
    dsimp only [Event.apply]
    generalize traced dispatcher definition arguments _ = result at hreplay
    obtain ⟨outcome, events⟩ := result
    refine ⟨rfl, fun after hafter ↦ ?_⟩
    cases outcome with
    | returned value middle | raised fault middle =>
      have hmiddle := hreplay middle rfl
      obtain rfl := Option.some.inj hafter
      simp only [Event.replay_cons, Event.replay_append, Event.apply, Outcome.leaving] at hmiddle ⊢
      rw [hmiddle]
      rfl
    | exhausted => cases hafter

theorem call_describes
    (hrun : ∀ definition arguments,
      (traced dispatcher definition arguments).Describes (run dispatcher definition arguments))
    (arguments : List Value) (routing : Routing) (route : Route) :
    (call traced dispatcher arguments routing route).Describes
      (route.call routing run dispatcher arguments) := by
  have henter (target : Except Fault (String × Definition)) :
      (enter traced dispatcher arguments target).Describes
        (Route.enter run dispatcher arguments target) := by
    cases target with
    | ok found => exact activate_describes hrun found.1 found.2 arguments
    | error fault => exact .raise fault
  intro world
  obtain ⟨houtcome, hreplay⟩ := henter (route.target routing world dispatcher)
    (Event.replay (route.events routing world dispatcher) world)
  rw [Route.call_eq_enter]
  refine ⟨houtcome, fun after hafter ↦ ?_⟩
  rw [call, Event.replay_append]
  exact hreplay after hafter

theorem interpret_describes
    (hrun : ∀ definition arguments,
      (traced dispatcher definition arguments).Describes (run dispatcher definition arguments))
    (routing : Routing) (arguments : List Value) (body : Body Value) :
    Describes (body.interpret (.tracing routing traced dispatcher) arguments)
      (body.eval routing run dispatcher arguments) := by
  have hparts : Body.Interpretation.Corresponds (.tracing routing traced dispatcher)
      (.running routing run dispatcher) Describes :=
    { pure := .pure
      bind := .bind
      orElse := .orElse
      leaf := fun part ↦ .performing fun world ↦ part.world?_perform dispatcher world
      call := fun route arguments ↦ call_describes hrun arguments routing route }
  rw [Body.eval_eq_interpret]
  exact Body.interpret_related hparts arguments body

end Runs

theorem tracedRun_describes (routing : Routing) (allowance : Nat) (dispatcher : DispatcherId)
    (definition : Definition) (arguments : List Value) :
    (tracedRun routing allowance dispatcher definition arguments).Describes
      (run routing allowance dispatcher definition arguments) := by
  induction allowance generalizing definition arguments with
  | zero => exact fun _ ↦ ⟨rfl, nofun⟩
  | succ allowance ih => exact interpret_describes ih routing arguments definition.body

theorem receiver_describes (routing : Routing) (allowance : Nat) (dispatcher : DispatcherId)
    (arguments : List Value) (receiver : Receiver) :
    (receiver.traced routing (tracedRun routing allowance) dispatcher arguments).Describes
      (receiver.execute routing (run routing allowance) dispatcher arguments) := by
  have hrun := tracedRun_describes routing allowance dispatcher
  induction receiver with
  | native value =>
    unfold Receiver.traced Receiver.execute Value.execute
    cases value.function? with
    | some callee => exact call_describes hrun arguments routing (.executed callee)
    | none => exact .raise _
  | descriptor | functions => exact .raise _
  | foreign value =>
    unfold Receiver.traced Receiver.execute
    cases value.body? with
    | some body => exact interpret_describes hrun routing arguments body
    | none => exact .raise _
  | view delegate ih => exact ih

end Traced

end GuestCore
