import GuestCore.Proofs.Events

/-!
# Events Are Steps

From every moment of a run, the events of a traced computation are steps, one after the other.
This holds for computations that do not end, too.  So whatever holds at all moments holds before
and after every event.
-/

namespace GuestCore

/-- What an event puts into the journal. -/
def Event.effect? : Event → Option Effect
  | effect change => some change
  | enter _ | leave _ => none

namespace Moment

variable {moment : Moment}

/-- The moment after an event. -/
def follow (moment : Moment) : Event → Moment
  | .effect effect =>
    { moment with
      world := effect.apply moment.world
      journal := moment.journal ++ [effect] }
  | .enter frame =>
    { moment with
      world := (Event.enter frame).apply moment.world
      active := frame :: moment.active }
  | .leave frame =>
    { moment with
      world := (Event.leave frame).apply moment.world
      active := moment.active.tail }

def followAll (moment : Moment) (events : List Event) : Moment :=
  events.foldl follow moment

/-- Each of the events is a step when it comes. -/
def Legal (moment : Moment) : List Event → Prop
  | [] => True
  | event :: rest => moment.Step (moment.follow event) ∧ (moment.follow event).Legal rest

theorem followAll_append (first second : List Event) :
    moment.followAll (first ++ second) = (moment.followAll first).followAll second :=
  List.foldl_append

theorem world_follow (moment : Moment) (event : Event) :
    (moment.follow event).world = event.apply moment.world := by
  cases event <;> rfl

theorem world_followAll (moment : Moment) (events : List Event) :
    (moment.followAll events).world = Event.replay events moment.world := by
  induction events generalizing moment with
  | nil => rfl
  | cons event rest ih =>
    calc
      (moment.followAll (event :: rest)).world =
          Event.replay rest (moment.follow event).world := ih _
      _ = Event.replay (event :: rest) moment.world := by rw [world_follow, Event.replay_cons]

theorem journal_followAll (moment : Moment) (events : List Event) :
    (moment.followAll events).journal = moment.journal ++ events.filterMap Event.effect? := by
  induction events generalizing moment with
  | nil => simp [followAll]
  | cons event rest ih =>
    refine (ih (moment.follow event)).trans ?_
    cases event with
    | effect change => simp [follow, Event.effect?]
    | enter | leave => rfl

theorem followAll_effects (moment : Moment) (effects : List Effect) :
    moment.followAll (effects.map .effect) = moment.after effects := by
  induction effects generalizing moment with
  | nil => rfl
  | cons effect rest ih => exact ih _

theorem legal_append_iff {first second : List Event} :
    moment.Legal (first ++ second) ↔
      moment.Legal first ∧ (moment.followAll first).Legal second := by
  induction first generalizing moment with
  | nil => exact ⟨fun hlegal ↦ ⟨trivial, hlegal⟩, And.right⟩
  | cons event rest ih =>
    simp only [List.cons_append, Legal, ih, and_assoc]
    rfl

theorem Legal.append {first second : List Event} (hfirst : moment.Legal first)
    (hsecond : (moment.followAll first).Legal second) : moment.Legal (first ++ second) :=
  legal_append_iff.mpr ⟨hfirst, hsecond⟩

theorem Legal.effects {effects : List Effect} (hallowed : AllAllowed moment.world effects) :
    moment.Legal (effects.map .effect) := by
  induction effects generalizing moment with
  | nil => trivial
  | cons effect rest ih => exact ⟨.effect effect hallowed.1, ih hallowed.2⟩

theorem active_after (moment : Moment) (effects : List Effect) :
    (moment.after effects).active = moment.active := by
  induction effects generalizing moment with
  | nil => rfl
  | cons effect rest ih => exact ih _

theorem Step.follow_leave {frame : Frame} {rest : List Frame}
    (hactive : moment.active = frame :: rest) : moment.Step (moment.follow (.leave frame)) := by
  have hstep := Step.leave frame rest hactive
  have htail : moment.active.tail = rest := by rw [hactive, List.tail_cons]
  rw [follow, htail]
  exact hstep

/-- A call that begins finds its dispatcher, at the depth that its frame holds. -/
theorem Step.of_follow_enter {frame : Frame} (hstep : moment.Step (moment.follow (.enter frame))) :
    moment.world.HasDispatcher frame.dispatcher ∧
      moment.world.depth frame.dispatcher = frame.depth := by
  generalize hnext : moment.follow (.enter frame) = next at hstep
  have hactive : frame :: moment.active = next.active := congrArg Moment.active hnext
  cases hstep with
  | effect => exact absurd hactive (List.cons_ne_self frame _)
  | enter dispatcher hdispatcher =>
    obtain rfl : frame = ⟨dispatcher, moment.world.depth dispatcher⟩ :=
      (List.cons.inj hactive).1
    exact ⟨hdispatcher, rfl⟩
  | leave inner rest hinner =>
    have hlength := congrArg List.length hactive
    rw [hinner] at hlength
    simp only [List.length_cons] at hlength
    omega

theorem Legal.leads {events : List Event} (hlegal : moment.Legal events) :
    moment.Leads (moment.followAll events) := by
  induction events generalizing moment with
  | nil => exact .refl
  | cons event rest ih => exact Leads.trans (.single hlegal.1) (ih hlegal.2)

theorem Legal.reachable_upTo {events before : List Event} (hlegal : moment.Legal events)
    (hreachable : moment.Reachable) (hbefore : before <+: events) :
    (moment.followAll before).Reachable := by
  obtain ⟨since, rfl⟩ := hbefore
  exact hreachable.leads (legal_append_iff.mp hlegal).1.leads

end Moment

namespace Traced

variable {α β : Type} {dispatcher : DispatcherId}

/-- From every moment at which the dispatcher exists, the events are steps.  Once the computation
has ended, the same calls are active as before. -/
def GoesInSteps (dispatcher : DispatcherId) (traced : Traced α) : Prop :=
  ∀ moment : Moment, moment.Reachable → moment.world.HasDispatcher dispatcher →
    moment.Legal (traced moment.world).2 ∧
      ∀ after, (traced moment.world).1.world? = some after →
        (moment.followAll (traced moment.world).2).world = after ∧
          (moment.followAll (traced moment.world).2).active = moment.active

namespace GoesInSteps

variable {first fallback : Traced α}

theorem pure (value : α) : GoesInSteps dispatcher (Pure.pure value : Traced α) :=
  fun _ _ _ ↦ ⟨trivial, fun _ hafter ↦ ⟨Option.some.inj hafter, rfl⟩⟩

theorem raise (fault : Fault) :
    GoesInSteps dispatcher (fun world ↦ (.raised fault world, []) : Traced α) :=
  fun _ _ _ ↦ ⟨trivial, fun _ hafter ↦ ⟨Option.some.inj hafter, rfl⟩⟩

/-- A computation goes on from where another one has ended. -/
theorem continued {next : Traced β} (hnext : next.GoesInSteps dispatcher) {moment : Moment}
    (hreachable : moment.Reachable) (hdispatcher : moment.world.HasDispatcher dispatcher)
    {events : List Event} (hlegal : moment.Legal events) {middle : World}
    (hmiddle : (moment.followAll events).world = middle)
    (hactive : (moment.followAll events).active = moment.active) :
    moment.Legal (events ++ (next middle).2) ∧
      ∀ after, (next middle).1.world? = some after →
        (moment.followAll (events ++ (next middle).2)).world = after ∧
          (moment.followAll (events ++ (next middle).2)).active = moment.active := by
  subst hmiddle
  have hleads := hlegal.leads
  obtain ⟨hmore, hends⟩ := hnext _ (hreachable.leads hleads)
    (hleads.extends.hasDispatcher hdispatcher)
  refine ⟨hlegal.append hmore, fun after hafter ↦ ?_⟩
  rw [Moment.followAll_append, ← hactive]
  exact hends after hafter

theorem bind {next : α → Traced β} (hfirst : first.GoesInSteps dispatcher)
    (hnext : ∀ value, (next value).GoesInSteps dispatcher) :
    GoesInSteps dispatcher (first >>= next) := by
  intro moment hreachable hdispatcher
  obtain ⟨hlegal, hends⟩ := hfirst moment hreachable hdispatcher
  change moment.Legal (Traced.bind first next moment.world).2 ∧ ∀ after,
    (Traced.bind first next moment.world).1.world? = some after →
      (moment.followAll (Traced.bind first next moment.world).2).world = after ∧
        (moment.followAll (Traced.bind first next moment.world).2).active = moment.active
  unfold Traced.bind
  generalize first moment.world = result at hlegal hends
  obtain ⟨outcome, events⟩ := result
  cases outcome with
  | returned value middle =>
    obtain ⟨hmiddle, hactive⟩ := hends middle rfl
    exact (hnext value).continued hreachable hdispatcher hlegal hmiddle hactive
  | raised fault middle => exact ⟨hlegal, hends⟩
  | exhausted => exact ⟨hlegal, nofun⟩

theorem orElse (hfirst : first.GoesInSteps dispatcher)
    (hfallback : fallback.GoesInSteps dispatcher) :
    GoesInSteps dispatcher (first.orElse fallback) := by
  intro moment hreachable hdispatcher
  obtain ⟨hlegal, hends⟩ := hfirst moment hreachable hdispatcher
  unfold Traced.orElse
  generalize first moment.world = result at hlegal hends
  obtain ⟨outcome, events⟩ := result
  cases outcome with
  | returned value middle => exact ⟨hlegal, hends⟩
  | raised fault middle =>
    obtain ⟨hmiddle, hactive⟩ := hends middle rfl
    exact hfallback.continued hreachable hdispatcher hlegal hmiddle hactive
  | exhausted => exact ⟨hlegal, nofun⟩

theorem performing (part : Body.Leaf α) :
    GoesInSteps dispatcher (.performing (part.perform dispatcher) fun world ↦
      part.effects dispatcher world) := by
  intro moment hreachable hdispatcher
  have hallowed := part.allAllowed_effects (hreachable.wellFormed dispatcher hdispatcher)
  refine ⟨.effects hallowed, fun after hafter ↦ ⟨?_, ?_⟩⟩
  · change (part.perform dispatcher moment.world).world? = some after at hafter
    rw [part.world?_perform] at hafter
    rw [Moment.world_followAll]
    exact Option.some.inj hafter
  · change (moment.followAll ((part.effects dispatcher moment.world).map .effect)).active = _
    rw [Moment.followAll_effects, Moment.active_after]

end GoesInSteps

section Runs

variable {traced : TracedRunner}

theorem activate_goesInSteps
    (hrun : ∀ definition arguments, (traced dispatcher definition arguments).GoesInSteps dispatcher)
    (name : String) (definition : Definition) (arguments : List Value) :
    (activate traced dispatcher arguments name definition).GoesInSteps dispatcher := by
  intro moment hreachable hdispatcher
  unfold activate
  dsimp only
  cases hlimit : (moment.world.configOf dispatcher).reachedLimit?
      (moment.world.depth dispatcher) with
  | some limit =>
    exact ⟨⟨.effect _ trivial, trivial⟩, fun _ hafter ↦ ⟨Option.some.inj hafter, rfl⟩⟩
  | none =>
    have hentered : moment.Step
        (moment.follow (.enter ⟨dispatcher, moment.world.depth dispatcher⟩)) :=
      .enter dispatcher hdispatcher hlimit
    have hinner := hrun definition arguments _ (hreachable.leads (.single hentered))
      (hentered.extends.hasDispatcher hdispatcher)
    dsimp only [Moment.follow] at hinner
    generalize traced dispatcher definition arguments _ = result at hinner
    obtain ⟨outcome, events⟩ := result
    obtain ⟨hlegal, hends⟩ := hinner
    -- The call was the innermost one when its body had ended.
    have hleave {middle : World} (hmiddle : outcome.world? = some middle) :
        Moment.Legal _ (events ++ [.leave ⟨dispatcher, moment.world.depth dispatcher⟩]) :=
      hlegal.append ⟨.follow_leave (hends middle hmiddle).2, trivial⟩
    have hactive {middle : World} (hmiddle : outcome.world? = some middle) :
        (moment.followAll (.enter ⟨dispatcher, moment.world.depth dispatcher⟩ ::
          (events ++ [.leave ⟨dispatcher, moment.world.depth dispatcher⟩]))).active =
            moment.active := by
      rw [← List.cons_append, Moment.followAll_append]
      exact congrArg List.tail (hends middle hmiddle).2
    have hworld {middle : World} (hmiddle : outcome.world? = some middle) :
        (moment.followAll (.enter ⟨dispatcher, moment.world.depth dispatcher⟩ ::
          (events ++ [.leave ⟨dispatcher, moment.world.depth dispatcher⟩]))).world =
            middle.setDepth dispatcher (moment.world.depth dispatcher) := by
      rw [← List.cons_append, Moment.followAll_append]
      exact congrArg (World.setDepth · dispatcher _) (hends middle hmiddle).1
    cases outcome with
    | returned value middle | raised fault middle =>
      refine ⟨⟨hentered, hleave rfl⟩, fun after hafter ↦ ⟨?_, hactive rfl⟩⟩
      obtain rfl := Option.some.inj hafter
      exact hworld rfl
    | exhausted =>
      refine ⟨⟨hentered, ?_⟩, nofun⟩
      rw [Outcome.leaving, List.append_nil]
      exact hlegal

theorem call_goesInSteps
    (hrun : ∀ definition arguments, (traced dispatcher definition arguments).GoesInSteps dispatcher)
    (arguments : List Value) (routing : Routing) (route : Route) :
    (call traced dispatcher arguments routing route).GoesInSteps dispatcher := by
  have henter (target : Except Fault (String × Definition)) :
      (enter traced dispatcher arguments target).GoesInSteps dispatcher := by
    cases target with
    | ok found => exact activate_goesInSteps hrun found.1 found.2 arguments
    | error fault => exact .raise fault
  intro moment hreachable hdispatcher
  have hallowed := route.allAllowed_effects hreachable hdispatcher routing
  refine (henter (route.target routing moment.world dispatcher)).continued hreachable hdispatcher
    (.effects hallowed) ?_ ?_
  · exact moment.world_followAll _
  · rw [Moment.followAll_effects, Moment.active_after]

end Runs

/-- All computations go in steps. -/
theorem goesInSteps_closed (routing : Routing) (dispatcher : DispatcherId) :
    Closed routing dispatcher (GoesInSteps dispatcher) where
  pure := .pure
  bind := .bind
  orElse := .orElse
  leaf := .performing
  call hrun arguments route := call_goesInSteps hrun arguments routing route
  exhausted _ _ _ := ⟨trivial, nofun⟩

end Traced

end GuestCore
