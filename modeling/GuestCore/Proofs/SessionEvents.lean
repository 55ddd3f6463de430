import GuestCore.Proofs.EventSteps

/-!
# The Events of a Session

A step of a session that calls something is prepared, then the call is made, and then the step
answers.  The events of the calls are those of a traced computation.  Preparing and answering take
effects of other kinds only, so that every session goes through events that are, as far as calls
are concerned, the events of its calls.
-/

namespace GuestCore

open Session

/-! ## Calls -/

namespace Session

namespace PreparedCall

/-- The call as a traced computation. -/
def traced (call : PreparedCall) (routing : Routing) (allowance : Nat) : Traced Value :=
  match call.callable with
  | .route route =>
    .call (tracedRun routing allowance) call.dispatcher call.arguments routing route
  | .receiver receiver =>
    receiver.traced routing (tracedRun routing allowance) call.dispatcher call.arguments

theorem traced_describes (call : PreparedCall) (routing : Routing) (allowance : Nat) :
    (call.traced routing allowance).Describes (call.perform routing allowance) := by
  unfold traced perform
  cases call.callable with
  | route route =>
    have hrun := Traced.tracedRun_describes routing allowance call.dispatcher
    exact Traced.call_describes hrun call.arguments routing route
  | receiver receiver => exact Traced.receiver_describes routing allowance _ _ receiver

theorem traced_of_calls {motive : ∀ {α : Type}, Traced α → Prop} (call : PreparedCall)
    {routing : Routing} {allowance : Nat} (hparts : Traced.PartsClosed call.dispatcher motive)
    (hcalls : ∀ arguments route,
      motive (.call (tracedRun routing allowance) call.dispatcher arguments routing route)) :
    motive (call.traced routing allowance) := by
  unfold traced
  cases call.callable with
  | route route => exact hcalls call.arguments route
  | receiver receiver => exact hparts.receiver hcalls call.arguments receiver

theorem traced_of_closed {motive : ∀ {α : Type}, Traced α → Prop} (call : PreparedCall)
    {routing : Routing} (hclosed : Traced.Closed routing call.dispatcher motive)
    (allowance : Nat) : motive (call.traced routing allowance) :=
  call.traced_of_calls hclosed.toPartsClosed (hclosed.call (hclosed.tracedRun allowance))

/-- What the step ends with, once the call has ended. -/
def conclude (call : PreparedCall) (prepared : State) :
    Outcome Value → Except Malformed (Answer × State)
  | .returned value world => .ok (call.answer (.ok value) world, { prepared with world })
  | .raised fault world => .ok (call.answer (.error fault) world, { prepared with world })
  | .exhausted => .error .exhausted

theorem world?_of_conclude {call : PreparedCall} {prepared after : State}
    {outcome : Outcome Value} {answer : Answer}
    (hconclude : call.conclude prepared outcome = .ok (answer, after)) :
    outcome.world? = some after.world ∧ after = { prepared with world := after.world } := by
  cases outcome with
  | returned | raised =>
    cases hconclude
    exact ⟨rfl, rfl⟩
  | exhausted => cases hconclude

theorem conclude_of_world? {call : PreparedCall} {prepared : State} {outcome : Outcome Value}
    {world : World} (hends : outcome.world? = some world) :
    ∃ answer, call.conclude prepared outcome = .ok (answer, { prepared with world }) := by
  cases outcome with
  | returned | raised =>
    obtain rfl := Option.some.inj hends
    exact ⟨_, rfl⟩
  | exhausted => cases hends

end PreparedCall

theorem run_answerStep_of_prepared {step : Step} {prepare : Script PreparedCall}
    (hprepare : prepareCall? step = some prepare) (routing : Routing) (allowance : Nat)
    (state : State) :
    (answerStep routing allowance step).run state =
      (prepare.run state).bind fun result ↦
        result.1.conclude result.2 (result.1.perform routing allowance result.2.world) := by
  rw [answerStep_eq_prepared hprepare, StateT.run_bind]
  apply bind_congr
  intro result
  rw [StateT.run_bind, Script.run_perform]
  cases result.1.perform routing allowance result.2.world <;> rfl

/-- A step that calls something is answered when it has been prepared and its call has ended. -/
theorem prepared_of_answerStep {routing : Routing} {allowance : Nat} {step : Step}
    {prepare : Script PreparedCall} (hprepare : prepareCall? step = some prepare)
    {state after : State} {answer : Answer}
    (hrun : (answerStep routing allowance step).run state = .ok (answer, after)) :
    ∃ call prepared, prepare.run state = .ok (call, prepared) ∧
      (call.perform routing allowance prepared.world).world? = some after.world ∧
      after = { prepared with world := after.world } := by
  rw [run_answerStep_of_prepared hprepare] at hrun
  cases hready : prepare.run state with
  | error malformed =>
    rw [hready] at hrun
    cases hrun
  | ok result =>
    rw [hready] at hrun
    exact ⟨result.1, result.2, rfl, PreparedCall.world?_of_conclude hrun⟩

/-- The records of a step are those that its answer added. -/
theorem run_runStep (routing : Routing) (allowance : Nat) (step : Step) (state : State) :
    (runStep routing allowance step).run state =
      ((answerStep routing allowance step).run state).map fun result ↦
        ((result.1, recordsSince state.world.history.length result.2.world), result.2) := by
  have hanswer : (runStep routing allowance step).run state =
      (answerStep routing allowance step >>= fun answer ↦ do
        return (answer, recordsSince state.world.history.length (← Script.world))).run state := rfl
  rw [hanswer, StateT.run_bind]
  cases (answerStep routing allowance step).run state <;> rfl

theorem run_runSteps_cons (routing : Routing) (allowance : Nat) (step : Step) (rest : List Step)
    (state : State) :
    (runSteps routing allowance (step :: rest)).run state =
      ((runStep routing allowance step).run state).bind fun first ↦
        ((runSteps routing allowance rest).run first.2).map fun others ↦
          (first.1 :: others.1, others.2) := by
  rw [runSteps, StateT.run_bind]
  apply bind_congr
  intro first
  rw [StateT.run_bind]
  cases (runSteps routing allowance rest).run first.2 <;> rfl

/-- A session that ends well has a first step that ended well, and a rest. -/
theorem runSteps_cons_ok {routing : Routing} {allowance : Nat} {step : Step} {rest : List Step}
    {state final : State} {answers : List (Answer × List TraceRecord)}
    (hrun : (runSteps routing allowance (step :: rest)).run state = .ok (answers, final)) :
    ∃ answer middle others, (runStep routing allowance step).run state = .ok (answer, middle) ∧
      (runSteps routing allowance rest).run middle = .ok (others, final) ∧
        answers = answer :: others := by
  rw [run_runSteps_cons] at hrun
  cases hstep : (runStep routing allowance step).run state with
  | error malformed =>
    rw [hstep] at hrun
    cases hrun
  | ok first =>
    rw [hstep] at hrun
    cases hrest : (runSteps routing allowance rest).run first.2 with
    | error malformed =>
      simp only [Except.bind, hrest] at hrun
      cases hrun
    | ok others =>
      simp only [Except.bind, hrest] at hrun
      cases hrun
      exact ⟨first.1, first.2, others.1, rfl, hrest, rfl⟩

theorem answerStep_ok_of_runStep {routing : Routing} {allowance : Nat} {step : Step}
    {state after : State} {answer : Answer × List TraceRecord}
    (hrun : (runStep routing allowance step).run state = .ok (answer, after)) :
    (answerStep routing allowance step).run state = .ok (answer.1, after) ∧
      answer.2 = recordsSince state.world.history.length after.world := by
  rw [run_runStep] at hrun
  cases hstep : (answerStep routing allowance step).run state with
  | error malformed =>
    rw [hstep] at hrun
    cases hrun
  | ok result =>
    rw [hstep] at hrun
    cases hrun
    exact ⟨rfl, rfl⟩

/-- If a step is answered, its call has ended. -/
theorem world?_of_runStep {routing : Routing} {allowance : Nat} {step : Step}
    {prepare : Script PreparedCall} (hprepare : prepareCall? step = some prepare)
    {state prepared after : State} {call : PreparedCall}
    (hready : prepare.run state = .ok (call, prepared)) {answer : Answer × List TraceRecord}
    (hrun : (runStep routing allowance step).run state = .ok (answer, after)) :
    (call.perform routing allowance prepared.world).world? = some after.world := by
  obtain ⟨hanswer, -⟩ := answerStep_ok_of_runStep hrun
  rw [run_answerStep_of_prepared hprepare, hready] at hanswer
  exact (PreparedCall.world?_of_conclude hanswer).1

/-! ## The calls of a session -/

/-- The events of the call that a step makes. -/
def stepEvents (routing : Routing) (allowance : Nat) (step : Step) (state : State) : List Event :=
  match prepareCall? step with
  | none => []
  | some prepare =>
    match prepare.run state with
    | .ok (call, prepared) => (call.traced routing allowance prepared.world).2
    | .error _ => []

theorem stepEvents_of_quiet {step : Step} (hquiet : prepareCall? step = none) (routing : Routing)
    (allowance : Nat) (state : State) : stepEvents routing allowance step state = [] := by
  rw [stepEvents, hquiet]

theorem stepEvents_of_prepared {step : Step} {prepare : Script PreparedCall}
    (hprepare : prepareCall? step = some prepare) {state prepared : State} {call : PreparedCall}
    (hready : prepare.run state = .ok (call, prepared)) (routing : Routing) (allowance : Nat) :
    stepEvents routing allowance step state =
      (call.traced routing allowance prepared.world).2 := by
  simp only [stepEvents, hprepare, hready]

/-- The events of the calls that a session makes, one after the other. -/
def callEvents (routing : Routing) (allowance : Nat) : List Step → State → List Event
  | [], _ => []
  | step :: rest, state =>
    stepEvents routing allowance step state ++
      match (runStep routing allowance step).run state with
      | .ok (_, after) => callEvents routing allowance rest after
      | .error _ => []

section FirstStep

variable {routing : Routing} {allowance : Nat} {step : Step} {state middle : State}
  {answer : Answer × List TraceRecord}

theorem run_runSteps_of_ok
    (hstep : (runStep routing allowance step).run state = .ok (answer, middle))
    (rest : List Step) :
    (runSteps routing allowance (step :: rest)).run state =
      ((runSteps routing allowance rest).run middle).map fun others ↦
        (answer :: others.1, others.2) := by
  rw [run_runSteps_cons, hstep]
  rfl

theorem callEvents_of_ok
    (hstep : (runStep routing allowance step).run state = .ok (answer, middle))
    (rest : List Step) :
    callEvents routing allowance (step :: rest) state =
      stepEvents routing allowance step state ++ callEvents routing allowance rest middle := by
  rw [callEvents, hstep]

end FirstStep

section FirstSteps

variable {routing : Routing} {allowance : Nat} {before : List Step} {state middle : State}
  {answers : List (Answer × List TraceRecord)}

theorem run_runSteps_append
    (hbefore : (runSteps routing allowance before).run state = .ok (answers, middle))
    (rest : List Step) :
    (runSteps routing allowance (before ++ rest)).run state =
      ((runSteps routing allowance rest).run middle).map fun others ↦
        (answers ++ others.1, others.2) := by
  induction before generalizing state answers with
  | nil =>
    cases hbefore
    rw [List.nil_append]
    cases (runSteps routing allowance rest).run middle <;> rfl
  | cons step others ih =>
    obtain ⟨answer, next, later, hstep, hothers, rfl⟩ := runSteps_cons_ok hbefore
    rw [List.cons_append, run_runSteps_of_ok hstep, ih hothers]
    cases (runSteps routing allowance rest).run middle <;> rfl

theorem callEvents_append
    (hbefore : (runSteps routing allowance before).run state = .ok (answers, middle))
    (rest : List Step) :
    callEvents routing allowance (before ++ rest) state =
      callEvents routing allowance before state ++ callEvents routing allowance rest middle := by
  induction before generalizing state answers with
  | nil =>
    cases hbefore
    rfl
  | cons step others ih =>
    obtain ⟨answer, next, later, hstep, hothers, rfl⟩ := runSteps_cons_ok hbefore
    rw [List.cons_append, callEvents_of_ok hstep, callEvents_of_ok hstep, ih hothers,
      List.append_assoc]

end FirstSteps

end Session

/-! ## Sessions go through events -/

/-- Only calls give rise to the event. -/
def Event.isOfCall : Event → Bool
  | effect (.noteCall _ _ _) | effect (.refuseCall _ _) | enter _ | leave _ => true
  | effect _ => false

theorem Effect.isOfCall_of_isPlain {effect : Effect} (hplain : effect.isPlain = true) :
    (Event.effect effect).isOfCall = false := by
  cases effect with
  | noteCall | refuseCall => cases hplain
  | _ => rfl

namespace Moment

variable {origin : Moment} {calls : List Event} {world : World}

/-- Events lead from the moment to the world, where the same calls are active as before.  Those
that calls give rise to are given. -/
def Reaches (origin : Moment) (calls : List Event) (world : World) : Prop :=
  ∃ events, origin.Legal events ∧ (origin.followAll events).world = world ∧
    (origin.followAll events).active = origin.active ∧ events.filter Event.isOfCall = calls

namespace Reaches

theorem refl (origin : Moment) : origin.Reaches [] origin.world :=
  ⟨[], trivial, rfl, rfl, rfl⟩

theorem leads (hreaches : origin.Reaches calls world) :
    ∃ later : Moment, later.world = world ∧ origin.Leads later := by
  obtain ⟨events, hlegal, hworld, -, -⟩ := hreaches
  exact ⟨_, hworld, hlegal.leads⟩

theorem origin_extends (hreaches : origin.Reaches calls world) : origin.world.Extends world := by
  obtain ⟨later, rfl, hleads⟩ := hreaches.leads
  exact hleads.extends

theorem trans {moreCalls : List Event} {after : World} (horigin : origin.Reachable)
    (hfirst : origin.Reaches calls world)
    (hnext : ∀ middle : Moment, middle.Reachable → middle.world = world →
      middle.Reaches moreCalls after) :
    origin.Reaches (calls ++ moreCalls) after := by
  obtain ⟨events, hlegal, hworld, hactive, rfl⟩ := hfirst
  obtain ⟨more, hmore, rfl, hstill, rfl⟩ := hnext _ (horigin.leads hlegal.leads) hworld
  refine ⟨events ++ more, hlegal.append hmore, ?_, ?_, List.filter_append ..⟩
  · rw [followAll_append]
  · rw [followAll_append, hstill, hactive]

/-- An effect that no call gives rise to. -/
theorem effect (hreaches : origin.Reaches calls world) (effect : Effect)
    (hallowed : effect.Allowed world) (hquiet : (Event.effect effect).isOfCall = false) :
    origin.Reaches calls (effect.apply world) := by
  obtain ⟨events, hlegal, rfl, hactive, rfl⟩ := hreaches
  have hstep : (origin.followAll events).Legal [.effect effect] :=
    ⟨.effect effect hallowed, trivial⟩
  refine ⟨events ++ [.effect effect], hlegal.append hstep, ?_, ?_, ?_⟩
  · rw [followAll_append]
    rfl
  · rw [followAll_append]
    exact hactive
  · simp [hquiet]

theorem call {call : PreparedCall} {routing : Routing} {allowance : Nat}
    (horigin : origin.Reachable) (hdispatcher : origin.world.HasDispatcher call.dispatcher)
    (hends : (call.perform routing allowance origin.world).world? = some world) :
    origin.Reaches ((call.traced routing allowance origin.world).2.filter Event.isOfCall)
      world := by
  have hgoes := call.traced_of_closed (Traced.goesInSteps_closed routing _) allowance
  obtain ⟨hlegal, hsteps⟩ := hgoes origin horigin hdispatcher
  rw [(call.traced_describes routing allowance origin.world).1] at hsteps
  obtain ⟨hworld, hactive⟩ := hsteps world hends
  exact ⟨_, hlegal, hworld, hactive, rfl⟩

end Reaches

/-- Whatever a session does between its calls, as a simulation of itself. -/
def building {origin : Moment} (horigin : origin.Reachable) : Simulation where
  worlds left right := left = right ∧ origin.Reaches [] left
  settings := Eq
  sites := Eq
  contents_eq hworlds := congrArg World.contents hworlds.1
  wellFormed hworlds := by
    obtain ⟨later, hworld, hleads⟩ := hworlds.2.leads
    rw [← hworld]
    exact (horigin.leads hleads).wellFormed
  settings_of hworlds := by
    rw [hworlds.1]
    exact fun _ ↦ rfl
  sites_of hworlds _ := by rw [hworlds.1]
  effect := by
    rintro left _ ⟨rfl, hreaches⟩ effect hplain hallowed
    exact ⟨rfl, hreaches.effect effect hallowed (Effect.isOfCall_of_isPlain hplain)⟩
  newRegistry := by
    rintro left _ ⟨rfl, hreaches⟩ config _ rfl
    exact ⟨rfl, hreaches.effect (.newRegistry config) trivial rfl⟩

theorem states_building (horigin : origin.Reachable) {state : State}
    (hworld : state.world = origin.world) (hnames : state.NamesExist) :
    (building horigin).States state state :=
  ⟨⟨rfl, hworld ▸ .refl origin⟩, rfl, rfl, rfl, rfl, hnames⟩

end Moment

namespace Session

variable {origin : Moment} {routing : Routing} {allowance : Nat} {state : State}

/-- A call is prepared without calling anything, for a dispatcher that exists. -/
theorem prepareCall_reaches (horigin : origin.Reachable) (hworld : state.world = origin.world)
    (hnames : state.NamesExist) {step : Step} {prepare : Script PreparedCall}
    (hprepare : prepareCall? step = some prepare) {call : PreparedCall} {prepared : State}
    (hrun : prepare.run state = .ok (call, prepared)) :
    origin.Reaches [] prepared.world ∧ prepared.NamesExist ∧
      prepared.world.HasDispatcher call.dispatcher := by
  have hstates := Moment.states_building horigin hworld hnames
  have hends := prepareCall_relates hprepare hstates (World.Extends.refl _)
  rw [hrun] at hends
  cases hends with
  | ok hsame hprepared _ => exact ⟨hprepared.worlds.2, hprepared.names, hsame.2⟩

theorem answerStep_reaches (horigin : origin.Reachable) (hworld : state.world = origin.world)
    (hnames : state.NamesExist) {step : Step} {answer : Answer} {after : State}
    (hrun : (answerStep routing allowance step).run state = .ok (answer, after)) :
    origin.Reaches ((stepEvents routing allowance step state).filter Event.isOfCall)
        after.world ∧ after.NamesExist := by
  cases hprepare : prepareCall? step with
  | none =>
    rw [stepEvents_of_quiet hprepare]
    have hstates := Moment.states_building horigin hworld hnames
    have hends := answerStep_relates hprepare routing routing allowance allowance hstates
      (World.Extends.refl _)
    rw [hrun] at hends
    cases hends with
    | ok _ hafter _ => exact ⟨hafter.worlds.2, hafter.names⟩
  | some prepare =>
    obtain ⟨call, prepared, hready, houtcome, hafter⟩ := prepared_of_answerStep hprepare hrun
    obtain ⟨hprepared, hpreparedNames, hdispatcher⟩ :=
      prepareCall_reaches horigin hworld hnames hprepare hready
    have hcalled (middle : Moment) (hmiddle : middle.Reachable)
        (hworld : middle.world = prepared.world) :
        middle.Reaches
          ((call.traced routing allowance prepared.world).2.filter Event.isOfCall)
          after.world := by
      rw [← hworld] at hdispatcher houtcome ⊢
      exact .call hmiddle hdispatcher houtcome
    obtain ⟨middle, hmiddle, hleads⟩ := hprepared.leads
    have hextends := (hcalled middle (horigin.leads hleads) hmiddle).origin_extends
    rw [stepEvents_of_prepared hprepare hready]
    refine ⟨hprepared.trans horigin hcalled, ?_⟩
    rw [hafter]
    exact hpreparedNames.setWorld (hmiddle ▸ hextends)

theorem runSteps_reaches (horigin : origin.Reachable) (hworld : state.world = origin.world)
    (hnames : state.NamesExist) {steps : List Step} {final : State}
    {answers : List (Answer × List TraceRecord)}
    (hrun : (runSteps routing allowance steps).run state = .ok (answers, final)) :
    origin.Reaches ((callEvents routing allowance steps state).filter Event.isOfCall)
        final.world ∧ final.NamesExist := by
  induction steps generalizing origin state answers with
  | nil =>
    cases hrun
    exact ⟨hworld ▸ .refl origin, hnames⟩
  | cons step rest ih =>
    obtain ⟨answer, middle, others, hstep, hrest, -⟩ := runSteps_cons_ok hrun
    obtain ⟨hfirst, hmiddle⟩ :=
      answerStep_reaches horigin hworld hnames (answerStep_ok_of_runStep hstep).1
    have hlater (later : Moment) (hlater : later.Reachable)
        (hworld : later.world = middle.world) :=
      ih hlater hworld.symm hmiddle hrest
    obtain ⟨later, hlaterWorld, hleads⟩ := hfirst.leads
    refine ⟨?_, (hlater later (horigin.leads hleads) hlaterWorld).2⟩
    rw [callEvents_of_ok hstep, List.filter_append]
    exact hfirst.trans horigin fun middle hmiddle hworld ↦ (hlater middle hmiddle hworld).1

end Session

end GuestCore
