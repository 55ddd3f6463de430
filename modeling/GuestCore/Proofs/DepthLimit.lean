import GuestCore.Proofs.Nesting
import GuestCore.Proofs.Recasting
import GuestCore.Proofs.Refusals
import GuestCore.Proofs.Termination

/-!
# Depth Limits Cut Off

A depth limit decides nothing but whether a call is entered.  A session that goes through without a
limit goes through in the same way under every limit that its calls do not exceed.  Under a lower
limit it goes in the same way up to the first call that is nested more deeply than the limit, and
that call is refused.
-/

namespace GuestCore

open Session

/-! ## Other limits -/

def Config.withDepthLimit (config : Config) (limit : Option Nat) : Config :=
  { config with depthLimit := limit }

/-- The same depth limit for all registries. -/
def Recast.limiting (limit : Option Nat) : Recast where
  settings config := config.withDepthLimit limit
  older := []
  cacheLimit_eq _ := rfl

namespace World

variable {world : World} {dispatcher : DispatcherId}

/-- The world with another depth limit in all registries. -/
def withDepthLimit (world : World) (limit : Option Nat) : World :=
  world.recast (.limiting limit)

theorem history_withDepthLimit (world : World) (limit : Option Nat) :
    (world.withDepthLimit limit).history = world.history :=
  List.append_nil _

/-- The trace does not tell the limit. -/
theorem Refused.withDepthLimit {before after : World} {refusals : List (String × Nat)}
    (hrefused : before.Refused after refusals) (limit : Option Nat) :
    (before.withDepthLimit limit).Refused (after.withDepthLimit limit) refusals := by
  unfold Refused
  rw [history_withDepthLimit, history_withDepthLimit]
  exact hrefused

theorem withDepthLimit_withDepthLimit (world : World) (first second : Option Nat) :
    (world.withDepthLimit first).withDepthLimit second = world.withDepthLimit second := by
  simp [withDepthLimit, recast, Recast.limiting, Table.map, Config.withDepthLimit]

theorem WellFormed.limited (hworld : world.WellFormed)
    (hdispatcher : world.HasDispatcher dispatcher) (limit : Nat) :
    (world.withDepthLimit (some limit)).Limited dispatcher limit (world.depth dispatcher) where
  hasDispatcher := hdispatcher
  limit_eq := congrArg Config.depthLimit (config_recast _ (hworld dispatcher hdispatcher))
  depth_eq := rfl

end World

namespace Session

def State.withDepthLimit (state : State) (limit : Option Nat) : State :=
  { state with
    config := state.config.withDepthLimit limit
    world := state.world.withDepthLimit limit }

/-- The same answer but for the depth limit where settings are told, with the same records. -/
def SameButLimit (limit : Nat) (left right : Answer × List TraceRecord) : Prop :=
  Answer.Like (fun left right ↦ left = right.withDepthLimit (some limit)) Eq left.1 right.1 ∧
    left.2 = right.2

end Session

/-! ## With and without a limit -/

/-- The limit on the left, and none on the right. -/
abbrev Lockstep.limited (limit : Nat) : Lockstep :=
  Recast.lockstep (.limiting (some limit)) (.limiting none) nofun

section Limited

variable {limit : Nat} {left right state : State}

theorem Session.State.states_limited (hunlimited : state.withDepthLimit none = state)
    (hworld : state.world.WellFormed) (hnames : state.NamesExist) (limit : Nat) :
    (Lockstep.limited limit).States (state.withDepthLimit (some limit)) state where
  worlds := ⟨state.world, hworld, rfl, (congrArg State.world hunlimited).symm⟩
  settings := ⟨state.config, rfl, (congrArg State.config hunlimited).symm⟩
  registries := rfl
  batches := rfl
  slots := rfl
  names name known hname := by
    obtain ⟨hregistry, hdispatcher⟩ := hnames name known hname
    exact ⟨World.hasRegistry_recast.mpr hregistry, hdispatcher⟩

theorem Lockstep.eq_of_states (hstates : (Lockstep.limited limit).States left right) :
    left = right.withDepthLimit (some limit) := by
  obtain ⟨world, -, hleft, hright⟩ := hstates.worlds
  obtain ⟨config, hleftConfig, hrightConfig⟩ := hstates.settings
  have hworlds : left.world = right.world.withDepthLimit (some limit) := by
    rw [hleft, hright]
    exact (world.withDepthLimit_withDepthLimit none (some limit)).symm
  have hconfigs : left.config = right.config.withDepthLimit (some limit) := by
    rw [hleftConfig, hrightConfig]
    rfl
  obtain ⟨leftConfig, leftWorld, leftRegistries, leftBatches, leftSlots⟩ := left
  simp only [State.withDepthLimit, ← hworlds, ← hconfigs, ← hstates.registries, ← hstates.batches,
    ← hstates.slots]

theorem Session.SameButLimit.of_told {left right : Answer × List TraceRecord}
    (htold : (Lockstep.limited limit).Told left right) : SameButLimit limit left right := by
  refine ⟨htold.1.mono ?_, htold.2⟩
  rintro _ _ ⟨config, rfl, rfl⟩
  rfl

/-- Without a limit nothing is refused, so nothing is refused on both sides. -/
theorem Event.Shared.refusal? {event : Event}
    (hshared : event.Shared (Lockstep.limited limit).settings) : event.refusal? = none := by
  cases event with
  | enter | leave => rfl
  | effect effect =>
    cases effect with
    | refuseCall name reached =>
      obtain ⟨_, _, depth, ⟨config, -, rfl⟩, hreached⟩ := hshared
      cases hreached
    | _ => rfl

theorem Event.Shared.depth_lt {frame : Frame}
    (hshared : (Event.enter frame).Shared (Lockstep.limited limit).settings) :
    frame.depth < limit := by
  obtain ⟨_, _, ⟨config, rfl, -⟩, hreached⟩ := hshared
  exact Config.lt_of_reachedLimit?_eq_none hreached rfl

/-- Where runs with and without the limit part, a call is refused under the limit. -/
theorem Event.Part.exists_refusal {leftEvents rightEvents : List Event}
    (hparts : Event.Part (Lockstep.limited limit).settings leftEvents rightEvents) :
    ∃ shared name frame leftRest rightRest,
      leftEvents = shared ++ .effect (.refuseCall name limit) :: leftRest ∧
        rightEvents = shared ++ .enter frame :: rightRest ∧ limit ≤ frame.depth ∧
          ∀ event ∈ shared, event.refusal? = none := by
  obtain ⟨shared, hshared, name, frame, ⟨config, rfl, -⟩, hreached, -, leftRest, rightRest⟩ :=
    hparts
  obtain ⟨hlimit, hdepth⟩ := Config.reachedLimit?_eq_some.mp hreached
  obtain rfl := Option.some.inj hlimit
  exact ⟨shared, name, frame, leftRest, rightRest, rfl, rfl, hdepth,
    fun event hevent ↦ (hshared event hevent).refusal?⟩

end Limited

/-! ## Calls under a limit -/

/-- A limited call that is allowed to nest as deeply as the limit ends. -/
theorem Session.PreparedCall.perform_ends {call : PreparedCall} {world : World}
    {limit depth allowance : Nat} (hlimited : world.Limited call.dispatcher limit depth)
    (henough : limit ≤ depth + allowance) (routing : Routing) :
    ∃ after, (call.perform routing allowance world).world? = some after := by
  have hrun (hbelow : depth < limit) : RunsEndAlike call.dispatcher limit (depth + 1)
      (run routing allowance) (run routing allowance) :=
    run_endAlike routing limit hbelow (by omega) (by omega)
  unfold perform
  cases call.callable with
  | route route =>
    obtain ⟨-, after, hafter, -⟩ :=
      route.call_endAlike hrun routing call.arguments world hlimited
    exact ⟨after, hafter⟩
  | receiver receiver =>
    obtain ⟨-, after, hafter, -⟩ :=
      receiver.execute_endAlike hrun routing call.arguments world hlimited
    exact ⟨after, hafter⟩

theorem Dispatch.activate_of_limited {world : World} {dispatcher : DispatcherId}
    {limit depth : Nat} (hlimited : world.Limited dispatcher limit depth) (hreached : limit ≤ depth)
    (run : Runner) (name : String) (definition : Definition) (arguments : List Value) :
    activate run dispatcher name definition arguments world =
      .raised (.depthExceeded limit) (world.log (.depthExceeded name limit)) := by
  have hlimit : (world.configOf dispatcher).reachedLimit? (world.depth dispatcher) =
      some limit := by
    rw [Config.reachedLimit?_eq_some, hlimited.depth_eq]
    exact ⟨hlimited.limit_eq, hreached⟩
  simp only [activate, hlimit]

/-- A call that begins, more deeply nested than the limit, is refused under it. -/
theorem Moment.Legal.refused {moment : Moment} (hreachable : moment.Reachable)
    {before rest : List Event} {frame : Frame}
    (hlegal : moment.Legal (before ++ .enter frame :: rest)) {limit : Nat}
    (hdepth : limit ≤ frame.depth) (run : Runner) (name : String) (definition : Definition)
    (arguments : List Value) :
    let world := (Event.replay before moment.world).withDepthLimit (some limit)
    Dispatch.activate run frame.dispatcher name definition arguments world =
      .raised (.depthExceeded limit) (world.log (.depthExceeded name limit)) := by
  obtain ⟨hbefore, hentered, -⟩ := Moment.legal_append_iff.mp hlegal
  obtain ⟨hdispatcher, hframe⟩ := hentered.of_follow_enter
  have hlimited := (hreachable.leads hbefore.leads).wellFormed.limited hdispatcher limit
  rw [hframe, Moment.world_followAll] at hlimited
  exact Dispatch.activate_of_limited hlimited hdepth run name definition arguments

/-- What calls do to a world, they do to it under every limit. -/
theorem Session.PreparedCall.replay_withDepthLimit (call : PreparedCall) {routing : Routing}
    {allowance : Nat} {world : World} {before : List Event}
    (hbefore : before <+: (call.traced routing allowance world).2) (limit : Option Nat) :
    Event.replay before (world.withDepthLimit limit) =
      (Event.replay before world).withDepthLimit limit := by
  refine (Event.recast_replay (.limiting limit) (fun event hevent ↦ ?_) world).symm
  exact call.traced_of_closed (Traced.keepsRegistries_closed routing _) allowance world event
    (hbefore.subset hevent)

/-! ## Sessions under a limit -/

namespace Session

/-- Under the limit the call of the step is prepared, and goes on, as it does without the limit, up
to the first call that is refused.  Without the limit that call is entered. -/
structure CutOff (limit : Nat) (routing : Routing) (allowance : Nat) (step : Step) (state : State)
    (call : PreparedCall) (prepared : State) (shared : List Event) (name : String)
    (frame : Frame) : Prop where
  ready : ∃ prepare, prepareCall? step = some prepare ∧
    prepare.run state = .ok (call, prepared) ∧
      prepare.run (state.withDepthLimit (some limit)) =
        .ok (call, prepared.withDepthLimit (some limit))
  entered : ∃ rest, (call.traced routing allowance prepared.world).2 =
    shared ++ .enter frame :: rest
  refused : ∃ rest,
    (call.traced routing allowance (prepared.withDepthLimit (some limit)).world).2 =
      shared ++ .effect (.refuseCall name limit) :: rest
  first : ∀ event ∈ shared, event.refusal? = none
  world_eq : Event.replay shared (prepared.withDepthLimit (some limit)).world =
    (Event.replay shared prepared.world).withDepthLimit (some limit)
  /-- In the world that the refused call finds, every definition would be refused. -/
  raises : ∀ run definition arguments,
    let world := (Event.replay shared prepared.world).withDepthLimit (some limit)
    Dispatch.activate run frame.dispatcher name definition arguments world =
      .raised (.depthExceeded limit) (world.log (.depthExceeded name limit))
  told : ∃ answer after,
    (runStep routing allowance step).run (state.withDepthLimit (some limit)) =
        .ok (answer, after) ∧
      (answer.2.filterMap TraceRecord.refusal?).head? = some (name, limit)

variable {limit allowance : Nat} {routing : Routing} {step : Step} {state : State}

/-- Only the events of calls can part. -/
theorem ready_of_part
    (hstates : (Lockstep.limited limit).States (state.withDepthLimit (some limit)) state)
    (hparts : Event.Part (Lockstep.limited limit).settings
      (stepEvents routing allowance step (state.withDepthLimit (some limit)))
      (stepEvents routing allowance step state)) :
    ∃ prepare call prepared, prepareCall? step = some prepare ∧
      prepare.run state = .ok (call, prepared) ∧
      prepare.run (state.withDepthLimit (some limit)) =
        .ok (call, prepared.withDepthLimit (some limit)) ∧
      Event.Part (Lockstep.limited limit).settings
        (call.traced routing allowance (prepared.withDepthLimit (some limit)).world).2
        (call.traced routing allowance prepared.world).2 := by
  have hnot : ¬ Event.Part (Lockstep.limited limit).settings [] [] := by
    intro hempty
    obtain ⟨shared, _, _, _, _, hnil, -⟩ := hempty.exists_refusal
    exact absurd hnil (by simp)
  unfold stepEvents at hparts
  cases hprepare : prepareCall? step with
  | none =>
    rw [hprepare] at hparts
    exact absurd hparts hnot
  | some prepare =>
    rw [hprepare] at hparts
    dsimp only at hparts
    have hprepared := prepareCall_relates hprepare hstates (World.Extends.refl _)
    generalize hleft : prepare.run (state.withDepthLimit (some limit)) = leftResult
      at hparts hprepared
    generalize hright : prepare.run state = rightResult at hparts hprepared
    cases hprepared with
    | error malformed => exact absurd hparts hnot
    | @ok call _ leftReady prepared hsame hready _ =>
      obtain rfl := hsame.1
      obtain rfl := Lockstep.eq_of_states hready
      exact ⟨prepare, call, prepared, rfl, hright, hleft, hparts⟩

/-- A call that ends without the limit has nested its calls within the allowance, so it ends under
the limit, too, if they went beyond the limit. -/
theorem PreparedCall.limited_ends {call : PreparedCall} {moment : Moment} {frame : Frame}
    {world : World} (hmoment : moment.Reachable)
    (hdispatcher : moment.world.HasDispatcher call.dispatcher)
    (hends : (call.perform routing allowance moment.world).world? = some world)
    (hentered : .enter frame ∈ (call.traced routing allowance moment.world).2)
    (hdepth : limit ≤ frame.depth) :
    ∃ after, (call.perform routing allowance
      (moment.world.withDepthLimit (some limit))).world? = some after := by
  have houtcome : (call.traced routing allowance moment.world).1 ≠ .exhausted := by
    rw [(call.traced_describes routing allowance moment.world).1]
    intro hexhausted
    rw [hexhausted] at hends
    cases hends
  obtain ⟨-, hnested⟩ :=
    (call.traced_nests routing allowance).within moment hmoment hdispatcher houtcome
  have hframe := hnested frame hentered
  exact perform_ends (hmoment.wellFormed.limited hdispatcher limit) (by omega) routing

theorem exists_cutOff {origin : Moment} (horigin : origin.Reachable)
    (hworld : state.world = origin.world) (hnames : state.NamesExist)
    (hstates : (Lockstep.limited limit).States (state.withDepthLimit (some limit)) state)
    (hparts : Event.Part (Lockstep.limited limit).settings
      (stepEvents routing allowance step (state.withDepthLimit (some limit)))
      (stepEvents routing allowance step state))
    {answer : Answer × List TraceRecord} {after : State}
    (hrun : (runStep routing allowance step).run state = .ok (answer, after)) :
    ∃ call prepared shared name frame,
      CutOff limit routing allowance step state call prepared shared name frame := by
  obtain ⟨prepare, call, prepared, hprepare, hready, hlimitedReady, hcall⟩ :=
    ready_of_part hstates hparts
  obtain ⟨shared, name, frame, limitedRest, rest, hrefused, hentered, hdepth, hfirst⟩ :=
    hcall.exists_refusal
  obtain ⟨hprepared, -, hdispatcher⟩ :=
    prepareCall_reaches horigin hworld hnames hprepare hready
  have hbuilt : state.world.Refused prepared.world [] := hworld ▸ hprepared.refused
  have hends := world?_of_runStep hprepare hready hrun
  -- The call is made at a moment of the run without the limit.
  obtain ⟨moment, hmomentWorld, hleads⟩ := hprepared.leads
  have hmoment := horigin.leads hleads
  rw [← hmomentWorld] at hdispatcher hends hentered
  have hlegal := (call.traced_of_closed (Traced.goesInSteps_closed routing _) allowance moment
    hmoment hdispatcher).1
  have hmem : .enter frame ∈ (call.traced routing allowance moment.world).2 := by
    rw [hentered]
    exact List.mem_append_right _ List.mem_cons_self
  obtain ⟨limitedWorld, hlimitedEnds⟩ :=
    PreparedCall.limited_ends hmoment hdispatcher hends hmem hdepth
  rw [hmomentWorld] at hlimitedEnds
  obtain ⟨limitedAnswer, limitedAfter, hlimitedRun, hrefusals⟩ :=
    runStep_refusals hprepare hlimitedReady (hbuilt.withDepthLimit (some limit)) hlimitedEnds
  refine ⟨call, prepared, shared, name, frame, ?_⟩
  exact
    { ready := ⟨prepare, hprepare, hready, hlimitedReady⟩
      entered := ⟨rest, hmomentWorld ▸ hentered⟩
      refused := ⟨limitedRest, hrefused⟩
      first := hfirst
      world_eq := by
        have hprefix : shared <+: (call.traced routing allowance prepared.world).2 := by
          rw [← hmomentWorld, hentered]
          exact List.prefix_append _ _
        exact call.replay_withDepthLimit hprefix (some limit)
      raises := by
        rw [hentered] at hlegal
        rw [← hmomentWorld]
        exact fun run ↦ hlegal.refused hmoment hdepth run name
      told := by
        refine ⟨limitedAnswer, limitedAfter, hlimitedRun, ?_⟩
        rw [hrefusals, hrefused, List.filterMap_append, List.filterMap_eq_nil_iff.mpr hfirst]
        rfl }

theorem State.withDepthLimit_start (config : Config) (limit : Option Nat) :
    State.withDepthLimit { config } limit = { config := config.withDepthLimit limit } := by
  simp [State.withDepthLimit, World.withDepthLimit, World.recast, Recast.limiting, Table.map]

theorem refusals_eq_of_told {answers limitedAnswers : List (Answer × List TraceRecord)}
    (htold : List.Forall₂ (Lockstep.limited limit).Told limitedAnswers answers) :
    refusals limitedAnswers = refusals answers := by
  induction htold with
  | nil => rfl
  | cons hfirst _ ih => rw [refusals_cons, refusals_cons, hfirst.2, ih]

/-- The session goes under the limit as it does without it. -/
structure GoesThrough (limit : Nat) (routing : Routing) (allowance : Nat) (steps : List Step)
    (state : State) (answers limitedAnswers : List (Answer × List TraceRecord))
    (final : State) : Prop where
  unlimited : (runSteps routing allowance steps).run state = .ok (answers, final)
  limited : (runSteps routing allowance steps).run (state.withDepthLimit (some limit)) =
    .ok (limitedAnswers, final.withDepthLimit (some limit))
  answers_like : List.Forall₂ (SameButLimit limit) limitedAnswers answers
  events_eq : callEvents routing allowance steps (state.withDepthLimit (some limit)) =
    callEvents routing allowance steps state
  nothing_refused : (callEvents routing allowance steps state).filterMap Event.refusal? = []
  no_refusal_told : refusals limitedAnswers = []

theorem GoesThrough.of_together {origin : Moment} (horigin : origin.Reachable)
    (hworld : state.world = origin.world) (hnames : state.NamesExist) {steps : List Step}
    {answers limitedAnswers : List (Answer × List TraceRecord)} {final limitedFinal : State}
    (hunlimited : (runSteps routing allowance steps).run state = .ok (answers, final))
    (hlimited : (runSteps routing allowance steps).run (state.withDepthLimit (some limit)) =
      .ok (limitedAnswers, limitedFinal))
    (htold : List.Forall₂ (Lockstep.limited limit).Told limitedAnswers answers)
    (hfinal : (Lockstep.limited limit).States limitedFinal final)
    (hevents : callEvents routing allowance steps (state.withDepthLimit (some limit)) =
      callEvents routing allowance steps state)
    (hshared : ∀ event ∈ callEvents routing allowance steps (state.withDepthLimit (some limit)),
      event.Shared (Lockstep.limited limit).settings) :
    GoesThrough limit routing allowance steps state answers limitedAnswers final := by
  have hnone : (callEvents routing allowance steps state).filterMap Event.refusal? = [] := by
    rw [← hevents, List.filterMap_eq_nil_iff]
    exact fun event hevent ↦ (hshared event hevent).refusal?
  refine ⟨hunlimited, ?_, htold.imp fun _ _ ↦ .of_told, hevents, hnone, ?_⟩
  · rw [hlimited, Lockstep.eq_of_states hfinal]
  · rw [refusals_eq_of_told htold, runSteps_refusals horigin hworld hnames hunlimited, hnone]

variable {origin : Moment} {steps : List Step} {answers : List (Answer × List TraceRecord)}
  {final : State}

/-- A session whose calls all stay within the limit does not notice it. -/
theorem exists_goesThrough (horigin : origin.Reachable) (hworld : state.world = origin.world)
    (hnames : state.NamesExist) (hunlimited : state.withDepthLimit none = state)
    (hrun : (runSteps routing allowance steps).run state = .ok (answers, final))
    (hlimit : Event.deepest (callEvents routing allowance steps state) ≤ limit) :
    ∃ limitedAnswers,
      GoesThrough limit routing allowance steps state answers limitedAnswers final := by
  have hstates := State.states_limited hunlimited (hworld ▸ horigin.wellFormed) hnames limit
  cases Lockstep.runSteps_inStep hstates routing allowance steps with
  | together hevents hshared hresults =>
    generalize hlimited : (runSteps routing allowance steps).run
      (state.withDepthLimit (some limit)) = limitedResult at hresults
    rw [hrun] at hresults
    cases hresults with
    | ok htold hfinal _ =>
      exact ⟨_, .of_together horigin hworld hnames hrun hlimited htold hfinal hevents hshared⟩
  | parted before step after hsteps _ hbefore _ _ _ _ hparts =>
    -- The call at which the runs part is nested more deeply than the limit.
    obtain ⟨shared, name, frame, _, rest, -, hentered, hdepth, -⟩ := hparts.exists_refusal
    have hmem : .enter frame ∈ callEvents routing allowance steps state := by
      rw [hsteps, callEvents_append hbefore, callEvents, hentered]
      simp
    have hnesting := Event.nesting_le_deepest hmem
    simp only [Event.nesting] at hnesting
    omega

/-- A session with a call beyond the limit goes through up to the step that makes the first such
call, and is cut off there. -/
theorem exists_cutOff_step (horigin : origin.Reachable) (hworld : state.world = origin.world)
    (hnames : state.NamesExist) (hunlimited : state.withDepthLimit none = state)
    (hrun : (runSteps routing allowance steps).run state = .ok (answers, final))
    (hlimit : limit < Event.deepest (callEvents routing allowance steps state)) :
    ∃ before step after, steps = before ++ step :: after ∧
      ∃ earlier limitedEarlier middle,
        GoesThrough limit routing allowance before state earlier limitedEarlier middle ∧
          ∃ call prepared shared name frame,
            CutOff limit routing allowance step middle call prepared shared name frame := by
  have hstates := State.states_limited hunlimited (hworld ▸ horigin.wellFormed) hnames limit
  cases Lockstep.runSteps_inStep hstates routing allowance steps with
  | together hevents hshared _ =>
    obtain ⟨frame, hframe, hdepth⟩ := Event.exists_enter_of_lt_deepest hlimit
    rw [← hevents] at hframe
    exact absurd (hshared _ hframe).depth_lt (Nat.not_lt.mpr hdepth)
  | @parted before step after hsteps limitedMiddle middle limitedEarlier earlier hlimitedBefore
      hbefore htold hmiddle hevents hshared hparts =>
    obtain rfl := Lockstep.eq_of_states hmiddle
    obtain ⟨hreaches, hmiddleNames⟩ := runSteps_reaches horigin hworld hnames hbefore
    obtain ⟨later, hlater, hleads⟩ := hreaches.leads
    rw [hsteps, run_runSteps_append hbefore] at hrun
    cases hrest : (runSteps routing allowance (step :: after)).run middle with
    | error malformed =>
      rw [hrest] at hrun
      cases hrun
    | ok result =>
      obtain ⟨answer, next, others, hstep, -, -⟩ := runSteps_cons_ok hrest
      exact ⟨before, step, after, hsteps, earlier, limitedEarlier, middle,
        .of_together horigin hworld hnames hbefore hlimitedBefore htold hmiddle hevents hshared,
        exists_cutOff (horigin.leads hleads) hlater.symm hmiddleNames hmiddle hparts hstep⟩

end Session

/-! ## The limit only cuts off -/

/-- Let a session go through without a depth limit, from the start or from any other moment at
which no registry has one.  Under a limit that is not less than the deepest nesting of its calls it
goes through in the same way, and no call is refused.  Under a lower limit it goes in the same way
up to a call that is refused, with the fault that names the limit.  Wherever a body or a call of a
session ends with such a fault, a refused call is among its events, so that faults which are caught
are not missed. -/
theorem depth_limit_cuts_off {moment : Moment} (hmoment : moment.Reachable) {state : State}
    (hworld : state.world = moment.world) (hnames : state.NamesExist)
    (hunlimited : state.withDepthLimit none = state) {routing : Routing} {allowance : Nat}
    {steps : List Step} {answers : List (Answer × List TraceRecord)} {final : State}
    (hrun : (runSteps routing allowance steps).run state = .ok (answers, final)) :
    let events := callEvents routing allowance steps state
    moment.Reaches (events.filter Event.isOfCall) final.world ∧
    (∀ limit, Event.deepest events ≤ limit →
      ∃ limitedAnswers,
        GoesThrough limit routing allowance steps state answers limitedAnswers final) ∧
    (∀ limit, limit < Event.deepest events →
      ∃ before step after, steps = before ++ step :: after ∧
        ∃ earlier limitedEarlier middle,
          GoesThrough limit routing allowance before state earlier limitedEarlier middle ∧
            ∃ call prepared shared name frame,
              CutOff limit routing allowance step middle call prepared shared name frame) ∧
    (∀ dispatcher arguments (body : Body Value) world limit,
      (body.eval routing (run routing allowance) dispatcher arguments world).overflow? =
          some limit →
        ∃ name, .effect (.refuseCall name limit) ∈
          (body.interpret (.tracing routing (tracedRun routing allowance) dispatcher) arguments
            world).2) ∧
    ∀ (call : PreparedCall) world limit,
      (call.perform routing allowance world).overflow? = some limit →
        ∃ name, .effect (.refuseCall name limit) ∈ (call.traced routing allowance world).2 := by
  intro events
  refine ⟨(runSteps_reaches hmoment hworld hnames hrun).1,
    fun limit hlimit ↦ exists_goesThrough hmoment hworld hnames hunlimited hrun hlimit,
    fun limit hlimit ↦ exists_cutOff_step hmoment hworld hnames hunlimited hrun hlimit, ?_, ?_⟩
  · intro dispatcher arguments body world limit hoverflow
    have hclosed := Traced.accounts_closed routing dispatcher
    refine hclosed.interpret (hclosed.call (hclosed.tracedRun allowance)) arguments body world
      limit ?_
    rw [(Traced.interpret_describes (Traced.tracedRun_describes routing allowance dispatcher)
      routing arguments body world).1]
    exact hoverflow
  · intro call world limit hoverflow
    refine call.traced_of_closed (Traced.accounts_closed routing _) allowance world limit ?_
    rw [(call.traced_describes routing allowance world).1]
    exact hoverflow

/-- A function that calls another one and catches its faults: two calls nested.  A limit of two
makes no difference, and under a limit of one the inner call is refused. -/
theorem depth_limit_cuts_off_two_nested :
    let steps : List Step :=
      [.register "g" { body := .depth } "main",
        .register "f" { body := .attempt (.call "g" []) .argumentCount } "main",
        .call (.named "f") [] "main"]
    Event.deepest (callEvents .cached 2 steps {}) = 2 ∧
      ∃ answers final, execute .cached 2 {} steps = .ok (answers, final) ∧
        (∃ limitedAnswers, GoesThrough 2 .cached 2 steps {} answers limitedAnswers final) ∧
        ∃ before step after, steps = before ++ step :: after ∧
          ∃ earlier limitedEarlier middle,
            GoesThrough 1 .cached 2 before {} earlier limitedEarlier middle ∧
              ∃ call prepared shared name frame,
                CutOff 1 .cached 2 step middle call prepared shared name frame := by
  intro steps
  have hdeepest : Event.deepest (callEvents .cached 2 steps {}) = 2 := by decide +kernel
  have hends : (execute .cached 2 {} steps).toOption.isSome = true := by decide +kernel
  refine ⟨hdeepest, ?_⟩
  cases hrun : execute .cached 2 {} steps with
  | error malformed =>
    rw [hrun] at hends
    cases hends
  | ok result =>
    obtain ⟨answers, final⟩ := result
    obtain ⟨-, hsame, hcut, -⟩ := depth_limit_cuts_off .start rfl (State.namesExist_start {})
      (State.withDepthLimit_start {} none) hrun
    exact ⟨answers, final, rfl, hsame 2 (Nat.le_of_eq hdeepest), hcut 1 (by rw [hdeepest]; decide)⟩

end GuestCore
