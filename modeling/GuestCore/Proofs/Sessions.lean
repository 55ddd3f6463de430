import GuestCore.Proofs.SessionSimulation
import GuestCore.Proofs.Tracking

/-!
# Sessions in Steps

Every session goes through steps from moment to moment, and it gives the same answers, up to the
answers about call sites, as the session that leaves call sites alone.
-/

namespace GuestCore

namespace Session

/-! ## States that look the same -/

namespace State

/-- The state without what call sites remember and without the trace. -/
def visible (state : State) : State :=
  { state with world := state.world.visible }

theorem visible_eq_iff {left right : State} :
    left.visible = right.visible ↔
      left.world.visible = right.world.visible ∧ left.config = right.config ∧
        left.registries = right.registries ∧ left.batches = right.batches ∧
          left.slots = right.slots := by
  constructor
  · intro hvisible
    have hparts := State.mk.inj hvisible
    exact ⟨hparts.2.1, hparts.1, hparts.2.2.1, hparts.2.2.2.1, hparts.2.2.2.2⟩
  · rintro ⟨hworld, hconfig, hregistries, hbatches, hslots⟩
    simp only [visible, hworld, hconfig, hregistries, hbatches, hslots]

end State

/-- The left state is at a moment after the origin at which the same calls are active, and the
right one looks the same. -/
structure Tracks (origin : Moment) (left right : State) : Prop where
  visible_eq : left.visible = right.visible
  names : left.NamesExist
  leads : ∃ journal, origin.Leads ⟨left.world, origin.active, journal⟩

variable {origin : Moment}

namespace Tracks

variable {left right : State}

theorem states (htracks : Tracks origin left right) (horigin : origin.Reachable) :
    (Moment.tracking horigin origin.active).States left right := by
  obtain ⟨hworld, hconfig, hregistries, hbatches, hslots⟩ :=
    State.visible_eq_iff.mp htracks.visible_eq
  exact ⟨⟨hworld, htracks.leads⟩, hconfig, hregistries, hbatches, hslots, htracks.names⟩

theorem of_states {horigin : origin.Reachable}
    (hstates : (Moment.tracking horigin origin.active).States left right) :
    Tracks origin left right where
  visible_eq := State.visible_eq_iff.mpr ⟨hstates.worlds.visible_eq, hstates.settings,
    hstates.registries, hstates.batches, hstates.slots⟩
  names := hstates.names
  leads := hstates.worlds.leads

end Tracks

/-! ## Calls and answers -/

/-- The answer without what it tells of call sites. -/
def Answer.visible : Answer → Answer
  | .call shown depth _ => .call shown depth none
  | .site _ _ => .site (.ofSite {}) ""
  | answer => answer

/-- A call agrees with the call that leaves call sites alone, wherever it begins. -/
theorem PreparedCall.perform_agree (horigin : origin.Reachable) (call : PreparedCall)
    {later : World} (hdispatcher : later.HasDispatcher call.dispatcher) (routing : Routing)
    (allowance : Nat) :
    Action.Agree ((Moment.tracking horigin origin.active).After later)
      (call.perform routing allowance) (call.perform .generic allowance) := by
  intro left right hafter
  obtain ⟨hvisible, journal, hleads⟩ := hafter.worlds
  let current : Moment := ⟨left, origin.active, journal⟩
  have hcurrent : current.Reachable := horigin.leads hleads
  have hexists : current.world.HasDispatcher call.dispatcher :=
    hafter.extends_base.hasDispatcher hdispatcher
  have hstart : current.Tracks current.active left right := ⟨hvisible, journal, .refl⟩
  have hends : (call.perform routing allowance left).Agree (current.Tracks current.active)
      (call.perform .generic allowance right) := by
    unfold perform
    cases call.callable with
    | route route =>
      exact Route.call_agree hcurrent hexists routing allowance call.arguments route hstart
    | receiver receiver =>
      exact receiver.execute_agree hcurrent hexists routing allowance call.arguments hstart
  refine hends.mono fun leftAfter rightAfter htracks ↦ ?_
  obtain ⟨moreJournal, hmore⟩ := htracks.leads
  exact ⟨⟨htracks.visible_eq, moreJournal, hleads.trans hmore⟩,
    hafter.extends_base.trans htracks.origin_extends⟩

/-- Answers look the same if they differ in what they tell of call sites alone. -/
theorem Answer.Like.visible_eq {sites : Site → Site → Prop} {left right : Answer}
    (hlike : Answer.Like Eq sites left right) : left.visible = right.visible := by
  cases hlike with
  | same => rfl
  | functions _ _ hsettings | dispatcher _ _ hsettings => rw [hsettings]
  | call | site => rfl

/-! ## Running -/

/-- The answers without what they tell of call sites, and without the records of the trace. -/
def visibleAnswers (answers : List (Answer × List TraceRecord)) : List Answer :=
  answers.map fun answer ↦ answer.1.visible

/-- What a session ends with, apart from call sites and the trace. -/
def visibleResult (result : List (Answer × List TraceRecord) × State) : List Answer × State :=
  (visibleAnswers result.1, result.2.visible)

/-- Two results with the same error, or with the same visible answers in states that look the
same. -/
inductive ResultsAgree (origin : Moment) :
    Except Malformed (List (Answer × List TraceRecord) × State) →
      Except Malformed (List (Answer × List TraceRecord) × State) → Prop where
  | ok {leftAnswers rightAnswers : List (Answer × List TraceRecord)} {left right : State}
      (hanswers : visibleAnswers leftAnswers = visibleAnswers rightAnswers)
      (htracks : Tracks origin left right) :
    ResultsAgree origin (.ok (leftAnswers, left)) (.ok (rightAnswers, right))
  | error (malformed : Malformed) : ResultsAgree origin (.error malformed) (.error malformed)

theorem runSteps_agree (horigin : origin.Reachable) (routing : Routing) (allowance : Nat)
    (steps : List Step) {left right : State} (htracks : Tracks origin left right) :
    ResultsAgree origin ((runSteps routing allowance steps).run left)
      ((runSteps .generic allowance steps).run right) := by
  have hcalls (later : World) (call : PreparedCall) (_ : origin.world.Extends later)
      (hdispatcher : later.HasDispatcher call.dispatcher) :=
    call.perform_agree horigin hdispatcher routing allowance
  have hextends := (htracks.states horigin).worlds.origin_extends
  have hends := runSteps_relates hcalls steps (htracks.states horigin) hextends
  generalize (runSteps routing allowance steps).run left = leftResult at hends
  generalize (runSteps .generic allowance steps).run right = rightResult at hends
  cases hends with
  | error malformed => exact .error malformed
  | ok hanswers hstates _ =>
    refine .ok ?_ (.of_states hstates)
    induction hanswers with
    | nil => rfl
    | cons hlike _ ih => exact List.cons_eq_cons.mpr ⟨hlike.visible_eq, ih⟩

/-- A state with existing names, at a moment. -/
theorem Tracks.refl {state : State} (hworld : state.world = origin.world)
    (hnames : state.NamesExist) : Tracks origin state state :=
  ⟨rfl, hnames, origin.journal, by rw [hworld]; exact .refl⟩

/-- A session that begins at a reachable moment goes through steps. -/
theorem runSteps_leads {routing : Routing} {allowance : Nat} {steps : List Step}
    {state final : State} {answers : List (Answer × List TraceRecord)}
    (horigin : origin.Reachable) (hworld : state.world = origin.world)
    (hnames : state.NamesExist)
    (hrun : (runSteps routing allowance steps).run state = .ok (answers, final)) :
    final.NamesExist ∧ ∃ journal, origin.Leads ⟨final.world, origin.active, journal⟩ := by
  have hagree := runSteps_agree horigin routing allowance steps (.refl hworld hnames)
  rw [hrun] at hagree
  generalize (runSteps .generic allowance steps).run state = genericResult at hagree
  cases hagree with
  | ok _ htracks => exact ⟨htracks.names, htracks.leads⟩

/-- Every session ends at a reachable moment. -/
theorem execute_reachable {routing : Routing} {allowance : Nat} {config : Config}
    {steps : List Step} {final : State} {answers : List (Answer × List TraceRecord)}
    (hrun : execute routing allowance config steps = .ok (answers, final)) :
    ∃ journal, Moment.Reachable ⟨final.world, [], journal⟩ :=
  (runSteps_leads .start rfl (State.namesExist_start config) hrun).2

/-! ## Caching is invisible -/

theorem ResultsAgree.map_visibleResult_eq
    {left right : Except Malformed (List (Answer × List TraceRecord) × State)}
    (hagree : ResultsAgree origin left right) :
    left.map visibleResult = right.map visibleResult := by
  cases hagree with
  | ok hanswers htracks =>
    exact congrArg Except.ok (Prod.ext hanswers htracks.visible_eq)
  | error malformed => rfl

/-- Whatever a session does, and whatever its call sites are allowed to remember, it gives the
same answers and ends in the same state as the session whose calls at call sites are plain calls.
This holds for a session from the beginning, and for one that takes over at any moment of any
run, where the registries may have different settings. -/
theorem cached_eq_generic (allowance : Nat) (steps : List Step) :
    (∀ config : Config,
      (execute .cached allowance config steps).map visibleResult =
        (execute .generic allowance config steps).map visibleResult) ∧
    ∀ (moment : Moment) (state : State), moment.Reachable → state.world = moment.world →
      state.NamesExist →
        ((runSteps .cached allowance steps).run state).map visibleResult =
          ((runSteps .generic allowance steps).run state).map visibleResult := by
  have hruns : ∀ (moment : Moment) (state : State), moment.Reachable →
      state.world = moment.world → state.NamesExist →
        ((runSteps .cached allowance steps).run state).map visibleResult =
          ((runSteps .generic allowance steps).run state).map visibleResult := by
    intro moment state hmoment hworld hnames
    have hagree := runSteps_agree hmoment .cached allowance steps (.refl hworld hnames)
    exact hagree.map_visibleResult_eq
  refine ⟨fun config ↦ ?_, hruns⟩
  exact hruns Moment.start { config } .start rfl (State.namesExist_start config)

/-- A function is called three times at one call site, and replaced after the second time. -/
def redefinitionSession : List Step :=
  let register := fun value ↦ .register "f" { body := .constant (.integer value) } "main"
  let call := .call (.throughSite "site" (.function "f" "main")) [] "main"
  [register 1, call, call, register 2, call]

/-- The second call uses what the site remembers, and the third finds it outdated; the answers are
those of plain calls all the same. -/
theorem cached_eq_generic_redefinitionSession :
    (execute .cached 3 {} redefinitionSession).toOption.map
        (fun result ↦ (result.2.world.site "site").fastHits) = some 1 ∧
      (execute .cached 3 {} redefinitionSession).map visibleResult =
        (execute .generic 3 {} redefinitionSession).map visibleResult ∧
      ((runSteps .cached 3 redefinitionSession).run {}).map visibleResult =
        ((runSteps .generic 3 redefinitionSession).run {}).map visibleResult :=
  ⟨by decide +kernel, (cached_eq_generic 3 redefinitionSession).1 {},
    (cached_eq_generic 3 redefinitionSession).2 .start {} .start rfl
      (State.namesExist_start {})⟩

end Session

end GuestCore
