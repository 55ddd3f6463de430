import GuestCore.Proofs.Operands
import GuestCore.Proofs.Records

/-!
# Refused Calls

A call that the depth limit forbids is refused: it raises a fault, and the trace says so.  Nothing
else writes such a record, and nothing else raises such a fault.  So the refusals of a run, whether
their faults are caught or not, can be read off its events as well as off its trace.
-/

namespace GuestCore

open Session

/-- The name and the limit, if the record is that of a refused call. -/
def TraceRecord.refusal? : TraceRecord → Option (String × Nat)
  | depthExceeded name limit => some (name, limit)
  | _ => none

/-- The name and the limit, if a call is refused. -/
def Event.refusal? : Event → Option (String × Nat)
  | effect (.refuseCall name limit) => some (name, limit)
  | _ => none

/-! ## Refusals in the trace -/

theorem TraceRecord.refusal?_of_isOfSite {record : TraceRecord} (hsite : record.isOfSite = true) :
    record.refusal? = none := by
  cases record with
  | fastPathHit | generationMismatch | refreshedSite | megamorphicSite => rfl
  | _ => cases hsite

/-- An effect tells of a refused call exactly if it is one. -/
theorem Effect.filterMap_refusal?_records (effect : Effect) (world : World) :
    (effect.records world).filterMap TraceRecord.refusal? =
      (Event.effect effect).refusal?.toList := by
  cases effect with
  | findOrCreate registry name =>
    simp only [records]
    split <;> rfl
  | beginBatch registry batch =>
    simp only [records]
    split <;> rfl
  | noteCall dispatcher site function =>
    exact List.filterMap_eq_nil_iff.mpr fun record hrecord ↦ TraceRecord.refusal?_of_isOfSite
      (world.isOfSite_callRecords dispatcher site function record hrecord)
  | _ => rfl

namespace World

variable {before middle after : World} {refusals more : List (String × Nat)}

/-- The trace has grown, and these calls were refused meanwhile. -/
def Refused (before after : World) (refusals : List (String × Nat)) : Prop :=
  ∃ records, after.history = records ++ before.history ∧
    records.reverse.filterMap TraceRecord.refusal? = refusals

namespace Refused

theorem of_history_eq (hhistory : after.history = before.history) : before.Refused after [] :=
  ⟨[], hhistory, rfl⟩

theorem trans (hfirst : before.Refused middle refusals) (hnext : middle.Refused after more) :
    before.Refused after (refusals ++ more) := by
  obtain ⟨first, hfirst, rfl⟩ := hfirst
  obtain ⟨next, hnext, rfl⟩ := hnext
  refine ⟨next ++ first, ?_, ?_⟩
  · rw [hnext, hfirst, List.append_assoc]
  · rw [List.reverse_append, List.filterMap_append]

theorem effect (effect : Effect) (world : World) :
    world.Refused (effect.apply world) (Event.effect effect).refusal?.toList := by
  refine ⟨(effect.records world).reverse, ?_, ?_⟩
  · have htrace := congrArg List.reverse (effect.trace_apply world)
    simpa only [World.trace, List.reverse_append, List.reverse_reverse] using htrace
  · rw [List.reverse_reverse, effect.filterMap_refusal?_records]

theorem replay (events : List Event) (world : World) :
    world.Refused (Event.replay events world) (events.filterMap Event.refusal?) := by
  induction events generalizing world with
  | nil => exact of_history_eq rfl
  | cons event rest ih =>
    have hfirst : world.Refused (event.apply world) event.refusal?.toList := by
      cases event with
      | effect change => exact effect change world
      | enter | leave => exact of_history_eq rfl
    have hall := hfirst.trans (ih (event.apply world))
    cases hrefusal : event.refusal? <;> simpa [hrefusal] using hall

/-- The records since some moment show what was refused since then. -/
theorem recordsSince (hrefused : before.Refused after refusals) :
    (recordsSince before.history.length after).filterMap TraceRecord.refusal? = refusals := by
  obtain ⟨records, hhistory, rfl⟩ := hrefused
  simp [Session.recordsSince, hhistory]

end Refused

end World

/-- All refusals are those of calls. -/
theorem Event.filterMap_refusal?_filter (events : List Event) :
    (events.filter Event.isOfCall).filterMap Event.refusal? = events.filterMap Event.refusal? := by
  rw [List.filterMap_filter]
  refine List.filterMap_congr fun event _ ↦ ?_
  cases event with
  | enter | leave => rfl
  | effect change => cases change <;> rfl

theorem Moment.Reaches.refused {origin : Moment} {calls : List Event} {world : World}
    (hreaches : origin.Reaches calls world) :
    origin.world.Refused world (calls.filterMap Event.refusal?) := by
  obtain ⟨events, -, rfl, -, rfl⟩ := hreaches
  rw [Event.filterMap_refusal?_filter, Moment.world_followAll]
  exact World.Refused.replay events origin.world

namespace Session

/-- The calls that were refused in the steps that gave the answers. -/
def refusals (answers : List (Answer × List TraceRecord)) : List (String × Nat) :=
  (answers.flatMap Prod.snd).filterMap TraceRecord.refusal?

theorem refusals_cons (answer : Answer × List TraceRecord)
    (answers : List (Answer × List TraceRecord)) :
    refusals (answer :: answers) = answer.2.filterMap TraceRecord.refusal? ++ refusals answers := by
  simp [refusals]

variable {origin : Moment} {routing : Routing} {allowance : Nat} {state : State}

/-- What the answers of a session show to be refused are the refusals of its calls. -/
theorem runSteps_refusals (horigin : origin.Reachable) (hworld : state.world = origin.world)
    (hnames : state.NamesExist) {steps : List Step} {final : State}
    {answers : List (Answer × List TraceRecord)}
    (hrun : (runSteps routing allowance steps).run state = .ok (answers, final)) :
    refusals answers = (callEvents routing allowance steps state).filterMap Event.refusal? := by
  induction steps generalizing origin state answers with
  | nil =>
    cases hrun
    rfl
  | cons step rest ih =>
    obtain ⟨answer, middle, others, hstep, hrest, rfl⟩ := runSteps_cons_ok hrun
    obtain ⟨hanswer, hrecords⟩ := answerStep_ok_of_runStep hstep
    obtain ⟨hfirst, hmiddle⟩ := answerStep_reaches horigin hworld hnames hanswer
    obtain ⟨later, hlater, hleads⟩ := hfirst.leads
    rw [refusals_cons, hrecords, hworld, hfirst.refused.recordsSince,
      Event.filterMap_refusal?_filter, ih (horigin.leads hleads) hlater.symm hmiddle hrest,
      callEvents_of_ok hstep, List.filterMap_append]

/-- A step whose call ends shows the refusals of the call, if there were none before it. -/
theorem runStep_refusals {step : Step} {prepare : Script PreparedCall}
    (hprepare : prepareCall? step = some prepare) {call : PreparedCall} {prepared : State}
    (hready : prepare.run state = .ok (call, prepared))
    (hquiet : state.world.Refused prepared.world []) {world : World}
    (hends : (call.perform routing allowance prepared.world).world? = some world) :
    ∃ answer after, (runStep routing allowance step).run state = .ok (answer, after) ∧
      answer.2.filterMap TraceRecord.refusal? =
        (call.traced routing allowance prepared.world).2.filterMap Event.refusal? := by
  obtain ⟨answer, hanswer⟩ := call.conclude_of_world? hends
  have hstep : (answerStep routing allowance step).run state =
      .ok (answer, { prepared with world }) := by
    rw [run_answerStep_of_prepared hprepare, hready]
    exact hanswer
  have hcall := World.Refused.replay (call.traced routing allowance prepared.world).2 prepared.world
  rw [(call.traced_describes routing allowance prepared.world).2 world hends] at hcall
  refine ⟨(answer, recordsSince state.world.history.length world), { prepared with world }, ?_,
    (hquiet.trans hcall).recordsSince⟩
  rw [run_runStep, hstep]
  rfl

end Session

/-! ## Refusals and faults -/

namespace Outcome

variable {α : Type}

/-- The limit, if the outcome is the fault of a refused call. -/
def overflow? : Outcome α → Option Nat
  | raised fault _ =>
    match fault.kind with
    | .depthExceeded limit => some limit
    | _ => none
  | returned _ _ | exhausted => none

theorem overflow?_mapWorld (change : World → World) (outcome : Outcome α) :
    (outcome.mapWorld change).overflow? = outcome.overflow? := by
  cases outcome <;> rfl

end Outcome

theorem Operator.overflow?_run (operator : BinaryOperator) (operation : Operation)
    (left right : Receiver) (world : World) :
    (Operator.run operator operation left right world).overflow? = none := by
  unfold Operator.run
  cases happly : Operator.apply world operator operation left right with
  | ok scalar => cases scalar <;> rfl
  | error fault =>
    rw [eq_typeError_of_apply happly]
    rfl

/-- What bodies do by themselves raises faults of other kinds. -/
theorem Body.Leaf.overflow?_perform {α : Type} (dispatcher : DispatcherId) (world : World)
    (part : Leaf α) : (part.perform dispatcher world).overflow? = none := by
  cases part with
  | depth | newList | findOrCreate | register | registerBatch | fail | notExecutable => rfl
  | operator op operation left right => exact Operator.overflow?_run op operation _ _ world
  | readMember value member =>
    simp only [perform, Value.readMember]
    cases value.object? with
    | none => rfl
    | some object =>
      simp only [Members.read]
      cases (world.members object).get? member <;> rfl
  | writeMember value member content =>
    simp only [perform, Value.writeMember]
    cases value.object? <;> rfl
  | removeMember value member =>
    simp only [perform, Value.removeMember]
    cases value.object? with
    | none => rfl
    | some object =>
      simp only [Members.remove]
      cases (world.members object).get? member <;> rfl

theorem FunctionState.target_error {state : FunctionState} {fault : Fault}
    (htarget : state.target = .error fault) : ∃ name, fault = .undefinedFunction name := by
  unfold target at htarget
  split at htarget <;> cases htarget
  exact ⟨_, rfl⟩

/-- What is not found is a function, or its definition. -/
theorem Route.target_error {routing : Routing} {world : World} {dispatcher : DispatcherId}
    {route : Route} {fault : Fault}
    (htarget : route.target routing world dispatcher = .error fault) :
    ∃ name, fault = .undefinedFunction name := by
  cases route with
  | direct | executed => exact FunctionState.target_error htarget
  | named name =>
    simp only [target] at htarget
    split at htarget
    · exact FunctionState.target_error htarget
    · cases htarget
      exact ⟨name, rfl⟩
  | throughSite site callee =>
    simp only [target] at htarget
    split at htarget
    · cases htarget
    all_goals exact FunctionState.target_error htarget

namespace Traced

variable {α β : Type}

/-- Whenever the computation ends with the fault of a refused call, a call was refused. -/
def Accounts (traced : Traced α) : Prop :=
  ∀ world limit, (traced world).1.overflow? = some limit →
    ∃ name, .effect (.refuseCall name limit) ∈ (traced world).2

namespace Accounts

variable {first fallback : Traced α}

theorem of_overflow?_eq_none {traced : Traced α}
    (hnone : ∀ world, (traced world).1.overflow? = none) : traced.Accounts := by
  intro world limit hoverflow
  rw [hnone world] at hoverflow
  cases hoverflow

theorem bind {next : α → Traced β} (hfirst : first.Accounts)
    (hnext : ∀ value, (next value).Accounts) : Accounts (first >>= next) := by
  intro world limit hoverflow
  have hearly := hfirst world limit
  change (Traced.bind first next world).1.overflow? = some limit at hoverflow
  change ∃ name, _ ∈ (Traced.bind first next world).2
  unfold Traced.bind at hoverflow ⊢
  generalize first world = result at hearly hoverflow
  obtain ⟨outcome, events⟩ := result
  cases outcome with
  | returned value middle =>
    obtain ⟨name, hrefused⟩ := hnext value middle limit hoverflow
    exact ⟨name, List.mem_append_right _ hrefused⟩
  | raised fault middle => exact hearly hoverflow
  | exhausted => cases hoverflow

theorem orElse (hfallback : fallback.Accounts) : Accounts (first.orElse fallback) := by
  intro world limit hoverflow
  unfold Traced.orElse at hoverflow ⊢
  generalize first world = result at hoverflow
  obtain ⟨outcome, events⟩ := result
  cases outcome with
  | returned | exhausted => cases hoverflow
  | raised fault middle =>
    obtain ⟨name, hrefused⟩ := hfallback middle limit hoverflow
    exact ⟨name, List.mem_append_right _ hrefused⟩

end Accounts

section Calls

variable {traced : TracedRunner} {dispatcher : DispatcherId}

theorem activate_accounts
    (hrun : ∀ definition arguments, (traced dispatcher definition arguments).Accounts)
    (name : String) (definition : Definition) (arguments : List Value) :
    (activate traced dispatcher arguments name definition).Accounts := by
  intro world limit hoverflow
  unfold activate at hoverflow ⊢
  dsimp only at hoverflow ⊢
  cases hreached : (world.configOf dispatcher).reachedLimit? (world.depth dispatcher) with
  | some reached =>
    rw [hreached] at hoverflow
    obtain rfl : reached = limit := Option.some.inj hoverflow
    exact ⟨name, List.mem_singleton_self _⟩
  | none =>
    rw [hreached] at hoverflow
    dsimp only at hoverflow ⊢
    rw [Outcome.overflow?_mapWorld] at hoverflow
    obtain ⟨callee, hrefused⟩ := hrun definition arguments _ limit hoverflow
    exact ⟨callee, List.mem_cons_of_mem _ (List.mem_append_left _ hrefused)⟩

theorem call_accounts
    (hrun : ∀ definition arguments, (traced dispatcher definition arguments).Accounts)
    (arguments : List Value) (routing : Routing) (route : Route) :
    (call traced dispatcher arguments routing route).Accounts := by
  intro world limit hoverflow
  unfold call at hoverflow ⊢
  cases htarget : route.target routing world dispatcher with
  | ok found =>
    rw [htarget] at hoverflow
    obtain ⟨name, hrefused⟩ :=
      activate_accounts hrun found.1 found.2 arguments _ limit hoverflow
    exact ⟨name, List.mem_append_right _ hrefused⟩
  | error fault =>
    rw [htarget] at hoverflow
    obtain ⟨name, rfl⟩ := Route.target_error htarget
    cases hoverflow

end Calls

/-- A fault caught on the way is accounted for, too, as all events are told. -/
theorem accounts_closed (routing : Routing) (dispatcher : DispatcherId) :
    Closed routing dispatcher Accounts where
  pure _ := .of_overflow?_eq_none fun _ ↦ rfl
  bind := .bind
  orElse _ := .orElse
  leaf part := .of_overflow?_eq_none fun world ↦ part.overflow?_perform dispatcher world
  call hrun arguments route := call_accounts hrun arguments routing route
  exhausted := .of_overflow?_eq_none fun _ ↦ rfl

end Traced

end GuestCore
