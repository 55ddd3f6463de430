import GuestCore.Proofs.SessionEvents

/-!
# Runs in Lockstep

A simulation that calls keep, too, takes two runs through the same events, until a call is refused
on one side alone, because the limit there is lower.  Up to such a call, everything is the same on
both sides; without such a call, the runs end alike.
-/

namespace GuestCore

open Session

/-! ## Events on both sides -/

/-- A simulation that calls keep, with the same call sites and the same records on both sides.  A
call that is refused on the right is refused on the left, under the same limit. -/
structure Lockstep extends Simulation where
  event : ∀ {left right : World}, worlds left right → ∀ event : Event, event.isOfCall = true →
    worlds (event.apply left) (event.apply right)
  site_eq : ∀ {left right : World}, worlds left right → ∀ name : String,
    left.site name = right.site name
  records_eq : ∀ {left right leftAfter rightAfter : World}, worlds left right →
    worlds leftAfter rightAfter →
      recordsSince left.history.length leftAfter = recordsSince right.history.length rightAfter
  refused : ∀ {left right : Config}, settings left right → ∀ {depth limit : Nat},
    right.reachedLimit? depth = some limit → left.reachedLimit? depth = some limit

namespace Event

/-- Why a call is entered, or refused, on both sides. -/
def Shared (settings : Config → Config → Prop) : Event → Prop
  | enter frame => ∃ left right, settings left right ∧ left.reachedLimit? frame.depth = none
  | effect (.refuseCall _ limit) =>
    ∃ left right depth, settings left right ∧ right.reachedLimit? depth = some limit
  | _ => True

/-- Two lists of events are the same up to a call that is refused on the left and entered on the
right. -/
inductive Part (settings : Config → Config → Prop) : List Event → List Event → Prop where
  | intro (shared : List Event) (hshared : ∀ event ∈ shared, event.Shared settings)
      (name : String) (frame : Frame) {left right : Config} {limit : Nat}
      (hsettings : settings left right) (hleft : left.reachedLimit? frame.depth = some limit)
      (hright : right.reachedLimit? frame.depth = none) (leftRest rightRest : List Event) :
    Part settings (shared ++ .effect (.refuseCall name limit) :: leftRest)
      (shared ++ .enter frame :: rightRest)

namespace Part

variable {settings : Config → Config → Prop} {left right : List Event}

/-- What comes after the runs have parted does not matter. -/
theorem extend {longerLeft longerRight : List Event} (hpart : Part settings left right)
    (hleft : left <+: longerLeft) (hright : right <+: longerRight) :
    Part settings longerLeft longerRight := by
  obtain ⟨shared, hshared, name, frame, hsettings, hreached, hfree, leftRest, rightRest⟩ := hpart
  obtain ⟨moreLeft, rfl⟩ := hleft
  obtain ⟨moreRight, rfl⟩ := hright
  simp only [List.append_assoc, List.cons_append]
  exact .intro shared hshared name frame hsettings hreached hfree _ _

theorem prepend (hpart : Part settings left right) {before : List Event}
    (hbefore : ∀ event ∈ before, event.Shared settings) :
    Part settings (before ++ left) (before ++ right) := by
  obtain ⟨shared, hshared, name, frame, hsettings, hleft, hright, leftRest, rightRest⟩ := hpart
  rw [← List.append_assoc, ← List.append_assoc]
  exact .intro _ (List.forall_mem_append.mpr ⟨hbefore, hshared⟩) name frame hsettings hleft
    hright _ _

/-- With the same settings on both sides, no call is refused on one side alone. -/
theorem not_of_settings_eq (hsettings : ∀ left right, settings left right → left = right) :
    ¬ Part settings left right := by
  rintro ⟨_, _, _, _, hrelated, hreached, hfree, _, _⟩
  rw [hsettings _ _ hrelated, hfree] at hreached
  cases hreached

end Part

end Event

theorem Effect.shared_of_isPlain {settings : Config → Config → Prop} {effect : Effect}
    (hplain : effect.isPlain = true) : (Event.effect effect).Shared settings := by
  cases effect with
  | refuseCall => cases hplain
  | _ => trivial

namespace Traced

variable {α β : Type}

theorem prefix_bind (first : Traced α) (next : α → Traced β) (world : World) :
    (first world).2 <+: ((first >>= next) world).2 := by
  change (first world).2 <+: (Traced.bind first next world).2
  unfold Traced.bind
  obtain ⟨outcome, events⟩ := first world
  cases outcome with
  | returned value after => exact List.prefix_append _ _
  | raised | exhausted => exact List.prefix_rfl

theorem prefix_orElse (first fallback : Traced α) (world : World) :
    (first world).2 <+: (first.orElse fallback world).2 := by
  unfold Traced.orElse
  obtain ⟨outcome, events⟩ := first world
  cases outcome with
  | raised fault after => exact List.prefix_append _ _
  | returned | exhausted => exact List.prefix_rfl

end Traced

namespace Lockstep

variable {lockstep : Lockstep} {base left right : World} {dispatcher : DispatcherId}
  {α β : Type}

/-- Two results that came about through the same events, or that parted on the way. -/
inductive InStep (lockstep : Lockstep) (base : World) :
    Outcome α × List Event → Outcome α × List Event → Prop where
  | together {left right : Outcome α} {events : List Event}
      (hshared : ∀ event ∈ events, event.Shared lockstep.settings)
      (hends : left.Agree (lockstep.After base) right) :
    InStep lockstep base (left, events) (right, events)
  | parted {left right : Outcome α} {leftEvents rightEvents : List Event}
      (hparts : Event.Part lockstep.settings leftEvents rightEvents) :
    InStep lockstep base (left, leftEvents) (right, rightEvents)

/-- From related worlds the computation goes in step. -/
def Keeps (lockstep : Lockstep) (base : World) (traced : Traced α) : Prop :=
  ∀ ⦃left right : World⦄, lockstep.After base left right →
    lockstep.InStep base (traced left) (traced right)

theorem after_event (hafter : lockstep.After base left right) (event : Event)
    (hcall : event.isOfCall = true) :
    lockstep.After base (event.apply left) (event.apply right) := by
  refine ⟨lockstep.event hafter.worlds event hcall, hafter.extends_base.trans ?_⟩
  cases event with
  | effect effect => exact World.Extends.effect effect left
  | enter frame | leave frame => exact World.Extends.setDepth _ _ _

namespace InStep

variable {leftOutcome rightOutcome : Outcome α} {leftEvents rightEvents before : List Event}

theorem prepend
    (hstep : lockstep.InStep base (leftOutcome, leftEvents) (rightOutcome, rightEvents))
    (hbefore : ∀ event ∈ before, event.Shared lockstep.settings) :
    lockstep.InStep base (leftOutcome, before ++ leftEvents)
      (rightOutcome, before ++ rightEvents) := by
  cases hstep with
  | together hshared hends =>
    exact .together (List.forall_mem_append.mpr ⟨hbefore, hshared⟩) hends
  | parted hparts => exact .parted (hparts.prepend hbefore)

end InStep

namespace Keeps

variable {first fallback : Traced α}

theorem pure (value : α) : lockstep.Keeps base (Pure.pure value : Traced α) :=
  fun _ _ hafter ↦ .together (List.forall_mem_nil _) (.returned value hafter)

theorem raise (fault : Fault) :
    lockstep.Keeps base (fun world ↦ (.raised fault world, []) : Traced α) :=
  fun _ _ hafter ↦ .together (List.forall_mem_nil _) (.raised fault hafter)

theorem bind {next : α → Traced β} (hfirst : lockstep.Keeps base first)
    (hnext : ∀ value, lockstep.Keeps base (next value)) :
    lockstep.Keeps base (first >>= next) := by
  intro left right hafter
  have hstep := hfirst hafter
  have hleft := Traced.prefix_bind first next left
  have hright := Traced.prefix_bind first next right
  change lockstep.InStep base (Traced.bind first next left) (Traced.bind first next right)
  generalize hleftResult : first left = leftResult at hstep hleft
  generalize hrightResult : first right = rightResult at hstep hright
  cases hstep with
  | parted hparts => exact .parted (hparts.extend hleft hright)
  | together hshared hends =>
    simp only [Traced.bind, hleftResult, hrightResult]
    cases hends with
    | returned value hmiddle => exact (hnext value hmiddle).prepend hshared
    | raised fault hmiddle => exact .together hshared (.raised fault hmiddle)
    | exhausted => exact .together hshared .exhausted

theorem orElse (hfirst : lockstep.Keeps base first) (hfallback : lockstep.Keeps base fallback) :
    lockstep.Keeps base (first.orElse fallback) := by
  intro left right hafter
  have hstep := hfirst hafter
  have hleft := Traced.prefix_orElse first fallback left
  have hright := Traced.prefix_orElse first fallback right
  generalize hleftResult : first left = leftResult at hstep hleft
  generalize hrightResult : first right = rightResult at hstep hright
  cases hstep with
  | parted hparts => exact .parted (hparts.extend hleft hright)
  | together hshared hends =>
    simp only [Traced.orElse, hleftResult, hrightResult]
    cases hends with
    | returned value hmiddle => exact .together hshared (.returned value hmiddle)
    | raised fault hmiddle => exact (hfallback hmiddle).prepend hshared
    | exhausted => exact .together hshared .exhausted

theorem performing (hdispatcher : base.HasDispatcher dispatcher) (part : Body.Leaf α) :
    lockstep.Keeps base (.performing (part.perform dispatcher) fun world ↦
      part.effects dispatcher world) := by
  intro left right hafter
  have heffects : part.effects dispatcher left = part.effects dispatcher right :=
    hafter.look_eq (fun world ↦ part.effects dispatcher world) (part.effects_contents dispatcher)
  have hshared : ∀ event ∈ (part.effects dispatcher right).map Event.effect,
      event.Shared lockstep.settings :=
    List.forall_mem_map.mpr fun effect heffect ↦
      Effect.shared_of_isPlain (part.isPlain_effects dispatcher right effect heffect)
  have hends := Simulation.leaf_agree hdispatcher part hafter
  change lockstep.InStep base (_, (part.effects dispatcher left).map .effect) _
  rw [heffects]
  exact .together hshared hends

end Keeps

/-! ## Calls -/

section Calls

variable {traced : TracedRunner}

theorem activate_keeps (hdispatcher : base.HasDispatcher dispatcher)
    (hrun : ∀ definition arguments, lockstep.Keeps base (traced dispatcher definition arguments))
    (name : String) (definition : Definition) (arguments : List Value) :
    lockstep.Keeps base (.activate traced dispatcher arguments name definition) := by
  intro left right hafter
  have hdepth := hafter.look_eq (fun world ↦ world.depth dispatcher) fun _ ↦ rfl
  have hregistry := hafter.look_eq (fun world ↦ (world.dispatcher dispatcher).registry) fun _ ↦ rfl
  have hsettings : lockstep.settings (left.configOf dispatcher) (right.configOf dispatcher) := by
    rw [World.configOf, World.configOf, ← hregistry]
    exact lockstep.settings_of hafter.worlds
      (lockstep.wellFormed hafter.worlds dispatcher (hafter.extends_base.hasDispatcher hdispatcher))
  unfold Traced.activate
  dsimp only at hdepth ⊢
  rw [← hdepth]
  cases hleft : (left.configOf dispatcher).reachedLimit? (left.depth dispatcher) with
  | some limit =>
    cases hright : (right.configOf dispatcher).reachedLimit? (left.depth dispatcher) with
    | some same =>
      obtain rfl : limit = same :=
        Option.some.inj (hleft.symm.trans (lockstep.refused hsettings hright))
      refine .together ?_ (.raised _ (after_event hafter (.effect (.refuseCall name limit)) rfl))
      exact List.forall_mem_singleton.mpr ⟨_, _, _, hsettings, hright⟩
    | none =>
      exact .parted (.intro [] (List.forall_mem_nil _) name ⟨dispatcher, left.depth dispatcher⟩
        hsettings hleft hright _ _)
  | none =>
    have hright : (right.configOf dispatcher).reachedLimit? (left.depth dispatcher) = none := by
      cases hreached : (right.configOf dispatcher).reachedLimit? (left.depth dispatcher) with
      | none => rfl
      | some limit => cases hleft.symm.trans (lockstep.refused hsettings hreached)
    rw [hright]
    let frame : Frame := ⟨dispatcher, left.depth dispatcher⟩
    have hentered : ∀ event ∈ [Event.enter frame], event.Shared lockstep.settings :=
      List.forall_mem_singleton.mpr ⟨_, _, hsettings, hleft⟩
    have hstep := hrun definition arguments (after_event hafter (.enter frame) rfl)
    dsimp only
    generalize traced dispatcher definition arguments _ = leftResult at hstep
    generalize traced dispatcher definition arguments _ = rightResult at hstep
    cases hstep with
    | parted hparts =>
      exact .parted ((hparts.prepend hentered).extend
        (List.cons_prefix_cons.mpr ⟨rfl, List.prefix_append _ _⟩)
        (List.cons_prefix_cons.mpr ⟨rfl, List.prefix_append _ _⟩))
    | @together leftOutcome _ events hshared hends =>
      have hevents : ∀ event ∈ .enter frame :: (events ++ leftOutcome.leaving frame),
          event.Shared lockstep.settings := by
        refine List.forall_mem_append.mpr ⟨hentered, List.forall_mem_append.mpr ⟨hshared, ?_⟩⟩
        cases leftOutcome with
        | returned | raised => exact List.forall_mem_singleton.mpr trivial
        | exhausted => exact List.forall_mem_nil _
      cases hends with
      | returned value hinner =>
        exact .together hevents (.returned value (after_event hinner (.leave frame) rfl))
      | raised fault hinner =>
        exact .together hevents (.raised fault (after_event hinner (.leave frame) rfl))
      | exhausted => exact .together hevents .exhausted

/-- What is found is the same on both sides. -/
theorem target_eq (hafter : lockstep.After base left right) (routing : Routing) (route : Route) :
    route.target routing left dispatcher = route.target routing right dispatcher := by
  have hstate (function : FunctionId) :
      left.functionState function = right.functionState function :=
    hafter.look_eq (fun world ↦ world.functionState function) fun _ ↦ rfl
  cases route with
  | direct callee | executed callee => simp only [Route.target, hstate]
  | named name =>
    have hname := hafter.look_eq
      (fun world ↦ world.functionNamed? (world.dispatcher dispatcher).registry name) (by simp)
    simp only [Route.target, hstate, hname]
  | throughSite site callee =>
    simp only [Route.target, hstate, lockstep.site_eq hafter.worlds site]

theorem call_keeps (hdispatcher : base.HasDispatcher dispatcher)
    (hrun : ∀ definition arguments, lockstep.Keeps base (traced dispatcher definition arguments))
    (arguments : List Value) (routing : Routing) (route : Route) :
    lockstep.Keeps base (.call traced dispatcher arguments routing route) := by
  have henter (target : Except Fault (String × Definition)) :
      lockstep.Keeps base (.enter traced dispatcher arguments target) := by
    cases target with
    | ok found => exact activate_keeps hdispatcher hrun found.1 found.2 arguments
    | error fault => exact .raise fault
  intro left right hafter
  have hregistry := hafter.look_eq (fun world ↦ (world.dispatcher dispatcher).registry) fun _ ↦ rfl
  have hevents : route.events routing left dispatcher = route.events routing right dispatcher := by
    cases route <;> simp only [Route.events, Route.effects, hregistry]
  have hbegun : (∀ event ∈ route.events routing right dispatcher,
        event.Shared lockstep.settings) ∧
      lockstep.After base (Event.replay (route.events routing right dispatcher) left)
        (Event.replay (route.events routing right dispatcher) right) := by
    cases route with
    | direct | executed => exact ⟨List.forall_mem_nil _, hafter⟩
    | named name =>
      have hexists : left.HasRegistry (right.dispatcher dispatcher).registry := by
        rw [← hregistry]
        exact lockstep.wellFormed hafter.worlds dispatcher
          (hafter.extends_base.hasDispatcher hdispatcher)
      exact ⟨List.forall_mem_singleton.mpr trivial, hafter.effect (.find _ name) rfl hexists⟩
    | throughSite site callee =>
      cases routing with
      | generic => exact ⟨List.forall_mem_nil _, hafter⟩
      | cached =>
        exact ⟨List.forall_mem_singleton.mpr trivial,
          after_event hafter (.effect (.noteCall dispatcher site callee)) rfl⟩
  have hstep := henter (route.target routing right dispatcher) hbegun.2
  unfold Traced.call
  rw [target_eq hafter, hevents]
  exact hstep.prepend hbegun.1

end Calls

/-- All computations on the dispatcher go in step. -/
theorem keeps_closed (lockstep : Lockstep) (hdispatcher : base.HasDispatcher dispatcher)
    (routing : Routing) : Traced.Closed routing dispatcher (lockstep.Keeps base) where
  pure := .pure
  bind := .bind
  orElse := .orElse
  leaf := .performing hdispatcher
  call hrun arguments route := call_keeps hdispatcher hrun arguments routing route
  exhausted _ _ _ := .together (List.forall_mem_nil _) .exhausted

/-! ## Sessions -/

variable {leftState rightState : State} {routing : Routing} {allowance : Nat}

theorem conclude_related (hstates : lockstep.States leftState rightState) (call : PreparedCall)
    {leftOutcome rightOutcome : Outcome Value}
    (hends : leftOutcome.Agree (lockstep.After leftState.world) rightOutcome) :
    lockstep.Results leftState.world (fun _ ↦ lockstep.Answers)
      (call.conclude leftState leftOutcome) (call.conclude rightState rightOutcome) := by
  cases hends with
  | returned value hafter | raised fault hafter =>
    exact .ok (call.answer_like hafter.worlds _) (hstates.setWorld hafter) hafter.extends_base
  | exhausted => exact .error _

/-- A step is answered alike after the same events, or the events of its call part. -/
theorem answerStep_inStep (hstates : lockstep.States leftState rightState) (routing : Routing)
    (allowance : Nat) (step : Step) :
    (stepEvents routing allowance step leftState = stepEvents routing allowance step rightState ∧
      (∀ event ∈ stepEvents routing allowance step leftState,
        event.Shared lockstep.settings) ∧
      lockstep.Results leftState.world (fun _ ↦ lockstep.Answers)
        ((answerStep routing allowance step).run leftState)
        ((answerStep routing allowance step).run rightState)) ∨
    Event.Part lockstep.settings (stepEvents routing allowance step leftState)
      (stepEvents routing allowance step rightState) := by
  unfold stepEvents
  cases hprepare : prepareCall? step with
  | none =>
    have hends := answerStep_relates hprepare routing routing allowance allowance hstates
      (World.Extends.refl _)
    exact .inl ⟨rfl, List.forall_mem_nil _, hends⟩
  | some prepare =>
    have hprepared := prepareCall_relates hprepare hstates (World.Extends.refl _)
    rw [run_answerStep_of_prepared hprepare, run_answerStep_of_prepared hprepare]
    dsimp only
    generalize prepare.run leftState = leftResult at hprepared
    generalize prepare.run rightState = rightResult at hprepared
    cases hprepared with
    | error malformed => exact .inl ⟨rfl, List.forall_mem_nil _, .error malformed⟩
    | @ok call _ leftReady rightReady hsame hready hextends =>
      obtain ⟨rfl, hdispatcher⟩ := hsame
      have hkeeps := call.traced_of_closed (lockstep.keeps_closed hdispatcher routing) allowance
      have hstep := hkeeps ⟨hready.worlds, World.Extends.refl _⟩
      have hleft := (call.traced_describes routing allowance leftReady.world).1
      have hright := (call.traced_describes routing allowance rightReady.world).1
      dsimp only [Except.bind]
      rw [← hleft, ← hright]
      generalize call.traced routing allowance leftReady.world = leftTraced at hstep
      generalize call.traced routing allowance rightReady.world = rightTraced at hstep
      cases hstep with
      | parted hparts => exact .inr hparts
      | together hshared hends =>
        exact .inl ⟨rfl, hshared, (conclude_related hready call hends).of_later hextends⟩

/-- The answers of two steps differ as the simulation allows, and their records are the same. -/
def Told (lockstep : Lockstep) (left right : Answer × List TraceRecord) : Prop :=
  lockstep.Answers left.1 right.1 ∧ left.2 = right.2

theorem runStep_results (hstates : lockstep.States leftState rightState) {step : Step}
    (hresults : lockstep.Results leftState.world (fun _ ↦ lockstep.Answers)
      ((answerStep routing allowance step).run leftState)
      ((answerStep routing allowance step).run rightState)) :
    lockstep.Results leftState.world (fun _ ↦ lockstep.Told)
      ((runStep routing allowance step).run leftState)
      ((runStep routing allowance step).run rightState) := by
  rw [run_runStep, run_runStep]
  generalize (answerStep routing allowance step).run leftState = leftResult at hresults
  generalize (answerStep routing allowance step).run rightState = rightResult at hresults
  cases hresults with
  | error malformed => exact .error malformed
  | ok hanswers hafter hextends =>
    exact .ok ⟨hanswers, lockstep.records_eq hstates.worlds hafter.worlds⟩ hafter hextends

/-- Two sessions in lockstep end alike after the same events; or they part in a step, before
which all was the same. -/
inductive Sessions (lockstep : Lockstep) (routing : Routing) (allowance : Nat)
    (steps : List Step) (left right : State) : Prop where
  | together
      (hevents : callEvents routing allowance steps left = callEvents routing allowance steps right)
      (hshared : ∀ event ∈ callEvents routing allowance steps left,
        event.Shared lockstep.settings)
      (hresults : lockstep.Results left.world (fun _ ↦ List.Forall₂ lockstep.Told)
        ((runSteps routing allowance steps).run left)
        ((runSteps routing allowance steps).run right))
  | parted (before : List Step) (step : Step) (after : List Step)
      (hsteps : steps = before ++ step :: after) {leftMiddle rightMiddle : State}
      {leftAnswers rightAnswers : List (Answer × List TraceRecord)}
      (hleft : (runSteps routing allowance before).run left = .ok (leftAnswers, leftMiddle))
      (hright : (runSteps routing allowance before).run right = .ok (rightAnswers, rightMiddle))
      (htold : List.Forall₂ lockstep.Told leftAnswers rightAnswers)
      (hmiddle : lockstep.States leftMiddle rightMiddle)
      (hevents : callEvents routing allowance before left =
        callEvents routing allowance before right)
      (hshared : ∀ event ∈ callEvents routing allowance before left,
        event.Shared lockstep.settings)
      (hparts : Event.Part lockstep.settings (stepEvents routing allowance step leftMiddle)
        (stepEvents routing allowance step rightMiddle))

theorem runSteps_inStep (hstates : lockstep.States leftState rightState) (routing : Routing)
    (allowance : Nat) (steps : List Step) :
    lockstep.Sessions routing allowance steps leftState rightState := by
  induction steps generalizing leftState rightState with
  | nil =>
    exact .together rfl (List.forall_mem_nil _) (.ok .nil hstates (World.Extends.refl _))
  | cons step rest ih =>
    rcases answerStep_inStep hstates routing allowance step with
      ⟨hevents, hshared, hresults⟩ | hparts
    · have hstep := runStep_results hstates hresults
      generalize hleft : (runStep routing allowance step).run leftState = leftResult at hstep
      generalize hright : (runStep routing allowance step).run rightState = rightResult at hstep
      cases hstep with
      | error malformed =>
        refine .together ?_ ?_ ?_
        · rw [callEvents, callEvents, hleft, hright, hevents]
        · rw [callEvents, hleft, List.append_nil]
          exact hshared
        · rw [run_runSteps_cons, run_runSteps_cons, hleft, hright]
          exact .error malformed
      | @ok leftAnswer rightAnswer leftMiddle rightMiddle htold hmiddle hextends =>
        -- The events of the first step come before those of the others.
        have hcons {others : List Step}
            (hothers : callEvents routing allowance others leftMiddle =
              callEvents routing allowance others rightMiddle)
            (hothersShared : ∀ event ∈ callEvents routing allowance others leftMiddle,
              event.Shared lockstep.settings) :
            callEvents routing allowance (step :: others) leftState =
                callEvents routing allowance (step :: others) rightState ∧
              ∀ event ∈ callEvents routing allowance (step :: others) leftState,
                event.Shared lockstep.settings := by
          rw [callEvents_of_ok hleft, callEvents_of_ok hright, hothers, hevents]
          rw [hothers] at hothersShared
          rw [hevents] at hshared
          exact ⟨rfl, List.forall_mem_append.mpr ⟨hshared, hothersShared⟩⟩
        cases ih hmiddle with
        | together hrestEvents hrestShared hrestResults =>
          obtain ⟨hall, hallShared⟩ := hcons hrestEvents hrestShared
          refine .together hall hallShared ?_
          rw [run_runSteps_of_ok hleft, run_runSteps_of_ok hright]
          generalize (runSteps routing allowance rest).run leftMiddle = leftEnd at hrestResults
          generalize (runSteps routing allowance rest).run rightMiddle = rightEnd at hrestResults
          cases hrestResults with
          | error malformed => exact .error malformed
          | ok hothers hafter hlater =>
            exact .ok (.cons htold hothers) hafter (hextends.trans hlater)
        | @parted before other after hsteps leftEnd rightEnd leftAnswers rightAnswers hrestLeft
            hrestRight hothers hafter hrestEvents hrestShared hparts =>
          obtain ⟨hall, hallShared⟩ := hcons hrestEvents hrestShared
          refine .parted (step :: before) other after (congrArg (step :: ·) hsteps) ?_ ?_
            (.cons htold hothers) hafter hall hallShared hparts
          · rw [run_runSteps_of_ok hleft, hrestLeft]
            rfl
          · rw [run_runSteps_of_ok hright, hrestRight]
            rfl
    · exact .parted [] step rest rfl rfl rfl .nil hstates rfl (List.forall_mem_nil _) hparts

end Lockstep

end GuestCore
