import GuestCore.Proofs.Sessions

/-!
# Call Depth

A dispatcher counts the calls that are active on it.  The count is saved when a call begins and
restored when it ends, with a value or with a fault, so at every moment it is the number of active
calls.  It never exceeds the limit: a call at the limit fails before its body runs, and changes
nothing that a program can see.
-/

namespace GuestCore

/-! ## Depths -/

namespace World

theorem depth_setDepth (world : World) {dispatcher : DispatcherId}
    (hdispatcher : world.HasDispatcher dispatcher) (depth : Nat) (other : DispatcherId) :
    (world.setDepth dispatcher depth).depth other =
      if other = dispatcher then depth else world.depth other := by
  have hget := Table.get_modify world.dispatchers dispatcher.index other.index fun state ↦
    { state with depth := depth }
  by_cases hother : other = dispatcher
  · subst hother
    rw [if_pos ⟨rfl, hdispatcher⟩] at hget
    rw [if_pos rfl]
    exact congrArg Dispatcher.depth hget
  · have hindex : dispatcher.index ≠ other.index := by
      intro heq
      exact hother (by cases other; cases dispatcher; simp_all)
    rw [if_neg fun h ↦ hindex h.1] at hget
    rw [if_neg hother]
    exact congrArg Dispatcher.depth hget

/-- A dispatcher that does not exist has no depth. -/
theorem depth_of_not_hasDispatcher (world : World) {dispatcher : DispatcherId}
    (hdispatcher : ¬ world.HasDispatcher dispatcher) : world.depth dispatcher = 0 := by
  have hdefault : world.dispatcher dispatcher = default := by
    simp only [HasDispatcher, Table.size, Nat.not_lt] at hdispatcher
    simp [World.dispatcher, Table.get, hdispatcher]
  rw [World.depth, hdefault]
  rfl

/-- The settings of a dispatcher never change. -/
theorem Extends.configOf {earlier later : World} (hextends : earlier.Extends later)
    (hwellFormed : earlier.WellFormed) {dispatcher : DispatcherId}
    (hdispatcher : earlier.HasDispatcher dispatcher) :
    later.configOf dispatcher = earlier.configOf dispatcher := by
  have hregistry := hwellFormed dispatcher hdispatcher
  calc
    later.configOf dispatcher =
        (later.registry (earlier.dispatcher dispatcher).registry).config := by
      rw [World.configOf, hextends.home dispatcher hdispatcher]
    _ = earlier.configOf dispatcher := hextends.config _ hregistry

end World

/-- Effects leave all depths alone. -/
theorem Effect.depth_apply (effect : Effect) (world : World) (dispatcher : DispatcherId) :
    (effect.apply world).depth dispatcher = world.depth dispatcher := by
  have hget := effect.dispatchers_apply world
  rw [World.depth, World.dispatcher, hget]
  split
  · rw [Table.get_push]
    split
    · next hnew =>
      rw [world.depth_of_not_hasDispatcher (Nat.not_lt_of_le (Nat.le_of_eq hnew.symm))]
    · rfl
  · rfl

theorem Config.reachedLimit?_eq_some {config : Config} {depth limit : Nat} :
    config.reachedLimit? depth = some limit ↔ config.depthLimit = some limit ∧ limit ≤ depth := by
  simp [reachedLimit?, Option.filter_eq_some_iff]

theorem Config.lt_of_reachedLimit?_eq_none {config : Config} {depth limit : Nat}
    (hnone : config.reachedLimit? depth = none) (hlimit : config.depthLimit = some limit) :
    depth < limit := by
  simpa [reachedLimit?, hlimit] using hnone

/-! ## Active calls -/

/-- The number of calls that are active on a dispatcher. -/
def activeOn (active : List Frame) (dispatcher : DispatcherId) : Nat :=
  active.countP fun frame ↦ frame.dispatcher = dispatcher

theorem activeOn_cons (frame : Frame) (rest : List Frame) (dispatcher : DispatcherId) :
    activeOn (frame :: rest) dispatcher =
      activeOn rest dispatcher + if frame.dispatcher = dispatcher then 1 else 0 := by
  simp [activeOn, List.countP_cons]

/-- Every call restores the number of the calls around it. -/
def Nested : List Frame → Prop
  | [] => True
  | frame :: rest => frame.depth = activeOn rest frame.dispatcher ∧ Nested rest

namespace Moment

variable {earlier moment later : Moment}

/-- Depths count active calls. -/
structure DepthsMatch (moment : Moment) : Prop where
  depth_eq : ∀ dispatcher, moment.world.depth dispatcher = activeOn moment.active dispatcher
  nested : Nested moment.active
  hasDispatcher : ∀ frame ∈ moment.active, moment.world.HasDispatcher frame.dispatcher

theorem Step.depthsMatch (step : earlier.Step later) (hearlier : earlier.DepthsMatch) :
    later.DepthsMatch := by
  have hextends := step.extends
  cases step with
  | effect effect _ =>
    refine ⟨fun dispatcher ↦ ?_, hearlier.nested, fun frame hframe ↦
      hextends.hasDispatcher (hearlier.hasDispatcher frame hframe)⟩
    exact (effect.depth_apply earlier.world dispatcher).trans (hearlier.depth_eq dispatcher)
  | enter dispatcher hdispatcher _ =>
    refine ⟨fun other ↦ ?_, ⟨hearlier.depth_eq dispatcher, hearlier.nested⟩, ?_⟩
    · rw [World.depth_setDepth _ hdispatcher, activeOn_cons, hearlier.depth_eq,
        hearlier.depth_eq]
      by_cases hother : other = dispatcher
      · simp [hother]
      · simp [hother, Ne.symm hother]
    · intro frame hframe
      refine hextends.hasDispatcher ?_
      rcases List.mem_cons.mp hframe with rfl | hframe
      · exact hdispatcher
      · exact hearlier.hasDispatcher frame hframe
  | leave frame rest hactive =>
    obtain ⟨hdepth, hnested, hexist⟩ := hearlier
    rw [hactive] at hdepth hnested hexist
    refine ⟨fun other ↦ ?_, hnested.2, fun other hother ↦
      hextends.hasDispatcher (hexist other (List.mem_cons_of_mem _ hother))⟩
    rw [World.depth_setDepth _ (hexist frame List.mem_cons_self)]
    split
    · next hother => rw [hother, hnested.1]
    · next hother => rw [hdepth, activeOn_cons, if_neg (Ne.symm hother), Nat.add_zero]

theorem Reachable.depthsMatch (hreachable : moment.Reachable) : moment.DepthsMatch := by
  apply hreachable.invariant (motive := DepthsMatch)
  · exact ⟨fun _ ↦ rfl, trivial, nofun⟩
  · intro before after _ hbefore step
    exact step.depthsMatch hbefore

/-- Depths stay within the limits. -/
def WithinLimits (moment : Moment) : Prop :=
  ∀ dispatcher limit, moment.world.HasDispatcher dispatcher →
    (moment.world.configOf dispatcher).depthLimit = some limit →
      moment.world.depth dispatcher ≤ limit

theorem Step.withinLimits (step : earlier.Step later) (hreachable : earlier.Reachable)
    (hearlier : earlier.WithinLimits) : later.WithinLimits := by
  intro dispatcher limit hdispatcher hlimit
  by_cases hold : earlier.world.HasDispatcher dispatcher
  · rw [step.extends.configOf hreachable.wellFormed hold] at hlimit
    have hbefore := hearlier dispatcher limit hold hlimit
    cases step with
    | effect effect _ =>
      exact Nat.le_trans (Nat.le_of_eq (effect.depth_apply earlier.world dispatcher)) hbefore
    | enter other hother hreached =>
      rw [World.depth_setDepth _ hother]
      split
      · next hsame =>
        subst hsame
        exact Config.lt_of_reachedLimit?_eq_none hreached hlimit
      · exact hbefore
    | leave frame rest hactive =>
      have hafter := (Step.leave frame rest hactive).depthsMatch hreachable.depthsMatch
      rw [hafter.depth_eq]
      rw [hreachable.depthsMatch.depth_eq, hactive, activeOn_cons] at hbefore
      exact Nat.le_trans (Nat.le_add_right _ _) hbefore
  · cases step with
    | effect effect _ =>
      have hzero := earlier.world.depth_of_not_hasDispatcher hold
      rw [← effect.depth_apply] at hzero
      exact Nat.le_trans (Nat.le_of_eq hzero) (Nat.zero_le _)
    | enter | leave => exact absurd (by simpa [World.HasDispatcher] using hdispatcher) hold

theorem Reachable.withinLimits (hreachable : moment.Reachable) : moment.WithinLimits := by
  apply hreachable.invariant (motive := WithinLimits)
  · intro dispatcher limit hdispatcher _
    exact absurd hdispatcher (Nat.not_lt_zero _)
  · intro before after hbefore hlimits step
    exact step.withinLimits hbefore hlimits

end Moment

/-! ## Ways to call -/

namespace Route

/-- The function that is called, if there is one. -/
def callee? (world : World) (dispatcher : DispatcherId) : Route → Option FunctionId
  | named name => world.functionNamed? (world.dispatcher dispatcher).registry name
  | direct callee | executed callee | throughSite _ callee => some callee

/-- What is done before the function is called. -/
def effects (routing : Routing) (world : World) (dispatcher : DispatcherId) :
    Route → List Effect
  | named name => [.find (world.dispatcher dispatcher).registry name]
  | throughSite site callee =>
    match routing with
    | .cached => [.noteCall dispatcher site callee]
    | .generic => []
  | direct _ | executed _ => []

variable {moment : Moment} {dispatcher : DispatcherId}

theorem allAllowed_effects (hreachable : moment.Reachable)
    (hdispatcher : moment.world.HasDispatcher dispatcher) (routing : Routing) (route : Route) :
    Moment.AllAllowed moment.world (route.effects routing moment.world dispatcher) := by
  cases route with
  | named name => exact ⟨hreachable.wellFormed dispatcher hdispatcher, trivial⟩
  | direct | executed => trivial
  | throughSite site callee =>
    cases routing with
    | cached => exact ⟨trivial, trivial⟩
    | generic => trivial

theorem visible_after_effects (moment : Moment) (dispatcher : DispatcherId) (routing : Routing)
    (route : Route) :
    (moment.after (route.effects routing moment.world dispatcher)).world.visible =
      moment.world.visible := by
  cases route with
  | named | direct | executed => rfl
  | throughSite site callee =>
    cases routing with
    | cached => exact moment.world.visible_noteCall dispatcher site callee
    | generic => rfl

theorem active_after_effects (moment : Moment) (dispatcher : DispatcherId) (routing : Routing)
    (route : Route) :
    (moment.after (route.effects routing moment.world dispatcher)).active = moment.active := by
  cases route with
  | named | direct | executed => rfl
  | throughSite site callee => cases routing <;> rfl

/-- All ways to call come down to one. -/
theorem call_eq (hreachable : moment.Reachable) {route : Route} {function : FunctionId}
    (hcallee : route.callee? moment.world dispatcher = some function) (routing : Routing)
    (run : Runner) (arguments : List Value) :
    route.call routing run dispatcher arguments moment.world =
      Dispatch.call run dispatcher function arguments
        (moment.after (route.effects routing moment.world dispatcher)).world := by
  cases route with
  | named name =>
    have hfind : moment.world.find (moment.world.dispatcher dispatcher).registry name =
        (some function, moment.world.log (.lookup name false)) :=
      Prod.ext hcallee rfl
    change Dispatch.callNamed run dispatcher name arguments moment.world = _
    unfold Dispatch.callNamed
    rw [hfind]
    rfl
  | direct callee | executed callee =>
    obtain rfl := Option.some.inj hcallee
    rfl
  | throughSite site callee =>
    obtain rfl := Option.some.inj hcallee
    cases routing with
    | cached => exact hreachable.coherent.callThroughCache_eq_call ..
    | generic => rfl

/-! ## Calls of defined functions -/

variable {route : Route} {function : FunctionId} {definition : Definition}

/-- A call of a defined function fails or runs its body, depending on the depth. -/
theorem call_of_defined (hreachable : moment.Reachable)
    (hcallee : route.callee? moment.world dispatcher = some function)
    (hdefinition : (moment.world.functionState function).definition = some definition)
    (routing : Routing) (run : Runner) (arguments : List Value) :
    let before := (moment.after (route.effects routing moment.world dispatcher)).world
    route.call routing run dispatcher arguments moment.world =
      match (moment.world.configOf dispatcher).reachedLimit?
          (moment.world.depth dispatcher) with
      | some limit => .raised (.depthExceeded limit)
          (before.log (.depthExceeded (moment.world.functionState function).name limit))
      | none => (run dispatcher definition arguments).restoring
          (fun after ↦ after.setDepth dispatcher (moment.world.depth dispatcher))
          (before.setDepth dispatcher (moment.world.depth dispatcher + 1)) := by
  intro before
  have hvisible : moment.world.visible = before.visible :=
    (visible_after_effects moment dispatcher routing route).symm
  have hstate : moment.world.functionState function = before.functionState function :=
    World.eq_of_visible_eq (fun world ↦ world.functionState function) (fun _ ↦ rfl) hvisible
  have hdepth : moment.world.depth dispatcher = before.depth dispatcher :=
    World.eq_of_visible_eq (fun world ↦ world.depth dispatcher) (fun _ ↦ rfl) hvisible
  have hconfig : moment.world.configOf dispatcher = before.configOf dispatcher :=
    World.eq_of_visible_eq (fun world ↦ world.configOf dispatcher) (fun _ ↦ rfl) hvisible
  have hcall : route.call routing run dispatcher arguments moment.world =
      Dispatch.call run dispatcher function arguments before :=
    call_eq hreachable hcallee routing run arguments
  rw [hstate] at hdefinition
  rw [hcall, hstate, hdepth, hconfig]
  simp only [Dispatch.call, hdefinition]
  rfl

/-- At the limit the call fails by itself, whatever its body would do. -/
theorem call_at_limit (hreachable : moment.Reachable)
    (hcallee : route.callee? moment.world dispatcher = some function)
    (hdefinition : (moment.world.functionState function).definition = some definition)
    {limit : Nat} (hlimit : (moment.world.configOf dispatcher).reachedLimit?
      (moment.world.depth dispatcher) = some limit) (routing : Routing)
    (arguments : List Value) :
    ∃ after, after.visible = moment.world.visible ∧ ∀ run,
      route.call routing run dispatcher arguments moment.world =
        .raised (.depthExceeded limit) after := by
  have hcall := fun run ↦ call_of_defined hreachable hcallee hdefinition routing run arguments
  rw [hlimit] at hcall
  refine ⟨_, ?_, hcall⟩
  exact visible_after_effects moment dispatcher routing route

/-- Below the limit the body runs, as one more active call.  All that a program sees has changed is
the depth. -/
theorem entered_below_limit (hreachable : moment.Reachable)
    (hdispatcher : moment.world.HasDispatcher dispatcher)
    (hcallee : route.callee? moment.world dispatcher = some function)
    (hdefinition : (moment.world.functionState function).definition = some definition)
    (hlimit : (moment.world.configOf dispatcher).reachedLimit?
      (moment.world.depth dispatcher) = none) (routing : Routing) (arguments : List Value) :
    ∃ inner : Moment, moment.Leads inner ∧
      inner.active = ⟨dispatcher, moment.world.depth dispatcher⟩ :: moment.active ∧
      inner.world.visible =
        (moment.world.setDepth dispatcher (moment.world.depth dispatcher + 1)).visible ∧
      inner.world.sites =
        (moment.after (route.effects routing moment.world dispatcher)).world.sites ∧
      ∀ run, route.call routing run dispatcher arguments moment.world =
        (run dispatcher definition arguments).restoring
          (fun after ↦ after.setDepth dispatcher (moment.world.depth dispatcher))
          inner.world := by
  have hleads := moment.leads_after _
    (allAllowed_effects hreachable hdispatcher routing route)
  have hvisible := visible_after_effects moment dispatcher routing route
  have hactive := active_after_effects moment dispatcher routing route
  have hcall := fun run ↦ call_of_defined hreachable hcallee hdefinition routing run arguments
  generalize moment.after (route.effects routing moment.world dispatcher) = before at *
  have hdepth : before.world.depth dispatcher = moment.world.depth dispatcher :=
    World.eq_of_visible_eq (fun world ↦ world.depth dispatcher) (fun _ ↦ rfl) hvisible
  have hconfig : before.world.configOf dispatcher = moment.world.configOf dispatcher :=
    World.eq_of_visible_eq (fun world ↦ world.configOf dispatcher) (fun _ ↦ rfl) hvisible
  refine ⟨_, hleads.tail (.enter dispatcher (hleads.extends.hasDispatcher hdispatcher) ?_), ?_,
    ?_, rfl, fun run ↦ ?_⟩
  · rw [hconfig, hdepth, hlimit]
  · rw [hdepth, hactive]
  · rw [hdepth]
    exact congrArg (fun world ↦ world.setDepth dispatcher (moment.world.depth dispatcher + 1))
      hvisible
  · rw [hcall, hlimit, hdepth]

theorem call_below_limit (hreachable : moment.Reachable)
    (hdispatcher : moment.world.HasDispatcher dispatcher)
    (hcallee : route.callee? moment.world dispatcher = some function)
    (hdefinition : (moment.world.functionState function).definition = some definition)
    (hlimit : (moment.world.configOf dispatcher).reachedLimit?
      (moment.world.depth dispatcher) = none) (routing : Routing) (arguments : List Value) :
    ∃ inner : Moment, moment.Leads inner ∧
      inner.active = ⟨dispatcher, moment.world.depth dispatcher⟩ :: moment.active ∧
        ∀ run, route.call routing run dispatcher arguments moment.world =
          (run dispatcher definition arguments).restoring
            (fun after ↦ after.setDepth dispatcher (moment.world.depth dispatcher))
            inner.world := by
  obtain ⟨inner, hleads, hactive, -, -, hcall⟩ :=
    entered_below_limit hreachable hdispatcher hcallee hdefinition hlimit routing arguments
  exact ⟨inner, hleads, hactive, hcall⟩

/-- A call of a defined function fails by itself exactly if the limit is reached. -/
theorem refused_iff (hreachable : moment.Reachable)
    (hcallee : route.callee? moment.world dispatcher = some function)
    (hdefinition : (moment.world.functionState function).definition = some definition)
    {limit : Nat} (routing : Routing) (arguments : List Value) :
    (∃ after, ∀ run, route.call routing run dispatcher arguments moment.world =
      .raised (.depthExceeded limit) after) ↔
        (moment.world.configOf dispatcher).reachedLimit? (moment.world.depth dispatcher) =
          some limit := by
  constructor
  · rintro ⟨after, hraised⟩
    have hcall := (hraised _).symm.trans (call_of_defined hreachable hcallee hdefinition routing
      (fun _ _ _ _ ↦ .exhausted) arguments)
    cases hreached : (moment.world.configOf dispatcher).reachedLimit?
        (moment.world.depth dispatcher) with
    | none =>
      rw [hreached] at hcall
      cases hcall
    | some reached =>
      rw [hreached] at hcall
      have hfault := (Outcome.raised.inj hcall).1
      cases hfault
      rfl
  · intro hreached
    obtain ⟨after, -, hcall⟩ :=
      call_at_limit hreachable hcallee hdefinition hreached routing arguments
    exact ⟨after, hcall⟩

end Route

/-- The world in which an action ended, unless the allowance ran out. -/
def Outcome.world? {α : Type} : Outcome α → Option World
  | returned _ world | raised _ world => some world
  | exhausted => none

theorem Outcome.Agree.exists_related {α : Type} {related : World → World → Prop}
    {left right : Outcome α} {world : World} (hagree : left.Agree related right)
    (hworld : left.world? = some world) : ∃ other, related world other := by
  cases hagree with
  | returned _ hrelated | raised _ hrelated =>
    obtain rfl := Option.some.inj hworld
    exact ⟨_, hrelated⟩
  | exhausted => cases hworld

namespace Moment

variable {moment : Moment} {dispatcher : DispatcherId}

/-- An action that agrees with another goes to a later moment with the same active calls, and
there all depths are what they were. -/
theorem Reachable.ends_alike {left right : Action Value} {after : World}
    (hreachable : moment.Reachable)
    (hagree : Action.Agree (moment.Tracks moment.active) left right)
    (hafter : (left moment.world).world? = some after) :
    (∃ journal, moment.Leads ⟨after, moment.active, journal⟩) ∧
      ∀ dispatcher, after.depth dispatcher = moment.world.depth dispatcher := by
  have hstart : moment.Tracks moment.active moment.world moment.world :=
    ⟨rfl, moment.journal, .refl⟩
  obtain ⟨other, htracks⟩ := (hagree hstart).exists_related hafter
  obtain ⟨journal, hleads⟩ := htracks.leads
  refine ⟨⟨journal, hleads⟩, fun dispatcher ↦ ?_⟩
  calc
    after.depth dispatcher = activeOn moment.active dispatcher :=
      (hreachable.leads hleads).depthsMatch.depth_eq dispatcher
    _ = moment.world.depth dispatcher := (hreachable.depthsMatch.depth_eq dispatcher).symm

/-- What holds of the depth of a dispatcher at a moment, and of all calls on it. -/
structure DepthDiscipline (moment : Moment) (dispatcher : DispatcherId) : Prop where
  /-- The depth is the number of active calls, and this is what a running body reads. -/
  depth_eq : moment.world.depth dispatcher = activeOn moment.active dispatcher
  body_reads : ∀ routing run arguments,
    Body.depth.eval routing run dispatcher arguments moment.world =
      .returned (.integer (activeOn moment.active dispatcher)) moment.world
  /-- Every part of a body ends with the calls active that were active when it began. -/
  body_keeps : ∀ routing allowance arguments body after,
    (Body.eval routing (run routing allowance) dispatcher arguments body moment.world).world? =
        some after →
      ∃ journal, moment.Leads ⟨after, moment.active, journal⟩
  /-- However a call ends, it leaves all depths as they were. -/
  call_restores : ∀ routing allowance arguments (route : Route) after,
    (route.call routing (run routing allowance) dispatcher arguments moment.world).world? =
        some after →
      ∀ other, after.depth other = moment.world.depth other
  depth_le : ∀ limit, (moment.world.configOf dispatcher).depthLimit = some limit →
    moment.world.depth dispatcher ≤ limit
  /-- A call of a defined function is refused, whatever its body would do, exactly if as many
  calls are active as the limit allows. -/
  refused_iff : ∀ routing arguments (route : Route) function definition limit,
    route.callee? moment.world dispatcher = some function →
      (moment.world.functionState function).definition = some definition →
        (moment.world.configOf dispatcher).depthLimit = some limit →
          ((∃ after, ∀ run, route.call routing run dispatcher arguments moment.world =
            .raised (.depthExceeded limit) after) ↔ activeOn moment.active dispatcher = limit)
  /-- A refused call changes nothing but call sites and the trace. -/
  refused_visible : ∀ routing arguments (route : Route) function definition limit after,
    route.callee? moment.world dispatcher = some function →
      (moment.world.functionState function).definition = some definition →
        (∀ run, route.call routing run dispatcher arguments moment.world =
          .raised (.depthExceeded limit) after) → after.visible = moment.world.visible
  /-- Any other call of a defined function runs its body, as one more active call. -/
  runs : ∀ routing arguments (route : Route) function definition,
    route.callee? moment.world dispatcher = some function →
      (moment.world.functionState function).definition = some definition →
        (moment.world.configOf dispatcher).depthLimit ≠
            some (activeOn moment.active dispatcher) →
          ∃ inner : Moment, moment.Leads inner ∧
            inner.active = ⟨dispatcher, moment.world.depth dispatcher⟩ :: moment.active ∧
              ∀ run, route.call routing run dispatcher arguments moment.world =
                (run dispatcher definition arguments).restoring
                  (fun after ↦ after.setDepth dispatcher (moment.world.depth dispatcher))
                  inner.world

/-- The limit is reached exactly if it is the number of active calls. -/
theorem Reachable.reachedLimit?_eq_some (hreachable : moment.Reachable)
    (hdispatcher : moment.world.HasDispatcher dispatcher) {limit : Nat} :
    (moment.world.configOf dispatcher).reachedLimit? (moment.world.depth dispatcher) =
        some limit ↔
      (moment.world.configOf dispatcher).depthLimit = some limit ∧
        activeOn moment.active dispatcher = limit := by
  rw [Config.reachedLimit?_eq_some, hreachable.depthsMatch.depth_eq]
  refine and_congr_right fun hlimit ↦ ?_
  have hle := hreachable.withinLimits dispatcher limit hdispatcher hlimit
  rw [hreachable.depthsMatch.depth_eq] at hle
  omega

/-- At every moment of every run, and for every dispatcher, depths count active calls, calls
restore them and respect the limit.  Between the steps of sessions all depths are zero. -/
theorem depth_discipline :
    (∀ (moment : Moment) (dispatcher : DispatcherId), moment.Reachable →
      moment.world.HasDispatcher dispatcher → DepthDiscipline moment dispatcher) ∧
    ∀ (routing : Routing) (allowance : Nat) (config : Config) (steps : List Session.Step)
      (answers : List (Session.Answer × List TraceRecord)) (final : Session.State),
      Session.execute routing allowance config steps = .ok (answers, final) →
        (∃ journal, Reachable ⟨final.world, [], journal⟩) ∧
          ∀ dispatcher, final.world.depth dispatcher = 0 := by
  refine ⟨fun moment dispatcher hreachable hdispatcher ↦ ?_, ?_⟩
  · have hdepth := hreachable.depthsMatch.depth_eq dispatcher
    refine ⟨hdepth, ?_, ?_, ?_, fun limit ↦ hreachable.withinLimits dispatcher limit hdispatcher,
      ?_, ?_, ?_⟩
    · intro routing run arguments
      rw [Body.eval, ← hdepth]
      rfl
    · intro routing allowance arguments body after hafter
      have hrun := run_agree hreachable hdispatcher routing allowance
      have hleaves := Body.leavesAgree hreachable hdispatcher hrun routing moment.active
      exact (hreachable.ends_alike (Body.eval_agree hleaves arguments body) hafter).1
    · intro routing allowance arguments route after hafter
      have hagree := Route.call_agree hreachable hdispatcher routing allowance arguments route
      exact (hreachable.ends_alike hagree hafter).2
    · intro routing arguments route function definition limit hcallee hdefinition hlimit
      rw [Route.refused_iff hreachable hcallee hdefinition,
        hreachable.reachedLimit?_eq_some hdispatcher]
      exact and_iff_right hlimit
    · intro routing arguments route function definition limit after hcallee hdefinition hrefused
      have hreached := (Route.refused_iff hreachable hcallee hdefinition routing arguments).mp
        ⟨after, hrefused⟩
      obtain ⟨other, hvisible, hcall⟩ :=
        Route.call_at_limit hreachable hcallee hdefinition hreached routing arguments
      have hsame := (hrefused (run routing 0)).symm.trans (hcall (run routing 0))
      cases hsame
      exact hvisible
    · intro routing arguments route function definition hcallee hdefinition hlimit
      refine Route.call_below_limit hreachable hdispatcher hcallee hdefinition ?_ routing arguments
      refine Option.eq_none_iff_forall_ne_some.mpr fun limit hreached ↦ ?_
      obtain ⟨hsome, hactive⟩ := (hreachable.reachedLimit?_eq_some hdispatcher).mp hreached
      rw [hactive] at hlimit
      exact hlimit hsome
  · intro routing allowance config steps answers final hrun
    obtain ⟨journal, hreachable⟩ := Session.execute_reachable hrun
    exact ⟨⟨journal, hreachable⟩, hreachable.depthsMatch.depth_eq⟩

/-- With a limit of one and one call active, another call is refused in every way of calling that
reaches the function. -/
theorem depth_discipline_one_active :
    let config : Config := { depthLimit := some 1 }
    let before := start.after [.newRegistry config, .newDispatcher ⟨0⟩,
      .register ⟨0⟩ "f" { body := .depth }]
    let moment : Moment := { before with
      world := before.world.setDepth ⟨0⟩ 1
      active := [⟨⟨0⟩, 0⟩] }
    ∀ route ∈ [Route.direct ⟨0⟩, .named "f", .executed ⟨0⟩, .throughSite "site" ⟨0⟩],
      ∃ after, ∀ run, route.call .cached run ⟨0⟩ [] moment.world =
        .raised (.depthExceeded 1) after := by
  intro config before moment
  have hbefore : before.Reachable := leads_after _ _ (by decide)
  have hmoment : moment.Reachable := hbefore.tail (.enter ⟨0⟩ (by decide) (by decide))
  have hdiscipline := depth_discipline.1 moment ⟨0⟩ hmoment (by decide)
  intro route hroute
  refine (hdiscipline.refused_iff .cached [] route ⟨0⟩ { body := .depth } 1 ?_ rfl rfl).mpr rfl
  simp only [List.mem_cons, List.not_mem_nil, or_false] at hroute
  rcases hroute with rfl | rfl | rfl | rfl <;> decide

end Moment

end GuestCore
