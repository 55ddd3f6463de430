import GuestCore.Proofs.SessionEvents

/-!
# How Deeply Calls Nest

The nesting of a call is the number of active calls on its dispatcher, itself included.  The
deepest nesting of a run is read off its events.  A computation that does not run out of its
allowance has not nested its calls more deeply than the allowance permits.
-/

namespace GuestCore

open Session

/-! ## The deepest nesting -/

namespace Event

/-- How deeply a call is nested that begins with the event. -/
def nesting : Event → Nat
  | enter frame => frame.depth + 1
  | effect _ | leave _ => 0

def deepest (events : List Event) : Nat :=
  (events.map nesting).foldr max 0

theorem nesting_le_deepest {event : Event} {events : List Event} (hevent : event ∈ events) :
    event.nesting ≤ deepest events := by
  induction events with
  | nil => cases hevent
  | cons first rest ih =>
    rcases List.mem_cons.mp hevent with rfl | hrest
    · exact Nat.le_max_left _ _
    · exact Nat.le_trans (ih hrest) (Nat.le_max_right _ _)

/-- The deepest nesting is that of some call. -/
theorem exists_enter_of_lt_deepest {bound : Nat} {events : List Event}
    (hbound : bound < deepest events) : ∃ frame, .enter frame ∈ events ∧ bound ≤ frame.depth := by
  induction events with
  | nil => exact absurd hbound (Nat.not_lt_zero bound)
  | cons first rest ih =>
    rcases Nat.lt_or_ge bound (deepest rest) with hrest | hrest
    · obtain ⟨frame, hframe, hdepth⟩ := ih hrest
      exact ⟨frame, List.mem_cons_of_mem _ hframe, hdepth⟩
    · have hfirst : bound < first.nesting := by
        change bound < max first.nesting (deepest rest) at hbound
        omega
      cases first with
      | enter frame => exact ⟨frame, List.mem_cons_self, Nat.le_of_lt_succ hfirst⟩
      | effect | leave => exact absurd hfirst (Nat.not_lt_zero bound)

end Event

/-! ## Nesting and the allowance -/

namespace Traced

variable {α β : Type} {dispatcher : DispatcherId} {bound : Nat}

/-- The computation goes in steps, and if it ends, it has nested fewer calls than the bound on top
of those that were active. -/
structure Nests (dispatcher : DispatcherId) (bound : Nat) (traced : Traced α) : Prop where
  goesInSteps : traced.GoesInSteps dispatcher
  within : ∀ moment : Moment, moment.Reachable → moment.world.HasDispatcher dispatcher →
    (traced moment.world).1 ≠ .exhausted →
      0 < bound ∧ ∀ frame, .enter frame ∈ (traced moment.world).2 →
        frame.depth + 1 < moment.world.depth dispatcher + bound

/-- A computation that goes on after another one begins at the same depth. -/
theorem Nests.continued {next : Traced β} (hnext : next.Nests dispatcher bound) {moment : Moment}
    (hreachable : moment.Reachable) (hdispatcher : moment.world.HasDispatcher dispatcher)
    {events : List Event} (hlegal : moment.Legal events) {middle : World}
    (hmiddle : (moment.followAll events).world = middle)
    (hactive : (moment.followAll events).active = moment.active)
    (hends : (next middle).1 ≠ .exhausted) :
    0 < bound ∧ ∀ frame, .enter frame ∈ (next middle).2 →
      frame.depth + 1 < moment.world.depth dispatcher + bound := by
  subst hmiddle
  have hlater := hreachable.leads hlegal.leads
  have hdepth : (moment.followAll events).world.depth dispatcher =
      moment.world.depth dispatcher := by
    rw [hlater.depthsMatch.depth_eq, hactive, hreachable.depthsMatch.depth_eq]
  rw [← hdepth]
  exact hnext.within _ hlater (hlegal.leads.extends.hasDispatcher hdispatcher) hends

namespace Nests

variable {first fallback : Traced α}

theorem pure (hbound : 0 < bound) (value : α) :
    Nests dispatcher bound (Pure.pure value : Traced α) :=
  ⟨.pure value, fun _ _ _ _ ↦ ⟨hbound, nofun⟩⟩

theorem bind {next : α → Traced β} (hfirst : first.Nests dispatcher bound)
    (hnext : ∀ value, (next value).Nests dispatcher bound) :
    Nests dispatcher bound (first >>= next) := by
  refine ⟨.bind hfirst.goesInSteps fun value ↦ (hnext value).goesInSteps, ?_⟩
  intro moment hreachable hdispatcher hends
  have hwithin := hfirst.within moment hreachable hdispatcher
  obtain ⟨hlegal, hsteps⟩ := hfirst.goesInSteps moment hreachable hdispatcher
  change (Traced.bind first next moment.world).1 ≠ .exhausted at hends
  change 0 < bound ∧ ∀ frame, .enter frame ∈ (Traced.bind first next moment.world).2 → _
  unfold Traced.bind at hends ⊢
  generalize first moment.world = result at hwithin hlegal hsteps hends
  obtain ⟨outcome, events⟩ := result
  cases outcome with
  | returned value middle =>
    obtain ⟨hmiddle, hactive⟩ := hsteps middle rfl
    obtain ⟨hbound, hrest⟩ :=
      (hnext value).continued hreachable hdispatcher hlegal hmiddle hactive hends
    refine ⟨hbound, fun frame hframe ↦ ?_⟩
    rcases List.mem_append.mp hframe with hearly | hlate
    · exact (hwithin nofun).2 frame hearly
    · exact hrest frame hlate
  | raised fault middle => exact hwithin nofun
  | exhausted => exact absurd rfl hends

theorem orElse (hfirst : first.Nests dispatcher bound)
    (hfallback : fallback.Nests dispatcher bound) :
    Nests dispatcher bound (first.orElse fallback) := by
  refine ⟨.orElse hfirst.goesInSteps hfallback.goesInSteps, ?_⟩
  intro moment hreachable hdispatcher hends
  have hwithin := hfirst.within moment hreachable hdispatcher
  obtain ⟨hlegal, hsteps⟩ := hfirst.goesInSteps moment hreachable hdispatcher
  unfold Traced.orElse at hends ⊢
  generalize first moment.world = result at hwithin hlegal hsteps hends
  obtain ⟨outcome, events⟩ := result
  cases outcome with
  | returned value middle => exact hwithin nofun
  | raised fault middle =>
    obtain ⟨hmiddle, hactive⟩ := hsteps middle rfl
    obtain ⟨hbound, hrest⟩ :=
      hfallback.continued hreachable hdispatcher hlegal hmiddle hactive hends
    refine ⟨hbound, fun frame hframe ↦ ?_⟩
    rcases List.mem_append.mp hframe with hearly | hlate
    · exact (hwithin nofun).2 frame hearly
    · exact hrest frame hlate
  | exhausted => exact absurd rfl hends

theorem performing (hbound : 0 < bound) (part : Body.Leaf α) :
    Nests dispatcher bound (.performing (part.perform dispatcher) fun world ↦
      part.effects dispatcher world) := by
  refine ⟨.performing part, fun moment _ _ _ ↦ ⟨hbound, fun frame hframe ↦ ?_⟩⟩
  obtain ⟨effect, -, heffect⟩ := List.mem_map.mp hframe
  cases heffect

theorem partsClosed (dispatcher : DispatcherId) (hbound : 0 < bound) :
    PartsClosed dispatcher (Nests dispatcher bound) where
  pure := .pure hbound
  bind := .bind
  orElse := .orElse
  leaf := .performing hbound

end Nests

/-- A call is nested one deeper than what it runs. -/
theorem activate_nests {traced : TracedRunner}
    (hrun : ∀ definition arguments, (traced dispatcher definition arguments).Nests dispatcher bound)
    (name : String) (definition : Definition) (arguments : List Value) :
    (activate traced dispatcher arguments name definition).Nests dispatcher (bound + 1) := by
  refine ⟨activate_goesInSteps (fun definition arguments ↦ (hrun definition arguments).goesInSteps)
    name definition arguments, fun moment hreachable hdispatcher hends ↦ ?_⟩
  refine ⟨Nat.succ_pos bound, fun frame hframe ↦ ?_⟩
  unfold activate at hends hframe
  dsimp only at hends hframe
  cases hlimit : (moment.world.configOf dispatcher).reachedLimit?
      (moment.world.depth dispatcher) with
  | some limit =>
    rw [hlimit] at hframe
    cases List.mem_singleton.mp hframe
  | none =>
    rw [hlimit] at hends hframe
    have hentered : moment.Step
        (moment.follow (.enter ⟨dispatcher, moment.world.depth dispatcher⟩)) :=
      .enter dispatcher hdispatcher hlimit
    have hinner := (hrun definition arguments).within _ (hreachable.leads (.single hentered))
      (hentered.extends.hasDispatcher hdispatcher)
    have hdepth : (moment.follow
        (.enter ⟨dispatcher, moment.world.depth dispatcher⟩)).world.depth dispatcher =
          moment.world.depth dispatcher + 1 := by
      rw [Moment.world_follow, Event.apply, World.depth_setDepth _ hdispatcher, if_pos rfl]
    rw [hdepth] at hinner
    dsimp only [Moment.follow] at hinner hends hframe
    generalize traced dispatcher definition arguments _ = result at hinner hends hframe
    obtain ⟨outcome, events⟩ := result
    have hended : outcome ≠ .exhausted := by
      rintro rfl
      exact hends rfl
    obtain ⟨hpositive, hevents⟩ := hinner hended
    rcases List.mem_cons.mp hframe with hfirst | hrest
    · obtain rfl : frame = ⟨dispatcher, moment.world.depth dispatcher⟩ := Event.enter.inj hfirst
      dsimp only
      omega
    · rcases List.mem_append.mp hrest with hinside | hleaving
      · have hnested := hevents frame hinside
        omega
      · cases outcome with
        | returned | raised => cases List.mem_singleton.mp hleaving
        | exhausted => cases hleaving

theorem call_nests {traced : TracedRunner}
    (hrun : ∀ definition arguments, (traced dispatcher definition arguments).Nests dispatcher bound)
    (arguments : List Value) (routing : Routing) (route : Route) :
    (call traced dispatcher arguments routing route).Nests dispatcher (bound + 1) := by
  refine ⟨call_goesInSteps (fun definition arguments ↦ (hrun definition arguments).goesInSteps)
    arguments routing route, fun moment hreachable hdispatcher hends ↦ ?_⟩
  have henter (target : Except Fault (String × Definition)) :
      (enter traced dispatcher arguments target).Nests dispatcher (bound + 1) := by
    cases target with
    | ok found => exact activate_nests hrun found.1 found.2 arguments
    | error fault => exact ⟨.raise fault, fun _ _ _ _ ↦ ⟨Nat.succ_pos bound, nofun⟩⟩
  have hlegal := Moment.Legal.effects (route.allAllowed_effects hreachable hdispatcher routing)
  have hactive : (moment.followAll ((route.effects routing moment.world dispatcher).map
      .effect)).active = moment.active := by
    rw [Moment.followAll_effects, Moment.active_after]
  obtain ⟨hpositive, hframes⟩ := (henter (route.target routing moment.world dispatcher)).continued
    hreachable hdispatcher hlegal (moment.world_followAll _) hactive hends
  refine ⟨hpositive, fun frame hframe ↦ ?_⟩
  rcases List.mem_append.mp hframe with hbefore | hinside
  · obtain ⟨effect, -, heffect⟩ := List.mem_map.mp hbefore
    cases heffect
  · exact hframes frame hinside

theorem tracedRun_nests (routing : Routing) (allowance : Nat) (definition : Definition)
    (arguments : List Value) :
    (tracedRun routing allowance dispatcher definition arguments).Nests dispatcher allowance := by
  induction allowance generalizing definition arguments with
  | zero => exact ⟨fun _ _ _ ↦ ⟨trivial, nofun⟩, fun _ _ _ hends ↦ absurd rfl hends⟩
  | succ allowance ih =>
    exact (Nests.partsClosed dispatcher (Nat.succ_pos allowance)).interpret
      (fun arguments route ↦ call_nests ih arguments routing route) arguments definition.body

end Traced

theorem Session.PreparedCall.traced_nests (call : PreparedCall) (routing : Routing)
    (allowance : Nat) :
    (call.traced routing allowance).Nests call.dispatcher (allowance + 1) :=
  call.traced_of_calls (Traced.Nests.partsClosed call.dispatcher (Nat.succ_pos allowance))
    fun arguments route ↦
      Traced.call_nests (Traced.tracedRun_nests routing allowance) arguments routing route

end GuestCore
