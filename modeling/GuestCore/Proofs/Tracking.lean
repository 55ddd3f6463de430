import GuestCore.Proofs.Coherence
import GuestCore.Proofs.Simulation

/-!
# Runs in Steps

Running a body, with calls routed in any way, goes through steps from moment to moment and ends
with the calls active that were active at the beginning.  At the same time it agrees with the run
that leaves call sites alone, from any world that looks the same.  Both facts are one induction,
on the allowance of nested calls: the second needs the first, because sites are coherent at every
moment.
-/

namespace GuestCore

/-! ## Effects on worlds that look the same -/

namespace World

variable (world : World)

theorem findOrCreate_visible (registry : RegistryId) (name : String) :
    (world.visible.findOrCreate registry name).2.visible =
      (world.findOrCreate registry name).2.visible := by
  cases hname : world.functionNamed? registry name with
  | some function =>
    have hvisible : world.visible.functionNamed? registry name = some function := hname
    rw [findOrCreate_of_some hname, findOrCreate_of_some hvisible]
    rfl
  | none =>
    have hvisible : world.visible.functionNamed? registry name = none := hname
    rw [findOrCreate_of_none hname, findOrCreate_of_none hvisible]
    rfl

theorem register_visible (registry : RegistryId) (name : String) (definition : Definition) :
    (world.visible.register registry name definition).2.visible =
      (world.register registry name definition).2.visible := by
  cases hname : world.functionNamed? registry name with
  | some function =>
    have hvisible : world.visible.functionNamed? registry name = some function := hname
    rw [register_of_some definition hname, register_of_some definition hvisible]
    rfl
  | none =>
    have hvisible : world.visible.functionNamed? registry name = none := hname
    rw [register_of_none definition hname, register_of_none definition hvisible]
    rfl

theorem beginBatch_visible (registry : RegistryId) (batch : Batch) :
    (world.visible.beginBatch registry batch).visible =
      (world.beginBatch registry batch).visible := by
  have hregistry : ∀ world : World,
      (world.log (.registerBatch batch.entries.length)).registry registry =
        world.registry registry := fun _ ↦ rfl
  unfold beginBatch
  dsimp only
  rw [hregistry, hregistry, registry_visible]
  split <;> rfl

end World

namespace Effect

/-- What an effect does to the visible part depends on the visible part alone. -/
theorem visible_apply_visible (effect : Effect) (world : World) :
    (effect.apply world.visible).visible = (effect.apply world).visible := by
  cases effect with
  | findOrCreate registry name => exact world.findOrCreate_visible registry name
  | register registry name definition => exact world.register_visible registry name definition
  | beginBatch registry batch => exact world.beginBatch_visible registry batch
  | noteCall dispatcher site function => simp [apply]
  | _ => rfl

theorem visible_apply_eq {left right : World} (effect : Effect)
    (hvisible : left.visible = right.visible) :
    (effect.apply left).visible = (effect.apply right).visible :=
  World.eq_of_visible_eq (fun world ↦ (effect.apply world).visible) effect.visible_apply_visible
    hvisible

end Effect

namespace World

variable {left right : World}

theorem visible_setDepth_eq (hvisible : left.visible = right.visible) (dispatcher : DispatcherId)
    (depth : Nat) :
    (left.setDepth dispatcher depth).visible = (right.setDepth dispatcher depth).visible :=
  eq_of_visible_eq (fun world ↦ (world.setDepth dispatcher depth).visible) (fun _ ↦ rfl) hvisible

end World

/-! ## Following a run -/

namespace Moment

/-- The left world is at a moment after the origin at which the given calls are active, and the
right one looks the same. -/
structure Tracks (origin : Moment) (active : List Frame) (left right : World) : Prop where
  visible_eq : left.visible = right.visible
  leads : ∃ journal, origin.Leads ⟨left, active, journal⟩

namespace Tracks

variable {origin : Moment} {active : List Frame} {dispatcher : DispatcherId} {left right : World}

/-- Whatever is visible is the same on both sides. -/
theorem look_eq {α : Type} (htracks : origin.Tracks active left right) (look : World → α)
    (hlook : ∀ world : World, look world.visible = look world) : look left = look right :=
  World.eq_of_visible_eq look hlook htracks.visible_eq

theorem reachable (htracks : origin.Tracks active left right) (horigin : origin.Reachable) :
    ∃ journal, Reachable ⟨left, active, journal⟩ := by
  obtain ⟨journal, hleads⟩ := htracks.leads
  exact ⟨journal, horigin.leads hleads⟩

theorem coherent (htracks : origin.Tracks active left right) (horigin : origin.Reachable) :
    left.Coherent := by
  obtain ⟨journal, hreachable⟩ := htracks.reachable horigin
  exact hreachable.coherent

theorem origin_extends (htracks : origin.Tracks active left right) : origin.world.Extends left := by
  obtain ⟨journal, hleads⟩ := htracks.leads
  exact hleads.extends

theorem hasRegistry (htracks : origin.Tracks active left right) (horigin : origin.Reachable)
    (hdispatcher : origin.world.HasDispatcher dispatcher) :
    left.HasRegistry (left.dispatcher dispatcher).registry := by
  obtain ⟨journal, hreachable⟩ := htracks.reachable horigin
  exact hreachable.wellFormed dispatcher (htracks.origin_extends.hasDispatcher hdispatcher)

/-- Both worlds take the same effect. -/
theorem effect (htracks : origin.Tracks active left right) (effect : Effect)
    (hallowed : effect.Allowed left) :
    origin.Tracks active (effect.apply left) (effect.apply right) where
  visible_eq := effect.visible_apply_eq htracks.visible_eq
  leads := by
    obtain ⟨journal, hleads⟩ := htracks.leads
    exact ⟨journal ++ [effect], hleads.effect effect hallowed⟩

/-- The bookkeeping of a call through a site is done on the left alone. -/
theorem noteCall (htracks : origin.Tracks active left right) (dispatcher : DispatcherId)
    (siteName : String) (function : FunctionId) :
    origin.Tracks active (left.noteCall dispatcher siteName function) right := by
  have hnoted := htracks.effect (.noteCall dispatcher siteName function) trivial
  refine ⟨?_, hnoted.leads⟩
  rw [World.visible_noteCall]
  exact htracks.visible_eq

theorem enter (htracks : origin.Tracks active left right)
    (hdispatcher : origin.world.HasDispatcher dispatcher)
    (hlimit : (left.configOf dispatcher).reachedLimit? (left.depth dispatcher) = none) :
    origin.Tracks (⟨dispatcher, left.depth dispatcher⟩ :: active)
      (left.setDepth dispatcher (left.depth dispatcher + 1))
      (right.setDepth dispatcher (left.depth dispatcher + 1)) where
  visible_eq := World.visible_setDepth_eq htracks.visible_eq dispatcher _
  leads := by
    have hexists := htracks.origin_extends.hasDispatcher hdispatcher
    obtain ⟨journal, hleads⟩ := htracks.leads
    exact ⟨journal, hleads.tail (.enter dispatcher hexists hlimit)⟩

theorem leave {depth : Nat} (htracks : origin.Tracks (⟨dispatcher, depth⟩ :: active) left right) :
    origin.Tracks active (left.setDepth dispatcher depth) (right.setDepth dispatcher depth) where
  visible_eq := World.visible_setDepth_eq htracks.visible_eq dispatcher depth
  leads := by
    obtain ⟨journal, hleads⟩ := htracks.leads
    exact ⟨journal, hleads.tail (.leave ⟨dispatcher, depth⟩ active rfl)⟩

end Tracks

/-- Following a run is a simulation, in which call sites do not matter. -/
def tracking {origin : Moment} (horigin : origin.Reachable) (active : List Frame) :
    Simulation where
  worlds := origin.Tracks active
  settings := Eq
  sites _ _ := True
  contents_eq htracks := World.contents_eq_of_visible_eq htracks.visible_eq
  wellFormed htracks := by
    obtain ⟨journal, hreachable⟩ := htracks.reachable horigin
    exact hreachable.wellFormed
  settings_of := by
    intro left right htracks registry _
    exact htracks.look_eq (fun world ↦ (world.registry registry).config) fun _ ↦ rfl
  sites_of _ _ := trivial
  effect htracks effect _ hallowed := htracks.effect effect hallowed
  newRegistry := by
    rintro left right htracks config _ rfl
    exact htracks.effect (.newRegistry config) trivial

theorem after_tracking {origin : Moment} (horigin : origin.Reachable) (active : List Frame) :
    (tracking horigin active).After origin.world = origin.Tracks active := by
  funext left right
  exact propext ⟨fun hafter ↦ hafter.worlds, fun htracks ↦ ⟨htracks, htracks.origin_extends⟩⟩

end Moment

/-! ## Calls -/

section Calls

variable {origin : Moment} {active : List Frame} {dispatcher : DispatcherId}
  {leftRun rightRun : Runner}

/-- Runners agree whatever calls are active. -/
def Dispatch.RunnersAgree (origin : Moment) (dispatcher : DispatcherId)
    (leftRun rightRun : Runner) : Prop :=
  ∀ (active : List Frame) (definition : Definition) (arguments : List Value),
    Action.Agree (origin.Tracks active) (leftRun dispatcher definition arguments)
      (rightRun dispatcher definition arguments)

namespace Dispatch

theorem activate_agree (hdispatcher : origin.world.HasDispatcher dispatcher)
    (hrun : RunnersAgree origin dispatcher leftRun rightRun) (name : String)
    (definition : Definition) (arguments : List Value) :
    Action.Agree (origin.Tracks active)
      (activate leftRun dispatcher name definition arguments)
      (activate rightRun dispatcher name definition arguments) := by
  intro left right htracks
  have hdepth := htracks.look_eq (fun world ↦ world.depth dispatcher) fun _ ↦ rfl
  have hconfig := htracks.look_eq (fun world ↦ world.configOf dispatcher) fun _ ↦ rfl
  unfold activate
  dsimp only at hdepth hconfig ⊢
  rw [← hconfig, ← hdepth]
  cases hlimit : (left.configOf dispatcher).reachedLimit? (left.depth dispatcher) with
  | some limit => exact .raised _ (htracks.effect (.refuseCall name limit) trivial)
  | none =>
    have hends := hrun _ definition arguments (htracks.enter hdispatcher hlimit)
    unfold Action.restoring
    dsimp only
    generalize leftRun dispatcher definition arguments _ = leftOutcome at hends
    generalize rightRun dispatcher definition arguments _ = rightOutcome at hends
    cases hends with
    | returned value hafter => exact .returned value hafter.leave
    | raised fault hafter => exact .raised fault hafter.leave
    | exhausted => exact .exhausted

theorem call_agree (hdispatcher : origin.world.HasDispatcher dispatcher)
    (hrun : RunnersAgree origin dispatcher leftRun rightRun)
    (function : FunctionId) (arguments : List Value) :
    Action.Agree (origin.Tracks active) (call leftRun dispatcher function arguments)
      (call rightRun dispatcher function arguments) := by
  intro left right htracks
  have hstate := htracks.look_eq (fun world ↦ world.functionState function) fun _ ↦ rfl
  unfold call
  dsimp only at hstate ⊢
  rw [← hstate]
  cases (left.functionState function).definition with
  | none => exact .raised _ htracks
  | some definition => exact activate_agree hdispatcher hrun _ definition arguments htracks

theorem callNamed_agree (horigin : origin.Reachable)
    (hdispatcher : origin.world.HasDispatcher dispatcher)
    (hrun : RunnersAgree origin dispatcher leftRun rightRun) (name : String)
    (arguments : List Value) :
    Action.Agree (origin.Tracks active) (callNamed leftRun dispatcher name arguments)
      (callNamed rightRun dispatcher name arguments) := by
  intro left right htracks
  have hfound := htracks.effect (.find (left.dispatcher dispatcher).registry name)
    (htracks.hasRegistry horigin hdispatcher)
  have hname : left.functionNamed? (left.dispatcher dispatcher).registry name =
      right.functionNamed? (right.dispatcher dispatcher).registry name :=
    htracks.look_eq
      (fun world ↦ world.functionNamed? (world.dispatcher dispatcher).registry name) fun _ ↦ rfl
  unfold callNamed World.find
  rw [← hname]
  cases left.functionNamed? (left.dispatcher dispatcher).registry name with
  | some function => exact call_agree hdispatcher hrun function arguments hfound
  | none => exact .raised _ hfound

/-- A call through a site, in whatever way it is routed, agrees with the plain call. -/
theorem callAt_agree (horigin : origin.Reachable)
    (hdispatcher : origin.world.HasDispatcher dispatcher)
    (hrun : RunnersAgree origin dispatcher leftRun rightRun) (routing : Routing)
    (siteName : String) (function : FunctionId) (arguments : List Value) :
    Action.Agree (origin.Tracks active)
      (callAt routing leftRun dispatcher siteName function arguments)
      (callAt .generic rightRun dispatcher siteName function arguments) := by
  intro left right htracks
  cases routing with
  | cached =>
    have hcall := call_agree hdispatcher hrun function arguments
      (htracks.noteCall dispatcher siteName function)
    rw [← (htracks.coherent horigin).callThroughCache_eq_call] at hcall
    exact hcall
  | generic => exact call_agree hdispatcher hrun function arguments htracks

theorem route_agree (horigin : origin.Reachable)
    (hdispatcher : origin.world.HasDispatcher dispatcher)
    (hrun : RunnersAgree origin dispatcher leftRun rightRun) (routing : Routing) (route : Route)
    (arguments : List Value) :
    Action.Agree (origin.Tracks active) (route.call routing leftRun dispatcher arguments)
      (route.call .generic rightRun dispatcher arguments) := by
  cases route with
  | direct callee | executed callee => exact call_agree hdispatcher hrun callee arguments
  | named name => exact callNamed_agree horigin hdispatcher hrun name arguments
  | throughSite site callee =>
    exact callAt_agree horigin hdispatcher hrun routing site callee arguments

end Dispatch

/-! ## Bodies -/

theorem Body.leavesAgree (horigin : origin.Reachable)
    (hdispatcher : origin.world.HasDispatcher dispatcher)
    (hrun : Dispatch.RunnersAgree origin dispatcher leftRun rightRun) (routing : Routing)
    (active : List Frame) :
    Body.LeavesAgree (origin.Tracks active) routing .generic leftRun rightRun dispatcher where
  leaf part := by
    rw [← Moment.after_tracking horigin active]
    exact Simulation.leaf_agree hdispatcher part
  call := Dispatch.route_agree horigin hdispatcher hrun routing

/-- A run goes through steps, and it agrees with the run that leaves call sites alone. -/
theorem run_agree (horigin : origin.Reachable)
    (hdispatcher : origin.world.HasDispatcher dispatcher) (routing : Routing) (allowance : Nat) :
    Dispatch.RunnersAgree origin dispatcher (run routing allowance) (run .generic allowance) := by
  induction allowance with
  | zero => exact fun _ _ _ _ _ _ ↦ .exhausted
  | succ allowance ih =>
    intro active definition arguments
    exact Body.eval_agree (Body.leavesAgree horigin hdispatcher ih routing active) arguments
      definition.body

theorem Route.call_agree (horigin : origin.Reachable)
    (hdispatcher : origin.world.HasDispatcher dispatcher) (routing : Routing) (allowance : Nat)
    (arguments : List Value) (route : Route) :
    Action.Agree (origin.Tracks origin.active)
      (route.call routing (run routing allowance) dispatcher arguments)
      (route.call .generic (run .generic allowance) dispatcher arguments) := by
  exact Dispatch.route_agree horigin hdispatcher
    (run_agree horigin hdispatcher routing allowance) routing route arguments

theorem Receiver.execute_agree (horigin : origin.Reachable)
    (hdispatcher : origin.world.HasDispatcher dispatcher) (routing : Routing) (allowance : Nat)
    (arguments : List Value) (receiver : Receiver) :
    Action.Agree (origin.Tracks active)
      (receiver.execute routing (run routing allowance) dispatcher arguments)
      (receiver.execute .generic (run .generic allowance) dispatcher arguments) := by
  have hrun := run_agree horigin hdispatcher routing allowance
  have hleaves := Body.leavesAgree horigin hdispatcher hrun routing active
  induction receiver with
  | native value =>
    unfold Receiver.execute Value.execute
    cases value.function? with
    | some callee => exact hleaves.call (.executed callee) arguments
    | none => exact .raise _
  | descriptor | functions => exact .raise _
  | foreign value =>
    unfold Receiver.execute
    cases value.body? with
    | some body => exact Body.eval_agree hleaves arguments body
    | none => exact .raise _
  | view delegate ih => exact ih

end Calls

end GuestCore
