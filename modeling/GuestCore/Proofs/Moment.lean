import GuestCore.Proofs.Effect
import Mathlib.Logic.Relation

/-!
# Moments of a Run

A moment of a run consists of the world as it is then, the calls that are active, and the journal
of all effects so far.  A step applies one effect, enters a call, or leaves the innermost call.
Every run of a program goes through such steps, so what all steps preserve holds at every moment
of every run, in the middle of nested calls too.
-/

namespace GuestCore

/-- An active call: the dispatcher it runs on, and the depth that it restores when it ends. -/
structure Frame where
  dispatcher : DispatcherId
  depth : Nat
deriving DecidableEq, Repr

structure Moment where
  world : World := {}
  /-- The active calls, innermost first. -/
  active : List Frame := []
  /-- The effects so far, oldest first. -/
  journal : List Effect := []

namespace Moment

/-- The moment before anything has happened. -/
def start : Moment := {}

inductive Step (moment : Moment) : Moment → Prop where
  | effect (effect : Effect) (hallowed : effect.Allowed moment.world) :
    Step moment { moment with
      world := effect.apply moment.world
      journal := moment.journal ++ [effect] }
  /-- A call begins unless the depth limit is reached. -/
  | enter (dispatcher : DispatcherId) (hdispatcher : moment.world.HasDispatcher dispatcher)
      (hlimit : (moment.world.configOf dispatcher).reachedLimit?
        (moment.world.depth dispatcher) = none) :
    Step moment { moment with
      world := moment.world.setDepth dispatcher (moment.world.depth dispatcher + 1)
      active := ⟨dispatcher, moment.world.depth dispatcher⟩ :: moment.active }
  /-- The innermost call ends. -/
  | leave (frame : Frame) (rest : List Frame) (hactive : moment.active = frame :: rest) :
    Step moment { moment with
      world := moment.world.setDepth frame.dispatcher frame.depth
      active := rest }

/-- Some steps lead from one moment to another. -/
def Leads : Moment → Moment → Prop :=
  Relation.ReflTransGen Step

/-- A moment of some run that begins with nothing. -/
def Reachable (moment : Moment) : Prop :=
  start.Leads moment

variable {earlier moment later : Moment}

theorem Reachable.start : Moment.start.Reachable :=
  Relation.ReflTransGen.refl

theorem Leads.trans (hearlier : earlier.Leads moment) (hlater : moment.Leads later) :
    earlier.Leads later :=
  Relation.ReflTransGen.trans hearlier hlater

theorem Reachable.leads (hearlier : moment.Reachable) (hlater : moment.Leads later) :
    later.Reachable :=
  hearlier.trans hlater

theorem Leads.effect (hearlier : earlier.Leads moment) (effect : Effect)
    (hallowed : effect.Allowed moment.world) :
    earlier.Leads { moment with
      world := effect.apply moment.world
      journal := moment.journal ++ [effect] } :=
  hearlier.tail (.effect effect hallowed)

/-- The moment after some effects in a row. -/
def after (moment : Moment) : List Effect → Moment
  | [] => moment
  | effect :: rest =>
    after { moment with
      world := effect.apply moment.world
      journal := moment.journal ++ [effect] } rest

/-- Each of the effects is allowed when it comes. -/
def AllAllowed (world : World) : List Effect → Prop
  | [] => True
  | effect :: rest => effect.Allowed world ∧ AllAllowed (effect.apply world) rest

instance decidableAllAllowed (world : World) :
    (effects : List Effect) → Decidable (AllAllowed world effects)
  | [] => inferInstanceAs (Decidable True)
  | effect :: rest =>
    have := decidableAllAllowed (effect.apply world) rest
    inferInstanceAs (Decidable (_ ∧ _))

theorem allAllowed_append {world : World} {first second : List Effect} :
    AllAllowed world (first ++ second) ↔
      AllAllowed world first ∧ AllAllowed (Effect.applyAll first world) second := by
  induction first generalizing world with
  | nil => exact (and_iff_right trivial).symm
  | cons effect rest ih => exact (and_congr_right fun _ ↦ ih).trans and_assoc.symm

theorem world_after (moment : Moment) (effects : List Effect) :
    (moment.after effects).world = Effect.applyAll effects moment.world := by
  induction effects generalizing moment with
  | nil => rfl
  | cons effect rest ih => exact ih _

theorem leads_after (moment : Moment) (effects : List Effect)
    (hallowed : AllAllowed moment.world effects) : moment.Leads (moment.after effects) := by
  induction effects generalizing moment with
  | nil => exact .refl
  | cons effect rest ih =>
    exact Leads.trans (.single (.effect effect hallowed.1)) (ih _ hallowed.2)

/-- What every step preserves holds at every later moment. -/
theorem Leads.preserves {motive : Moment → Prop}
    (hstep : ∀ {before after : Moment}, motive before → before.Step after → motive after)
    (hleads : earlier.Leads later) (hearlier : motive earlier) : motive later := by
  induction hleads with
  | refl => exact hearlier
  | tail _ step ih => exact hstep ih step

/-- What holds at the start and is preserved by all steps of runs holds at every moment. -/
theorem Reachable.invariant {motive : Moment → Prop} (hreachable : moment.Reachable)
    (hstart : motive Moment.start)
    (hstep : ∀ {before after : Moment}, before.Reachable → motive before → before.Step after →
      motive after) : motive moment := by
  induction hreachable with
  | refl => exact hstart
  | tail hbefore step ih => exact hstep hbefore ih step

/-- The journal is only ever continued. -/
theorem Leads.journal_prefix (hleads : earlier.Leads later) :
    earlier.journal <+: later.journal := by
  apply hleads.preserves (motive := fun moment ↦ earlier.journal <+: moment.journal)
  · intro before after hbefore step
    cases step with
    | effect effect _ => exact hbefore.trans (List.prefix_append _ _)
    | enter | leave => exact hbefore
  · exact List.prefix_refl _

end Moment

/-! ## Registries and dispatchers are for good -/

namespace World

@[simp]
theorem size_dispatchers_setDepth (world : World) (dispatcher : DispatcherId) (depth : Nat) :
    (world.setDepth dispatcher depth).dispatchers.size = world.dispatchers.size := by
  simp [setDepth]

@[simp]
theorem registry_dispatcher_setDepth (world : World) (dispatcher other : DispatcherId)
    (depth : Nat) :
    ((world.setDepth dispatcher depth).dispatcher other).registry =
      (world.dispatcher other).registry := by
  have hget := Table.get_modify world.dispatchers dispatcher.index other.index fun state ↦
    { state with depth := depth }
  refine (congrArg Dispatcher.registry hget).trans ?_
  split <;> rfl

/-- The later world has all registries and dispatchers of the earlier one, with their settings. -/
structure Extends (earlier later : World) : Prop where
  registries : earlier.registries.size ≤ later.registries.size
  dispatchers : earlier.dispatchers.size ≤ later.dispatchers.size
  config : ∀ registry, earlier.HasRegistry registry →
    (later.registry registry).config = (earlier.registry registry).config
  home : ∀ dispatcher, earlier.HasDispatcher dispatcher →
    (later.dispatcher dispatcher).registry = (earlier.dispatcher dispatcher).registry

namespace Extends

variable {earlier world later : World}

theorem refl (world : World) : world.Extends world :=
  ⟨Nat.le_refl _, Nat.le_refl _, fun _ _ ↦ rfl, fun _ _ ↦ rfl⟩

theorem hasRegistry (hextends : earlier.Extends later) {registry : RegistryId}
    (hregistry : earlier.HasRegistry registry) : later.HasRegistry registry :=
  Nat.lt_of_lt_of_le hregistry hextends.registries

theorem hasDispatcher (hextends : earlier.Extends later) {dispatcher : DispatcherId}
    (hdispatcher : earlier.HasDispatcher dispatcher) : later.HasDispatcher dispatcher :=
  Nat.lt_of_lt_of_le hdispatcher hextends.dispatchers

theorem trans (hfirst : earlier.Extends world) (hsecond : world.Extends later) :
    earlier.Extends later where
  registries := Nat.le_trans hfirst.registries hsecond.registries
  dispatchers := Nat.le_trans hfirst.dispatchers hsecond.dispatchers
  config registry hregistry :=
    (hsecond.config registry (hfirst.hasRegistry hregistry)).trans
      (hfirst.config registry hregistry)
  home dispatcher hdispatcher :=
    (hsecond.home dispatcher (hfirst.hasDispatcher hdispatcher)).trans
      (hfirst.home dispatcher hdispatcher)

theorem setDepth (world : World) (dispatcher : DispatcherId) (depth : Nat) :
    world.Extends (world.setDepth dispatcher depth) where
  registries := Nat.le_refl _
  dispatchers := Nat.le_of_eq (world.size_dispatchers_setDepth dispatcher depth).symm
  config _ _ := rfl
  home other _ := world.registry_dispatcher_setDepth dispatcher other depth

theorem effect (effect : Effect) (world : World) : world.Extends (effect.apply world) where
  registries := (effect.registries_apply world).1
  config := (effect.registries_apply world).2
  dispatchers := by
    rw [effect.dispatchers_apply]
    split
    · simp
    · exact Nat.le_refl _
  home dispatcher hdispatcher := by
    rw [World.dispatcher, effect.dispatchers_apply]
    split
    · rw [Table.get_push, if_neg (Nat.ne_of_lt hdispatcher)]
      rfl
    · rfl

theorem applyAll (effects : List Effect) (world : World) :
    world.Extends (Effect.applyAll effects world) := by
  induction effects generalizing world with
  | nil => exact .refl world
  | cons effect rest ih => exact (Extends.effect effect world).trans (ih _)

end Extends

/-- A batch may be applied to a registry that exists, and so may its entries. -/
theorem allAllowed_batchEffects {world : World} {registry : RegistryId}
    (hregistry : world.HasRegistry registry) (batch : Batch) :
    Moment.AllAllowed world (world.batchEffects registry batch) := by
  have hentries : ∀ (entries : List (String × Definition)) (world : World),
      world.HasRegistry registry →
        Moment.AllAllowed world (entries.map fun entry ↦ .register registry entry.1 entry.2) := by
    intro entries
    induction entries with
    | nil => exact fun _ _ ↦ trivial
    | cons entry rest ih =>
      intro world hexists
      have hstill := Extends.effect (.register registry entry.1 entry.2) world
      exact ⟨hexists, ih _ (hstill.hasRegistry hexists)⟩
  refine ⟨hregistry, ?_⟩
  split
  · trivial
  · have hstill := Extends.effect (.beginBatch registry batch) world
    exact hentries batch.entries _ (hstill.hasRegistry hregistry)

/-- Every dispatcher belongs to a registry that exists. -/
def WellFormed (world : World) : Prop :=
  ∀ dispatcher, world.HasDispatcher dispatcher →
    world.HasRegistry (world.dispatcher dispatcher).registry

end World

namespace Moment

variable {earlier moment later : Moment}

theorem Step.extends (step : earlier.Step later) : earlier.world.Extends later.world := by
  cases step with
  | effect effect _ => exact World.Extends.effect effect earlier.world
  | enter dispatcher | leave frame => exact World.Extends.setDepth _ _ _

theorem Leads.extends (hleads : earlier.Leads later) : earlier.world.Extends later.world := by
  apply hleads.preserves (motive := fun moment ↦ earlier.world.Extends moment.world)
  · intro before after hbefore step
    exact hbefore.trans step.extends
  · exact World.Extends.refl _

theorem Step.wellFormed (step : earlier.Step later) (hearlier : earlier.world.WellFormed) :
    later.world.WellFormed := by
  intro dispatcher hdispatcher
  by_cases hold : earlier.world.HasDispatcher dispatcher
  · rw [step.extends.home dispatcher hold]
    exact step.extends.hasRegistry (hearlier dispatcher hold)
  · cases step with
    | effect effect hallowed =>
      rw [World.HasDispatcher, effect.dispatchers_apply] at hdispatcher
      rw [World.dispatcher, effect.dispatchers_apply]
      split at hdispatcher
      · next registry =>
        have hindex : dispatcher.index = earlier.world.dispatchers.size := by
          simp only [Table.size_push] at hdispatcher
          simp only [World.HasDispatcher] at hold
          omega
        simp only [Table.get_push, if_pos hindex]
        exact (World.Extends.effect _ _).hasRegistry hallowed
      · exact absurd hdispatcher hold
    | enter | leave => exact absurd (by simpa [World.HasDispatcher] using hdispatcher) hold

theorem Reachable.wellFormed (hreachable : moment.Reachable) : moment.world.WellFormed := by
  apply hreachable.invariant (motive := fun moment ↦ moment.world.WellFormed)
  · intro dispatcher hdispatcher
    exact absurd hdispatcher (Nat.not_lt_zero _)
  · intro before after _ hbefore step
    exact step.wellFormed hbefore

end Moment

end GuestCore
