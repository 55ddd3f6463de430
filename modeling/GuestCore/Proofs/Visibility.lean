import GuestCore.Session.Run

/-!
# What Programs See

Programs never read what call sites remember, nor the trace.  The visible part of a world is the
rest of it.
-/

namespace GuestCore

/-- The world without what its call sites remember and without its trace. -/
def World.visible (world : World) : World :=
  { world with sites := {}, history := [] }

namespace World

variable {left right : World}

@[simp]
theorem visible_visible (world : World) : world.visible.visible = world.visible := rfl

@[simp]
theorem visible_log (world : World) (record : TraceRecord) :
    (world.log record).visible = world.visible := rfl

@[simp]
theorem visible_setSite (world : World) (name : String) (site : Site) :
    (world.setSite name site).visible = world.visible := rfl

@[simp]
theorem visible_foldl_log (world : World) (records : List TraceRecord) :
    (records.foldl World.log world).visible = world.visible := by
  induction records generalizing world with
  | nil => rfl
  | cons record records ih => rw [List.foldl_cons, ih, visible_log]

/-- Two worlds look the same if they agree on everything but sites and trace. -/
theorem visible_eq_iff :
    left.visible = right.visible ↔
      left.objects = right.objects ∧ left.functions = right.functions ∧
        left.registries = right.registries ∧ left.dispatchers = right.dispatchers ∧
          left.nextIdentity = right.nextIdentity := by
  constructor
  · intro hvisible
    have hparts := World.mk.inj hvisible
    exact ⟨hparts.1, hparts.2.1, hparts.2.2.1, hparts.2.2.2.1, hparts.2.2.2.2.2.1⟩
  · rintro ⟨hobjects, hfunctions, hregistries, hdispatchers, hidentity⟩
    simp only [visible, hobjects, hfunctions, hregistries, hdispatchers, hidentity]

theorem functions_eq_of_visible_eq (hvisible : left.visible = right.visible) :
    left.functions = right.functions :=
  (visible_eq_iff.mp hvisible).2.1

theorem registries_eq_of_visible_eq (hvisible : left.visible = right.visible) :
    left.registries = right.registries :=
  (visible_eq_iff.mp hvisible).2.2.1

theorem dispatchers_eq_of_visible_eq (hvisible : left.visible = right.visible) :
    left.dispatchers = right.dispatchers :=
  (visible_eq_iff.mp hvisible).2.2.2.1

/-- A function of the visible part takes the same value on two worlds that look the same. -/
theorem eq_of_visible_eq {α : Type} (look : World → α)
    (hlook : ∀ world : World, look world.visible = look world)
    (hvisible : left.visible = right.visible) : look left = look right := by
  rw [← hlook left, hvisible, hlook right]

@[simp]
theorem registry_visible (world : World) (registry : RegistryId) :
    world.visible.registry registry = world.registry registry := rfl

end World

end GuestCore
