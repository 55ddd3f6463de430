import GuestCore.Proofs.Agreement
import GuestCore.Proofs.Contents
import GuestCore.Proofs.Moment

/-!
# Simulations

A simulation relates two worlds with the same contents, whose call sites, settings and traces may
differ.  It is kept by every plain effect, that is, by whatever a program does to the world apart
from calls.  So the things that programs and sessions do by themselves agree on both sides.
-/

namespace GuestCore

namespace Table

variable {α β : Type}

theorem map_push (convert : α → β) (table : Table α) (cell : α) :
    (table.push cell).map convert = (table.map convert).push (convert cell) := by
  simp [map, push]

theorem map_modify {convert : α → β} {change : α → α} {changed : β → β}
    (hcommutes : ∀ cell, convert (change cell) = changed (convert cell)) (table : Table α)
    (index : Nat) :
    (table.modify index change).map convert = (table.map convert).modify index changed := by
  simp only [map, modify, mk.injEq]
  apply Array.ext
  · simp
  · intro position hleft hright
    simp only [Array.getElem_map, Array.getElem_modify]
    split
    · exact hcommutes _
    · rfl

end Table

namespace World

variable {left right : World}

theorem contents_visible (world : World) : world.visible.contents = world.contents := rfl

theorem contents_eq_of_visible_eq (hvisible : left.visible = right.visible) :
    left.contents = right.contents := by
  rw [← left.contents_visible, hvisible, right.contents_visible]

end World

namespace Effect

/-- Neither a new registry nor the bookkeeping of calls. -/
def isPlain : Effect → Bool
  | newRegistry _ | noteCall _ _ _ | refuseCall _ _ => false
  | _ => true

end Effect

/-! ## Simulations -/

/-- Related worlds have the same contents, whatever plain effects they take.  Settings and sites
are related in ways of their own. -/
structure Simulation where
  worlds : World → World → Prop
  settings : Config → Config → Prop
  sites : Site → Site → Prop
  contents_eq : ∀ {left right : World}, worlds left right → left.contents = right.contents
  wellFormed : ∀ {left right : World}, worlds left right → left.WellFormed
  settings_of : ∀ {left right : World}, worlds left right → ∀ {registry : RegistryId},
    left.HasRegistry registry →
      settings (left.registry registry).config (right.registry registry).config
  sites_of : ∀ {left right : World}, worlds left right → ∀ name : String,
    sites (left.site name) (right.site name)
  effect : ∀ {left right : World}, worlds left right → ∀ effect : Effect,
    effect.isPlain = true → effect.Allowed left → worlds (effect.apply left) (effect.apply right)
  newRegistry : ∀ {left right : World}, worlds left right → ∀ {leftConfig rightConfig : Config},
    settings leftConfig rightConfig →
      worlds (left.newRegistry leftConfig).2 (right.newRegistry rightConfig).2

namespace Simulation

variable {simulation : Simulation} {base left right : World}

/-- Related worlds after a world from which they have everything that exists in it. -/
structure After (simulation : Simulation) (base left right : World) : Prop where
  worlds : simulation.worlds left right
  extends_base : base.Extends left

namespace After

/-- Whatever depends on the contents is the same on both sides. -/
theorem look_eq {α : Type} (hafter : simulation.After base left right) (look : World → α)
    (hlook : ∀ world : World, look world.contents = look world) : look left = look right :=
  World.eq_of_contents_eq look hlook (simulation.contents_eq hafter.worlds)

theorem effect (hafter : simulation.After base left right) (effect : Effect)
    (hplain : effect.isPlain = true) (hallowed : effect.Allowed left) :
    simulation.After base (effect.apply left) (effect.apply right) :=
  ⟨simulation.effect hafter.worlds effect hplain hallowed,
    hafter.extends_base.trans (World.Extends.effect effect left)⟩

theorem hasRegistry (hafter : simulation.After base left right) {registry : RegistryId}
    (hregistry : base.HasRegistry registry) : left.HasRegistry registry :=
  hafter.extends_base.hasRegistry hregistry

theorem findOrCreate (hafter : simulation.After base left right) {registry : RegistryId}
    (hregistry : left.HasRegistry registry) (name : String) :
    (left.findOrCreate registry name).1 = (right.findOrCreate registry name).1 ∧
      simulation.After base (left.findOrCreate registry name).2
        (right.findOrCreate registry name).2 := by
  have hname := hafter.look_eq (fun world ↦ world.functionNamed? registry name) (by simp)
  have hsize := hafter.look_eq (fun world ↦ world.functions.size) fun _ ↦ rfl
  refine ⟨?_, hafter.effect (.findOrCreate registry name) rfl hregistry⟩
  cases hknown : right.functionNamed? registry name with
  | some function =>
    rw [World.findOrCreate_of_some hknown, World.findOrCreate_of_some (hname.trans hknown)]
  | none =>
    rw [World.findOrCreate_of_none hknown, World.findOrCreate_of_none (hname.trans hknown)]
    exact congrArg FunctionId.mk hsize

theorem register (hafter : simulation.After base left right) {registry : RegistryId}
    (hregistry : left.HasRegistry registry) (name : String) (definition : Definition) :
    (left.register registry name definition).1 = (right.register registry name definition).1 ∧
      simulation.After base (left.register registry name definition).2
        (right.register registry name definition).2 := by
  have hname := hafter.look_eq (fun world ↦ world.functionNamed? registry name) (by simp)
  have hsize := hafter.look_eq (fun world ↦ world.functions.size) fun _ ↦ rfl
  refine ⟨?_, hafter.effect (.register registry name definition) rfl hregistry⟩
  cases hknown : right.functionNamed? registry name with
  | some function =>
    rw [World.register_of_some definition hknown,
      World.register_of_some definition (hname.trans hknown)]
  | none =>
    rw [World.register_of_none definition hknown,
      World.register_of_none definition (hname.trans hknown)]
    exact congrArg FunctionId.mk hsize

theorem registerAll (hafter : simulation.After base left right) {registry : RegistryId}
    (hregistry : left.HasRegistry registry) (entries : List (String × Definition)) :
    simulation.After base (left.registerAll registry entries)
      (right.registerAll registry entries) := by
  induction entries generalizing left right with
  | nil => exact hafter
  | cons entry rest ih =>
    have hstill := World.Extends.effect (.register registry entry.1 entry.2) left
    exact ih (hafter.register hregistry entry.1 entry.2).2 (hstill.hasRegistry hregistry)

theorem registerBatch (hafter : simulation.After base left right) {registry : RegistryId}
    (hregistry : left.HasRegistry registry) (batch : Batch) :
    simulation.After base (left.registerBatch registry batch)
      (right.registerBatch registry batch) := by
  have happlied := hafter.look_eq (fun world ↦ (world.registry registry).applied) (by simp)
  have hbegun := hafter.effect (.beginBatch registry batch) rfl hregistry
  have hstill := World.Extends.effect (.beginBatch registry batch) left
  rw [World.registerBatch_eq, World.registerBatch_eq, ← happlied]
  split
  · exact hbegun
  · exact hbegun.registerAll (hstill.hasRegistry hregistry) batch.entries

end After

/-! ## What programs do by themselves -/

theorem freshIdentity_agree :
    StepsAgree (simulation.After base) World.freshIdentity World.freshIdentity :=
  fun _ _ hafter ↦
    ⟨hafter.look_eq World.nextIdentity fun _ ↦ rfl, hafter.effect .freshIdentity rfl trivial⟩

theorem newList_agree (values : List Value) :
    StepsAgree (simulation.After base) (fun world ↦ world.newList values)
      (fun world ↦ world.newList values) := by
  intro left right hafter
  obtain ⟨hidentity, hfresh⟩ := freshIdentity_agree hafter
  exact ⟨congrArg (fun identity ↦ Value.list ⟨identity⟩ values) hidentity, hfresh⟩

theorem newText_agree (content : String) :
    StepsAgree (simulation.After base) (fun world ↦ world.newText content)
      (fun world ↦ world.newText content) := by
  intro left right hafter
  obtain ⟨hidentity, hfresh⟩ := freshIdentity_agree hafter
  exact ⟨congrArg (fun identity ↦ Value.text ⟨identity⟩ content) hidentity, hfresh⟩

theorem newObject_agree (members : Members Value) :
    StepsAgree (simulation.After base) (fun world ↦ world.newObject members)
      (fun world ↦ world.newObject members) :=
  fun _ _ hafter ↦ ⟨hafter.look_eq (fun world ↦ (world.newObject members).1) fun _ ↦ rfl,
    hafter.effect (.newObject members) rfl trivial⟩

theorem setMembers_agree (object : ObjectId) (members : Members Value) :
    StepsAgree (simulation.After base)
      (fun world ↦ ((), world.modifyMembers object fun _ ↦ members))
      (fun world ↦ ((), world.modifyMembers object fun _ ↦ members)) :=
  fun _ _ hafter ↦ ⟨rfl, hafter.effect (.setMembers object members) rfl trivial⟩

theorem operator_agree (operator : BinaryOperator) (operation : Operation)
    (leftOperand rightOperand : Receiver) :
    Action.Agree (simulation.After base)
      (Operator.run operator operation leftOperand rightOperand)
      (Operator.run operator operation leftOperand rightOperand) := by
  intro left right hafter
  have happly := hafter.look_eq
    (fun world ↦ Operator.apply world operator operation leftOperand rightOperand) (by simp)
  unfold Operator.run
  rw [← happly]
  cases Operator.apply left operator operation leftOperand rightOperand with
  | error fault => exact .raised fault hafter
  | ok scalar =>
    cases scalar with
    | integer value => exact .returned _ hafter
    | boolean value => exact .returned _ hafter
    | text content => exact Action.Agree.state (newText_agree content) hafter

theorem writeMember_agree (value : Value) (member : String) (content : Value) :
    Action.Agree (simulation.After base) (value.writeMember member content)
      (value.writeMember member content) := by
  unfold Value.writeMember
  cases value.object? with
  | some object =>
    exact fun _ _ hafter ↦
      .returned () (hafter.effect (.writeMember object member content) rfl trivial)
  | none => exact .raise _

theorem removeMember_agree (value : Value) (member : String) :
    Action.Agree (simulation.After base) (value.removeMember member)
      (value.removeMember member) := by
  unfold Value.removeMember
  cases value.object? with
  | some object =>
    intro left right hafter
    have hmembers := hafter.look_eq (fun world ↦ world.members object) fun _ ↦ rfl
    dsimp only at hmembers ⊢
    rw [← hmembers]
    cases (left.members object).remove member with
    | ok removed => exact .returned () (setMembers_agree object removed.2 hafter).2
    | error fault => exact .raised fault hafter
  | none => exact .raise _

/-- What a part of a body does by itself. -/
theorem leaf_agree {α : Type} {dispatcher : DispatcherId}
    (hdispatcher : base.HasDispatcher dispatcher) (part : Body.Leaf α) :
    Action.Agree (simulation.After base) (part.perform dispatcher) (part.perform dispatcher) := by
  have hregistry {left right : World} (hafter : simulation.After base left right) :
      (left.dispatcher dispatcher).registry = (right.dispatcher dispatcher).registry :=
    hafter.look_eq (fun world ↦ (world.dispatcher dispatcher).registry) fun _ ↦ rfl
  have hexists {left right : World} (hafter : simulation.After base left right) :
      left.HasRegistry (left.dispatcher dispatcher).registry :=
    simulation.wellFormed hafter.worlds dispatcher (hafter.extends_base.hasDispatcher hdispatcher)
  cases part with
  | depth =>
    exact .read fun hafter ↦
      hafter.look_eq (fun world ↦ Value.integer (world.depth dispatcher)) fun _ ↦ rfl
  | newList values => exact .state (newList_agree values)
  | operator op operation left right => exact operator_agree op operation _ _
  | findOrCreate name =>
    refine .state fun left right hafter ↦ ?_
    rw [← hregistry hafter]
    exact hafter.findOrCreate (hexists hafter) name
  | register name definition =>
    have hregister : StepsAgree (simulation.After base)
        (fun world ↦ world.register (world.dispatcher dispatcher).registry name definition)
        (fun world ↦ world.register (world.dispatcher dispatcher).registry name definition) := by
      intro left right hafter
      dsimp only
      rw [← hregistry hafter]
      exact hafter.register (hexists hafter) name definition
    exact (Action.Agree.state hregister).bind fun function ↦ .pure (Value.function function)
  | registerBatch batch =>
    intro left right hafter
    refine .returned () ?_
    dsimp only
    rw [← hregistry hafter]
    exact hafter.registerBatch (hexists hafter) batch
  | readMember value member =>
    exact .ofExcept fun hafter ↦
      hafter.look_eq (fun world ↦ value.readMember world member) fun _ ↦ rfl
  | writeMember value member content => exact writeMember_agree value member content
  | removeMember value member => exact removeMember_agree value member
  | fail | notExecutable => exact .raise _

end Simulation

end GuestCore
