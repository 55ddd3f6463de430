import GuestCore.Proofs.CreatingLookup
import GuestCore.Proofs.Demands
import GuestCore.Proofs.Isolation

/-!
# Handles of Objects

A session holds handles of objects in many places: in the members of other objects, in lists, in
the constants of functions, in what call sites remember, in batches and in slots.  Wherever it
holds one, the object exists.  A call passes handles on: it creates no object, so that all handles
it returns or leaves behind are those of objects that existed before.
-/

namespace GuestCore

open Session

variable {stage : Stage}

/-! ## Values and bodies -/

namespace Value

mutual

/-- The objects whose handles a value holds. -/
def handles : Value → List ObjectId
  | object id => [id]
  | list _ items => handlesAll items
  | null | integer _ | boolean _ | text _ _ | function _ => []

def handlesAll : List Value → List ObjectId
  | [] => []
  | item :: rest => handles item ++ handlesAll rest

end

mutual

theorem Alike.objects : {left right : Value} → left.Alike stage right →
    ∀ object ∈ left.handles, stage.objects object
  | null, _, .null | integer _, _, .integer _ | boolean _, _, .boolean _ | text _ _, _, .text _ _
  | function _, _, .function _ => by
    rw [handles]
    exact nofun
  | object _, _, .object hobject => by
    rw [handles]
    exact List.forall_mem_singleton.mpr hobject
  | list _ _, _, .list _ hitems => by
    rw [handles]
    exact objects_of_allAlike hitems

theorem objects_of_allAlike : {items others : List Value} →
    List.Forall₂ (Alike stage) items others → ∀ object ∈ handlesAll items, stage.objects object
  | [], _, .nil => by
    rw [handlesAll]
    exact nofun
  | _ :: _, _, .cons hfirst hrest => by
    rw [handlesAll]
    exact List.forall_mem_append.mpr ⟨hfirst.objects, objects_of_allAlike hrest⟩

end

end Value

namespace Body

variable {κ μ : Type} {related : κ → μ → Prop}

mutual

theorem Related.constants : {body : Body κ} → {other : Body μ} → Related related body other →
    List.Forall₂ related body.constants other.constants
  | constant _, _, .constant hvalue => by
    rw [Body.constants, Body.constants]
    exact .cons hvalue .nil
  | argument _, _, .argument _ | argumentCount, _, .argumentCount | depth, _, .depth
  | lookup _, _, .lookup _ | fail _, _, .fail _ => by
    rw [Body.constants, Body.constants]
    exact .nil
  | list _, _, .list hitems | sequence _, _, .sequence hitems | call _ _, _, .call _ hitems
  | callAt _ _ _, _, .callAt _ _ hitems | registerBatch _ _ _, _, .registerBatch _ _ hitems => by
    rw [Body.constants, Body.constants]
    exact constants_of_allRelated hitems
  | operator _ _ _ _, _, .operator _ _ hleft hright
  | writeMember _ _ _, _, .writeMember _ hleft hright
  | attempt _ _, _, .attempt hleft hright => by
    rw [Body.constants, Body.constants]
    exact List.rel_append hleft.constants hright.constants
  | choose _ _ _, _, .choose hcondition hthen helse => by
    rw [Body.constants, Body.constants]
    exact List.rel_append (List.rel_append hcondition.constants hthen.constants) helse.constants
  | execute _ _, _, .execute hcallee harguments
  | executeAt _ _ _, _, .executeAt _ hcallee harguments => by
    rw [Body.constants, Body.constants]
    exact List.rel_append hcallee.constants (constants_of_allRelated harguments)
  | register _ _ _, _, .register _ _ hbody | readMember _ _, _, .readMember _ hbody
  | removeMember _ _, _, .removeMember _ hbody => by
    rw [Body.constants, Body.constants]
    exact hbody.constants

theorem constants_of_allRelated : {bodies : List (Body κ)} → {others : List (Body μ)} →
    List.Forall₂ (Related related) bodies others →
      List.Forall₂ related (constantsAll bodies) (constantsAll others)
  | [], _, .nil => by
    rw [constantsAll, constantsAll]
    exact .nil
  | _ :: _, _, .cons hfirst hrest => by
    rw [constantsAll, constantsAll]
    exact List.rel_append hfirst.constants (constants_of_allRelated hrest)

end

end Body

/-! ## Where a session holds handles -/

namespace Definition

def handles (definition : Definition) : List ObjectId :=
  Value.handlesAll definition.body.constants

theorem Alike.objects {left right : Definition} (halike : left.Alike stage right) :
    ∀ object ∈ left.handles, stage.objects object :=
  Value.objects_of_allAlike halike.body.constants

end Definition

/-- The values that a foreign value holds. -/
def Foreign.values (value : Foreign) : List Value :=
  value.native?.toList ++ value.members?.toList ++ value.elements?.toList ++
    value.body?.toList.flatMap Body.constants

def Receiver.handles : Receiver → List ObjectId
  | native value => value.handles
  | descriptor _ | functions _ => []
  | foreign value => Value.handlesAll value.values
  | view delegate => delegate.handles

theorem forall₂_toList {α β : Type} {related : α → β → Prop} {left : Option α} {right : Option β}
    (hrel : Option.Rel related left right) :
    List.Forall₂ related left.toList right.toList := by
  cases hrel with
  | some hrelated => exact .cons hrelated .nil
  | none => exact .nil

theorem Foreign.Alike.values {left right : Foreign} (halike : left.Alike stage right) :
    List.Forall₂ (Value.Alike stage) left.values right.values := by
  have hbody : List.Forall₂ (Value.Alike stage) (left.body?.toList.flatMap Body.constants)
      (right.body?.toList.flatMap Body.constants) :=
    List.rel_flatMap (forall₂_toList halike.body) fun _ _ hbody ↦ hbody.constants
  exact List.rel_append (List.rel_append (List.rel_append (forall₂_toList halike.native)
    (forall₂_toList halike.members)) (forall₂_toList halike.elements)) hbody

theorem Receiver.Alike.objects {left right : Receiver} (halike : left.Alike stage right) :
    ∀ object ∈ left.handles, stage.objects object := by
  induction halike with
  | native hvalue => exact hvalue.objects
  | descriptor | functions => exact nofun
  | foreign hvalue => exact Value.objects_of_allAlike hvalue.values
  | view _ ih => exact ih

/-- The world holds a handle of the object. -/
inductive World.Mentions (world : World) (object : ObjectId) : Prop where
  | member {owner : ObjectId} {member : String} {content : Value}
      (hmember : (world.members owner).get? member = some content)
      (hobject : object ∈ content.handles)
  | definition {function : FunctionId} {definition : Definition}
      (hdefinition : (world.functionState function).definition = some definition)
      (hobject : object ∈ definition.handles)
  | remembered {site : String} {target : SiteTarget} (htarget : target ∈ (world.site site).targets)
      (hobject : object ∈ target.definition.handles)

/-- The session holds a handle of the object. -/
inductive Session.State.Mentions (state : State) (object : ObjectId) : Prop where
  | world (hworld : state.world.Mentions object)
  | slot {name : String} {place : Place} (hplace : state.slots.get? name = some place)
      (hobject : object ∈ place.receiver.handles)
  | batch {name : String} {batch : Batch} {entry : String × Definition}
      (hbatch : state.batches.get? name = some batch) (hentry : entry ∈ batch.entries)
      (hobject : object ∈ entry.2.handles)

/-! ## What is mentioned exists -/

theorem Members.Related.exists_of_get? {α β : Type} {related : α → β → Prop} {left : Members α}
    {right : Members β} (hrelated : Related related left right) {key : String} {value : α}
    (hkey : left.get? key = some value) : ∃ other, related value other := by
  have hrel := hrelated.get? key
  rw [hkey] at hrel
  generalize right.get? key = found at hrel
  cases hrel with
  | some hvalue => exact ⟨_, hvalue⟩

/-- What relations say of things on their left holds of all things on the left. -/
theorem forall_mem_of_forall₂ {α β : Type} {related : α → β → Prop} {holds : α → Prop}
    {items : List α} {others : List β} (hitems : List.Forall₂ related items others)
    (hholds : ∀ {item other}, related item other → holds item) : ∀ item ∈ items, holds item :=
  have hboth := hitems.imp fun _ _ hrelated ↦ And.intro (hholds hrelated) hrelated
  ((List.forall₂_and_left items others).mp hboth).1

namespace World

variable {loose : RegistryId → String → Bool} {world other : World}

/-- Only an object that exists has members. -/
theorem hasObject_of_get? {object : ObjectId} {member : String} {content : Value}
    (hmember : (world.members object).get? member = some content) : world.HasObject object := by
  refine Nat.lt_of_not_le fun habsent ↦ ?_
  have hempty : world.members object = default := by
    simp only [Table.size] at habsent
    simp [members, Table.get, habsent]
  rw [hempty] at hmember
  cases hmember

/-- In a world that is like another one, all handles are those of objects that exist. -/
theorem Alike.hasObject (halike : Alike loose stage world other) {object : ObjectId}
    (hmentions : world.Mentions object) : world.HasObject object := by
  apply halike.objects_iff.mp
  cases hmentions with
  | member hmember hobject =>
    have howner := halike.objects_iff.mpr (hasObject_of_get? hmember)
    obtain ⟨_, hcontent⟩ := (halike.members _ howner).exists_of_get? hmember
    exact hcontent.objects object hobject
  | @definition function definition hdefinition hobject =>
    -- A function that has a definition exists, so it has a name, and names are alike.
    obtain ⟨registry, name, hname⟩ :=
      halike.soundLeft.canonical.exists_name (hasFunction_of_definition hdefinition)
    have hnamed := halike.named registry name
    rw [stateNamed?, hname, Option.map_some] at hnamed
    generalize other.stateNamed? registry name = known at hnamed
    cases hnamed with
    | @both _ state hdefinitions =>
      rw [hdefinition] at hdefinitions
      generalize state.definition = defined at hdefinitions
      cases hdefinitions with
      | some halike => exact halike.objects object hobject
  | @remembered site target htarget hobject =>
    exact forall_mem_of_forall₂ (halike.sites site).targets
      (fun htargets ↦ htargets.definition.objects) target htarget object hobject

end World

namespace Session

variable {loose : RegistryId → String → Bool} {state other : State}

theorem State.AlikeAt.hasObject (halike : State.AlikeAt loose stage state other)
    {object : ObjectId} (hmentions : state.Mentions object) : state.world.HasObject object := by
  cases hmentions with
  | world hworld => exact halike.world.hasObject hworld
  | slot hplace hobject =>
    obtain ⟨_, hplaces⟩ := halike.slots.exists_of_get? hplace
    exact halike.world.objects_iff.mp (hplaces.receiver.objects object hobject)
  | batch hbatch hentry hobject =>
    obtain ⟨_, hbatches⟩ := halike.batches.exists_of_get? hbatch
    have hobjects := forall_mem_of_forall₂ hbatches.entries fun hentries ↦ hentries.2.objects
    exact halike.world.objects_iff.mp (hobjects _ hentry object hobject)

end Session

/-! ## Events -/

namespace Effect

/-- What the effect makes of the members of an object. -/
def onMembers (object : ObjectId) (table : Members Value) : Effect → Members Value
  | writeMember other member content =>
    if other = object then table.insert member content else table
  | setMembers other members => if other = object then members else table
  | _ => table

variable (effect : Effect) (world : World)

/-- Objects are added, their members are changed, and otherwise they are left alone. -/
theorem objects_apply :
    (effect.apply world).objects = match effect with
      | newObject members => world.objects.push members
      | writeMember object member content =>
        (world.modifyMembers object fun table ↦ table.insert member content).objects
      | setMembers object members => (world.modifyMembers object fun _ ↦ members).objects
      | _ => world.objects := by
  cases effect with
  | findOrCreate registry name =>
    exact (world.sameBesidesFunctions_findOrCreate registry name).objects
  | register registry name definition =>
    exact (world.sameBesidesFunctions_register registry name definition).objects
  | beginBatch registry batch =>
    exact (world.sameBesidesFunctions_beginBatch registry batch).objects
  | noteCall dispatcher site function =>
    exact (World.visible_eq_iff.mp (world.visible_noteCall dispatcher site function)).1
  | _ => rfl

theorem size_objects_apply :
    (effect.apply world).objects.size = match effect with
      | newObject _ => world.objects.size + 1
      | _ => world.objects.size := by
  rw [objects_apply]
  cases effect with
  | newObject members => exact Table.size_push _ _
  | writeMember | setMembers => exact Table.size_modify _ _ _
  | _ => rfl

theorem hasObject_apply {object : ObjectId} (hobject : world.HasObject object) :
    (effect.apply world).HasObject object := by
  refine Nat.lt_of_lt_of_le hobject ?_
  rw [size_objects_apply]
  split
  · exact Nat.le_succ _
  · exact Nat.le_refl _

/-- The members of an object that exists are changed by what is addressed to this object. -/
theorem members_apply {object : ObjectId} (hobject : world.HasObject object) :
    (effect.apply world).members object = effect.onMembers object (world.members object) := by
  rw [World.members, objects_apply]
  cases effect with
  | newObject members =>
    exact (Table.get_push _ _ _).trans (if_neg (Nat.ne_of_lt hobject))
  | writeMember other | setMembers other =>
    refine (World.members_modifyMembers world other object _).trans ?_
    simp only [onMembers, and_iff_left (show object.index < world.objects.size from hobject)]
  | _ => rfl

end Effect

/-- The members of an object change by what is addressed to it, at every moment of every run. -/
theorem Moment.Leads.members {earlier later : Moment} (hleads : earlier.Leads later) :
    ∃ effects, later.journal = earlier.journal ++ effects ∧
      ∀ object, earlier.world.HasObject object → later.world.HasObject object ∧
        later.world.members object =
          effects.foldl (fun table effect ↦ effect.onMembers object table)
            (earlier.world.members object) := by
  induction hleads with
  | refl => exact ⟨[], (List.append_nil _).symm, fun _ hobject ↦ ⟨hobject, rfl⟩⟩
  | tail _ step ih =>
    obtain ⟨effects, hjournal, hmembers⟩ := ih
    cases step with
    | enter | leave => exact ⟨effects, hjournal, hmembers⟩
    | effect effect _ =>
      refine ⟨effects ++ [effect], ?_, fun object hobject ↦ ?_⟩
      · rw [hjournal, List.append_assoc]
      · obtain ⟨hexists, heq⟩ := hmembers object hobject
        refine ⟨effect.hasObject_apply _ hexists, ?_⟩
        rw [effect.members_apply _ hexists, heq, List.foldl_append]
        rfl

namespace Event

variable {home : RegistryId} {dispatcher : DispatcherId} {world : World}

/-- What happens in a call creates no object. -/
theorem StaysIn.size_objects_apply {event : Event} (hstays : event.StaysIn home dispatcher) :
    (event.apply world).objects.size = world.objects.size := by
  cases event with
  | enter | leave => rfl
  | effect effect =>
    refine (effect.size_objects_apply world).trans ?_
    cases effect with
    | newObject => exact hstays.elim
    | _ => rfl

theorem size_objects_replay {events : List Event}
    (hstays : ∀ event ∈ events, event.StaysIn home dispatcher) :
    (replay events world).objects.size = world.objects.size := by
  induction events generalizing world with
  | nil => rfl
  | cons event rest ih =>
    obtain ⟨hfirst, hrest⟩ := List.forall_mem_cons.mp hstays
    rw [replay_cons, ih hrest, hfirst.size_objects_apply]

end Event

/-! ## Calls -/

namespace Session

def Callable.handles : Callable → List ObjectId
  | route _ => []
  | receiver callee => callee.handles

namespace PreparedCall

/-- The objects whose handles a call is given. -/
def handles (call : PreparedCall) : List ObjectId :=
  call.callable.handles ++ Value.handlesAll call.arguments

theorem Alike.objects {call other : PreparedCall} (halike : call.Alike stage other) :
    ∀ object ∈ call.handles, stage.objects object := by
  refine List.forall_mem_append.mpr ⟨?_, Value.objects_of_allAlike halike.arguments⟩
  have hcallable := halike.callable
  generalize call.callable = callable, other.callable = callable' at hcallable
  cases hcallable with
  | route => exact nofun
  | receiver hreceiver => exact hreceiver.objects

/-- How a call passes handles on. -/
structure PassesHandles (call : PreparedCall) (routing : Routing) (allowance : Nat)
    (world : World) : Prop where
  given : ∀ object ∈ call.handles, world.HasObject object
  returned : ∀ value after, call.perform routing allowance world = .returned value after →
    ∀ object ∈ value.handles, world.HasObject object
  /-- However the call ends, it has created no object. -/
  size_eq : ∀ after, (call.perform routing allowance world).world? = some after →
    after.objects.size = world.objects.size
  mentioned : ∀ after, (call.perform routing allowance world).world? = some after →
    ∀ object, after.Mentions object → world.HasObject object

variable (call : PreparedCall) (routing : Routing) (allowance : Nat) {world : World}

/-- A call creates no object: the events that lead to its end do not. -/
theorem size_objects_perform {after : World}
    (hafter : (call.perform routing allowance world).world? = some after) :
    after.objects.size = world.objects.size := by
  -- The registry that is asked about plays no part; it only must not be the home.
  let home := (world.dispatcher call.dispatcher).registry
  have hother : (⟨home.index + 1⟩ : RegistryId) ≠ home := fun heq ↦
    Nat.succ_ne_self _ (congrArg RegistryId.index heq)
  have hstays := call.traced_of_closed (Traced.staysHome_closed routing _) allowance world _ id
    hother
  rw [← (call.traced_describes routing allowance world).2 after hafter]
  exact Event.size_objects_replay hstays.events

variable {call} {loose : RegistryId → String → Bool} {other : PreparedCall} {otherWorld : World}

/-- A call that is like another one passes handles on. -/
theorem Alike.passesHandles (halike : call.Alike stage other)
    (hworlds : World.Alike loose stage world otherWorld) :
    call.PassesHandles routing allowance world := by
  have hsize (after : World)
      (hafter : (call.perform routing allowance world).world? = some after) :=
    call.size_objects_perform routing allowance hafter
  have hends := halike.perform routing allowance le_rfl hworlds
  refine ⟨fun object hobject ↦ hworlds.objects_iff.mp (halike.objects object hobject), ?_, hsize,
    ?_⟩
  · intro value after hreturned
    rw [hreturned] at hends
    generalize other.perform routing allowance otherWorld = outcome at hends
    cases hends with
    | returned hmore hvalue hafter =>
      exact fun object hobject ↦ hworlds.objects_iff.mp (hvalue.objects object hobject)
  · intro after hafter object hmentions
    rw [World.HasObject, ← hsize after hafter]
    generalize call.perform routing allowance world = outcome,
      other.perform routing allowance otherWorld = outcome' at hends hafter
    cases hends with
    | returned _ _ hworlds | raised _ hworlds =>
      obtain rfl := Option.some.inj hafter
      exact hworlds.hasObject hmentions
    | exhausted => cases hafter

end PreparedCall

end Session

end GuestCore
