import GuestCore.Proofs.ObjectCount

/-!
# Handles Alias by Identity

A handle of an object may be held by many places, bare or seen through views.  Two handles are
identical exactly if their object is the same.  Then each shows what is written or removed through
the other; otherwise nothing done through one is seen through the other.  This holds of all handles
in a session, because no way of passing a handle on replaces it by another one.
-/

namespace GuestCore

open Session

/-! ## Handles -/

namespace Receiver

/-- The object whose handle the receiver is, through any number of views. -/
def handle? : Receiver → Option ObjectId
  | native value => value.object?
  | descriptor _ | functions _ | foreign _ => none
  | view delegate => delegate.handle?

variable {receiver : Receiver} {object : ObjectId}

/-- What every view leaves as it is, a handle answers as its object does. -/
theorem eq_of_handle? {β : Type} (look : Receiver → β)
    (hview : ∀ delegate, look (view delegate) = look delegate)
    (hhandle : receiver.handle? = some object) :
    look receiver = look (native (.object object)) := by
  induction receiver with
  | native value =>
    cases value with
    | object id =>
      obtain rfl := Option.some.inj hhandle
      rfl
    | _ => cases hhandle
  | descriptor | functions | foreign => cases hhandle
  | view delegate ih => exact (hview delegate).trans (ih hhandle)

/-- The receiver shows the members of a table: every message about members is answered from it. -/
structure Shows (world : World) (receiver : Receiver) (table : Members Value) : Prop where
  readMember : ∀ member, receiver.readMember world member = table.read member
  memberNames : receiver.memberNames world = .ok table.keys
  isMemberReadable : ∀ member, receiver.isMemberReadable world member = table.contains member
  isMemberWritable : ∀ member, receiver.isMemberWritable world member = table.contains member
  isMemberRemovable : ∀ member, receiver.isMemberRemovable world member = table.contains member
  isMemberInsertable : ∀ member,
    receiver.isMemberInsertable world member = table.isInsertable member

/-- A handle shows the members of its object. -/
theorem shows_of_handle? (hhandle : receiver.handle? = some object) (world : World) :
    receiver.Shows world (world.members object) where
  readMember member := eq_of_handle? (·.readMember world member) (fun _ ↦ rfl) hhandle
  memberNames := eq_of_handle? (·.memberNames world) (fun _ ↦ rfl) hhandle
  isMemberReadable member := eq_of_handle? (·.isMemberReadable world member) (fun _ ↦ rfl) hhandle
  isMemberWritable member := eq_of_handle? (·.isMemberWritable world member) (fun _ ↦ rfl) hhandle
  isMemberRemovable member := eq_of_handle? (·.isMemberRemovable world member) (fun _ ↦ rfl) hhandle
  isMemberInsertable member :=
    eq_of_handle? (·.isMemberInsertable world member) (fun _ ↦ rfl) hhandle

end Receiver

/-- Handles are identical exactly if their object is the same, wherever they are. -/
theorem Place.identical_iff {left right : Place} {object other : ObjectId}
    (hleft : left.receiver.handle? = some object)
    (hright : right.receiver.handle? = some other) :
    left.identical right = true ↔ object = other := by
  have hnative : right.receiver.native? = some (.object other) :=
    Receiver.eq_of_handle? Receiver.native? (fun _ ↦ rfl) hright
  have hanswer : left.receiver.identityAnswer right.receiver = .ofBool (object = other) := by
    rw [Receiver.eq_of_handle? (·.identityAnswer right.receiver) (fun _ ↦ rfl) hleft,
      Receiver.identityAnswer, hnative]
    rfl
  rw [identical, hanswer]
  by_cases hsame : object = other <;> simp [IdentityAnswer.ofBool, hsame]

/-! ## Changes through handles -/

/-- A request that changes members. -/
inductive MemberChange where
  | write (member : String) (content : Value)
  | remove (member : String)

namespace MemberChange

def send (receiver : Receiver) : MemberChange → Action Unit
  | write member content => receiver.writeMember member content
  | remove member => receiver.removeMember member

/-- The table with the change. -/
def applyTo (table : Members Value) : MemberChange → Members Value
  | write member content => table.insert member content
  | remove member => table.erase member

/-- The world after the request, which changes nothing if it fails. -/
def sentTo (receiver : Receiver) (change : MemberChange) (world : World) : World :=
  (change.send receiver world).world?.getD world

end MemberChange

/-- The world after some requests in a row, each to a receiver. -/
def World.afterChanges (world : World) (changes : List (Receiver × MemberChange)) : World :=
  changes.foldl (fun world change ↦ change.2.sentTo change.1 world) world

theorem Members.erase_of_get?_eq_none {α : Type} {table : Members α} {key : String}
    (hkey : table.get? key = none) : table.erase key = table := by
  have hkeep : table.entries.filter (fun entry ↦ entry.1 ≠ key) = table.entries := by
    refine List.filter_eq_self.mpr fun entry hentry ↦ decide_eq_true fun hsame ↦ ?_
    exact not_mem_keys_of_get? hkey (hsame ▸ List.mem_map_of_mem hentry)
  cases table
  simpa only [erase, mk.injEq] using hkeep

namespace MemberChange

variable {receiver : Receiver} {object other : ObjectId} {world : World}

theorem size_objects_sentTo (receiver : Receiver) (change : MemberChange) (world : World) :
    (change.sentTo receiver world).objects.size = world.objects.size := by
  have hquiet : (change.send receiver).IsQuiet := by
    cases change with
    | write member content => exact receiver.writeMember_isQuiet member content
    | remove member => exact receiver.removeMember_isQuiet member
  unfold sentTo
  cases hends : (change.send receiver world).world? with
  | some after => exact hquiet.size_objects hends
  | none => rfl

/-- A request through a handle changes the members of its object, if that exists, and no others. -/
theorem members_sentTo (hhandle : receiver.handle? = some object) (change : MemberChange)
    (world : World) (other : ObjectId) :
    (change.sentTo receiver world).members other =
      if object = other ∧ other.index < world.objects.size then
        change.applyTo (world.members other)
      else world.members other := by
  have hmodified := world.members_modifyMembers object other
  cases change with
  | write member content =>
    have hsent : (write member content).sentTo receiver world =
        world.modifyMembers object fun members ↦ members.insert member content :=
      Receiver.eq_of_handle? (fun receiver ↦ (write member content).sentTo receiver world)
        (fun _ ↦ rfl) hhandle
    rw [hsent, hmodified]
    rfl
  | remove member =>
    have hsent : (remove member).sentTo receiver world =
        (Value.removeMember (.object object) member world).world?.getD world :=
      Receiver.eq_of_handle? (fun receiver ↦ (remove member).sentTo receiver world) (fun _ ↦ rfl)
        hhandle
    rw [hsent]
    simp only [Value.removeMember, Value.object?, Members.remove]
    cases hmember : (world.members object).get? member with
    | some content =>
      refine (hmodified _).trans ?_
      split
      · next hsame => rw [hsame.1]; rfl
      · rfl
    | none =>
      -- The request fails, and a table without the name is what removing the name leaves.
      change world.members other = _
      split
      · next hsame => exact (Members.erase_of_get?_eq_none (hsame.1 ▸ hmember)).symm
      · rfl

/-- What was written through a handle is read through it. -/
theorem readMember_sentTo_write (hhandle : receiver.handle? = some object)
    (hobject : world.HasObject object) (member : String) (content : Value) :
    receiver.readMember ((write member content).sentTo receiver world) member = .ok content := by
  rw [(Receiver.shows_of_handle? hhandle _).readMember, members_sentTo hhandle,
    if_pos ⟨rfl, hobject⟩, applyTo, Members.read, Members.get?_insert, if_pos rfl]

end MemberChange

namespace World

variable {world : World} {object : ObjectId} {changes : List (Receiver × MemberChange)}

/-- Requests through the handles of an object that exists change its members, one after another. -/
theorem members_afterChanges (hobject : world.HasObject object)
    (hhandles : ∀ change ∈ changes, change.1.handle? = some object) :
    (world.afterChanges changes).members object =
      changes.foldl (fun table change ↦ change.2.applyTo table) (world.members object) := by
  induction changes generalizing world with
  | nil => rfl
  | cons change rest ih =>
    obtain ⟨hhandle, hrest⟩ := List.forall_mem_cons.mp hhandles
    have hstill : (change.2.sentTo change.1 world).HasObject object :=
      Nat.lt_of_lt_of_eq hobject (change.2.size_objects_sentTo change.1 world).symm
    refine (ih hstill hrest).trans ?_
    rw [MemberChange.members_sentTo hhandle, if_pos ⟨rfl, hobject⟩, List.foldl_cons]

/-- Requests through the handles of other objects leave the members of an object alone. -/
theorem members_afterChanges_of_ne
    (hhandles : ∀ change ∈ changes, ∃ target, change.1.handle? = some target ∧ target ≠ object) :
    (world.afterChanges changes).members object = world.members object := by
  induction changes generalizing world with
  | nil => rfl
  | cons change rest ih =>
    obtain ⟨⟨target, hhandle, hne⟩, hrest⟩ := List.forall_mem_cons.mp hhandles
    refine (ih hrest).trans ?_
    rw [MemberChange.members_sentTo hhandle, if_neg fun hsame ↦ hne hsame.1]

end World

/-- How two handles, the first of them that of the given object, alias in a world. -/
structure Place.AliasByIdentity (world : World) (object : ObjectId) (left right : Place) :
    Prop where
  /-- Identical handles show the same members after all changes through either of them.  If the
  object exists, these are its members with the changes. -/
  shared : left.identical right = true → ∀ changes,
    (∀ change ∈ changes, change.1 = left.receiver ∨ change.1 = right.receiver) →
      ∃ table, left.receiver.Shows (world.afterChanges changes) table ∧
        right.receiver.Shows (world.afterChanges changes) table ∧
        (world.HasObject object → table =
          changes.foldl (fun table change ↦ change.2.applyTo table) (world.members object))
  /-- Handles that are not identical do not show any changes through the other one. -/
  separate : left.identical right = false → ∃ table, ∀ changes,
    (∀ change ∈ changes, change.1 = left.receiver) →
      right.receiver.Shows (world.afterChanges changes) table

theorem Place.aliasByIdentity (world : World) {left right : Place} {object other : ObjectId}
    (hleft : left.receiver.handle? = some object)
    (hright : right.receiver.handle? = some other) :
    AliasByIdentity world object left right where
  shared hidentical changes hchanges := by
    obtain rfl := (identical_iff hleft hright).mp hidentical
    refine ⟨_, Receiver.shows_of_handle? hleft _, Receiver.shows_of_handle? hright _,
      fun hobject ↦ World.members_afterChanges hobject fun change hchange ↦ ?_⟩
    rcases hchanges change hchange with hsame | hsame
    · rw [hsame, hleft]
    · rw [hsame, hright]
  separate hdistinct := by
    have hne : object ≠ other := fun hsame ↦
      Bool.false_ne_true (hdistinct.symm.trans ((identical_iff hleft hright).mpr hsame))
    refine ⟨world.members other, fun changes hchanges ↦ ?_⟩
    have hmembers : (world.afterChanges changes).members other = world.members other :=
      World.members_afterChanges_of_ne fun change hchange ↦
        ⟨object, by rw [hchanges change hchange, hleft], hne⟩
    rw [← hmembers]
    exact Receiver.shows_of_handle? hright _

/-! ## Passing values on -/

/-- The body gives the value as it was given: as a constant, or as one of the arguments. -/
def Body.Returns (arguments : List Value) (value : Value) : Body Value → Prop
  | constant content => content = value
  | argument index => arguments[index]? = some value
  | _ => False

/-- What is passed on through lists, members and calls arrives as the very same value. -/
structure World.PassesOn (world : World) (routing : Routing) (allowance : Nat) (value : Value) :
    Prop where
  element : ∀ (items : List Value) index, items[index]? = some value →
    (world.newList items).1.element index = .ok value
  member : ∀ (receiver : Receiver) (object : ObjectId) member,
    receiver.handle? = some object → world.HasObject object →
      receiver.readMember ((MemberChange.write member value).sentTo receiver world) member =
        .ok value
  /-- By whatever route a function is called that returns the value, with or without the help of a
  call site, if there is room for one more call. -/
  call : ∀ (route : Route) (dispatcher : DispatcherId) (arguments : List Value) name definition,
    route.target routing world dispatcher = .ok (name, definition) →
      definition.body.Returns arguments value →
        (world.configOf dispatcher).reachedLimit? (world.depth dispatcher) = none →
          ∃ after, route.call routing (run routing (allowance + 1)) dispatcher arguments world =
            .returned value after

theorem Body.Returns.eval {arguments : List Value} {value : Value} {body : Body Value}
    (hreturns : body.Returns arguments value) (routing : Routing) (run : Runner)
    (dispatcher : DispatcherId) (world : World) :
    body.eval routing run dispatcher arguments world = .returned value world := by
  cases body with
  | constant content =>
    obtain rfl : content = value := hreturns
    rw [Body.eval]
    rfl
  | argument index =>
    have hargument : arguments[index]? = some value := hreturns
    rw [Body.eval, List.getD_eq_getElem?_getD, hargument]
    rfl
  | _ => exact hreturns.elim

/-- What happens before a call leaves the depth and the settings alone. -/
theorem Route.visible_events (routing : Routing) (world : World) (dispatcher : DispatcherId)
    (route : Route) :
    (Event.replay (route.events routing world dispatcher) world).visible = world.visible := by
  cases route with
  | direct | executed | named => rfl
  | throughSite site callee =>
    cases routing with
    | cached => exact world.visible_noteCall dispatcher site callee
    | generic => rfl

theorem World.passesOn (world : World) (routing : Routing) (allowance : Nat) (value : Value) :
    world.PassesOn routing allowance value where
  element items index hitem := by
    simp only [newList, freshIdentity, Value.element, Value.list?, hitem]
  member receiver object member hhandle hobject :=
    MemberChange.readMember_sentTo_write hhandle hobject member value
  call route dispatcher arguments name definition htarget hreturns hroom := by
    have hvisible := route.visible_events routing world dispatcher
    have hstill := World.eq_of_visible_eq (fun world ↦ (world.configOf dispatcher).reachedLimit?
      (world.depth dispatcher)) (fun _ ↦ rfl) hvisible
    have hruns (middle : World) :
        run routing (allowance + 1) dispatcher definition arguments middle =
          .returned value middle :=
      hreturns.eval routing _ dispatcher middle
    rw [Route.call_eq_enter, htarget]
    simp only [Route.enter, Dispatch.activate, hstill, hroom, Action.restoring, hruns]
    exact ⟨_, rfl⟩

/-! ## Sessions -/

namespace Session

/-- Object handles alias exactly by identity, in every world.  All handles that a session holds are
those of objects that exist, which are as many as its steps describe.  The calls that it may make
next pass handles on and create no object, and what is passed on arrives as it is.  At all times the
members of an object change by what is addressed to it and by nothing else. -/
theorem object_handles_alias (routing : Routing) (allowance : Nat) (config : Config)
    (steps : List Step) (answers : List (Answer × List TraceRecord)) (state : State)
    (hrun : execute routing allowance config steps = .ok (answers, state)) :
    (∀ (world : World) (left right : Place) (object other : ObjectId),
      left.receiver.handle? = some object → right.receiver.handle? = some other →
        Place.AliasByIdentity world object left right) ∧
    (∀ object, state.Mentions object → state.world.HasObject object) ∧
    state.world.objects.size = (steps.map Step.objectCount).sum ∧
    (∀ (step : Step) (prepare : Script PreparedCall) (call : PreparedCall) (prepared : State),
      prepareCall? step = some prepare → prepare.run state = .ok (call, prepared) →
        call.PassesHandles routing allowance prepared.world) ∧
    (∀ (world : World) (value : Value), world.PassesOn routing allowance value) ∧
    ∀ earlier later : Moment, earlier.Leads later →
      ∃ effects, later.journal = earlier.journal ++ effects ∧
        ∀ object, earlier.world.HasObject object → later.world.HasObject object ∧
          later.world.members object =
            effects.foldl (fun table effect ↦ effect.onMembers object table)
              (earlier.world.members object) := by
  obtain ⟨stage, -, hself⟩ := exists_alikeAt_self hrun fun _ _ ↦ false
  refine ⟨fun world left right object other ↦ Place.aliasByIdentity world,
    fun object ↦ hself.hasObject, size_objects_execute hrun, ?_,
    fun world ↦ world.passesOn routing allowance, fun earlier later ↦ Moment.Leads.members⟩
  intro step prepare call prepared hprepare hready
  have hresults := prepareCall_alike hprepare le_rfl hself
  rw [hready] at hresults
  cases hresults with
  | ok _ hcall hprepared => exact hcall.passesHandles routing allowance hprepared.world

/-- An object that holds itself, a view of it, another object that holds it in a list, and a
function that hands its argument back and is called through a site. -/
def ringSteps : List Step :=
  [.define "ring" (.value (.object [])),
    .message (.slot "ring") (.writeMember "self" (.slot "ring")),
    .define "view" (.view (.slot "ring")),
    .define "other" (.value (.object [("items", .list [.slot "ring"])])),
    .register "same" { body := .argument 0 } "main",
    .call (.throughSite "site" (.function "same" "main")) [.slot "ring"] "main"]

/-- The handle in a slot after the steps. -/
def ringHandle? (slot : String) : Option ObjectId :=
  (execute .cached 1 {} ringSteps).toOption.bind fun result ↦
    (result.2.slots.get? slot).bind fun place ↦ place.receiver.handle?

/-- The ring is handed back once more. -/
def ringCall : Step :=
  .call (.named "same") [.slot "ring"] "main"

/-- The view and what it shows alias, the other object stands apart, and a further call of the
function passes the ring on. -/
theorem object_handles_alias_ring :
    ∃ answers state, execute .cached 1 {} ringSteps = .ok (answers, state) ∧
      state.world.objects.size = 2 ∧
      (∃ view ring, state.slots.get? "view" = some view ∧ state.slots.get? "ring" = some ring ∧
        view.identical ring = true ∧ state.world.HasObject ⟨0⟩ ∧
          Place.AliasByIdentity state.world ⟨0⟩ view ring) ∧
      (∃ ring other, state.slots.get? "ring" = some ring ∧ state.slots.get? "other" = some other ∧
        ring.identical other = false ∧ Place.AliasByIdentity state.world ⟨0⟩ ring other) ∧
      ∃ prepare call prepared, prepareCall? ringCall = some prepare ∧
        prepare.run state = .ok (call, prepared) ∧
          call.PassesHandles .cached 1 prepared.world := by
  have hends : ((execute .cached 1 {} ringSteps).toOption.bind fun result ↦
      (prepareCall? ringCall).bind fun prepare ↦
        (prepare.run result.2).toOption).isSome = true := by
    decide +kernel
  cases hrun : execute .cached 1 {} ringSteps with
  | error malformed =>
    rw [hrun] at hends
    cases hends
  | ok result =>
    obtain ⟨answers, state⟩ := result
    obtain ⟨halias, hmentioned, hsize, hcalls, -, -⟩ :=
      object_handles_alias .cached 1 {} ringSteps answers state hrun
    have hplace {slot : String} {object : ObjectId} (hhandle : ringHandle? slot = some object) :
        ∃ place, state.slots.get? slot = some place ∧ place.receiver.handle? = some object ∧
          state.world.HasObject object := by
      rw [ringHandle?, hrun] at hhandle
      change (state.slots.get? slot).bind _ = some object at hhandle
      obtain ⟨place, hslot, hobject⟩ := Option.bind_eq_some_iff.mp hhandle
      have hholds : object ∈ place.receiver.handles := by
        rw [Receiver.eq_of_handle? Receiver.handles (fun _ ↦ rfl) hobject]
        exact List.mem_singleton.mpr rfl
      exact ⟨place, hslot, hobject, hmentioned object (.slot hslot hholds)⟩
    have hring : ringHandle? "ring" = some ⟨0⟩ := by decide +kernel
    have hview : ringHandle? "view" = some ⟨0⟩ := by decide +kernel
    have hother : ringHandle? "other" = some ⟨1⟩ := by decide +kernel
    obtain ⟨ring, hringSlot, hringHandle, hringExists⟩ := hplace hring
    obtain ⟨view, hviewSlot, hviewHandle, -⟩ := hplace hview
    obtain ⟨other, hotherSlot, hotherHandle, -⟩ := hplace hother
    refine ⟨answers, state, rfl, hsize, ⟨view, ring, hviewSlot, hringSlot, ?_, hringExists, ?_⟩,
      ⟨ring, other, hringSlot, hotherSlot, ?_, ?_⟩, ?_⟩
    · exact (Place.identical_iff hviewHandle hringHandle).mpr rfl
    · exact halias state.world view ring ⟨0⟩ ⟨0⟩ hviewHandle hringHandle
    · exact Bool.eq_false_iff.mpr fun hsame ↦
        absurd ((Place.identical_iff hringHandle hotherHandle).mp hsame) (by decide)
    · exact halias state.world ring other ⟨0⟩ ⟨1⟩ hringHandle hotherHandle
    · obtain ⟨prepare, hprepare⟩ : ∃ prepare, prepareCall? ringCall = some prepare := ⟨_, rfl⟩
      rw [hrun, hprepare] at hends
      change (prepare.run state).toOption.isSome = true at hends
      cases hready : prepare.run state with
      | error malformed =>
        rw [hready] at hends
        cases hends
      | ok ready =>
        exact ⟨prepare, ready.1, ready.2, hprepare, hready,
          hcalls ringCall prepare ready.1 ready.2 hprepare hready⟩

end Session

end GuestCore
