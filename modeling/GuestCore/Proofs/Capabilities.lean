import GuestCore.Proofs.Aliasing
import GuestCore.Proofs.Views

/-!
# Capabilities

A receiver can be asked what it is able to do before it is asked to do it.  Values of the language,
descriptors of its types, registries seen as objects and all views of these keep their word: a
message succeeds exactly if the receiver announces it, at every moment of every run.  A member that
was written is there with the content it was given, a member that was removed may be added again,
and a message about members that fails leaves everything as it was.
-/

namespace GuestCore

open Session

/-- Whether the action has given an answer. -/
def Outcome.isReturned {α : Type} : Outcome α → Bool
  | returned _ _ => true
  | raised _ _ | exhausted => false

namespace Receiver

/-! ## Members -/

/-- The receiver does with its members what it announces, and nothing else. -/
structure AnnouncesMembers (world : World) (receiver : Receiver) : Prop where
  read : ∀ member,
    (receiver.readMember world member).isOk = receiver.isMemberReadable world member
  write : ∀ member content, (receiver.writeMember member content world).isReturned =
    (receiver.isMemberWritable world member || receiver.isMemberInsertable world member)
  /-- A member that may be overwritten cannot be added. -/
  exclusive : ∀ member,
    (receiver.isMemberWritable world member && receiver.isMemberInsertable world member) = false
  remove : ∀ member,
    (receiver.removeMember member world).isReturned = receiver.isMemberRemovable world member
  list : (receiver.memberNames world).isOk = receiver.hasMembers
  listed : ∀ names, receiver.memberNames world = .ok names →
    names.Nodup ∧ ∀ member, member ∈ names ↔ receiver.isMemberReadable world member = true

variable {world : World} {receiver delegate : Receiver}

/-- A table of members answers the messages of an object. -/
theorem announcesMembers_object (world : World) (object : ObjectId) :
    (native (.object object)).AnnouncesMembers world where
  read member := by
    change ((world.members object).read member).isOk = ((world.members object).get? member).isSome
    rw [Members.read]
    cases (world.members object).get? member <;> rfl
  write member _ := (Bool.or_not_self ((world.members object).contains member)).symm
  exclusive member := Bool.and_not_self ((world.members object).contains member)
  remove member := by
    change (Value.removeMember (.object object) member world).isReturned =
      ((world.members object).get? member).isSome
    simp only [Value.removeMember, Value.object?, Members.remove]
    cases (world.members object).get? member <;> rfl
  list := rfl
  listed names hnames := by
    obtain rfl : (world.members object).keys = names := Except.ok.inj hnames
    exact ⟨(world.members object).nodup_keys, fun member ↦
      ((world.members object).contains_iff_mem_keys member).symm⟩

/-- A registry lets its functions be read, and nothing else. -/
theorem announcesMembers_functions (world : World) (registry : RegistryId) :
    (functions registry).AnnouncesMembers world where
  read member := by
    change (Receiver.readMember world member (functions registry)).isOk =
      (world.functionNamed? registry member).isSome
    rw [readMember]
    cases world.functionNamed? registry member <;> rfl
  write _ _ := rfl
  exclusive _ := rfl
  remove _ := rfl
  list := rfl
  listed names hnames := by
    obtain rfl : (world.registry registry).functions.keys = names := Except.ok.inj hnames
    exact ⟨(world.registry registry).functions.nodup_keys, fun member ↦
      ((world.registry registry).functions.contains_iff_mem_keys member).symm⟩

theorem announcesMembers_native (world : World) (value : Value) :
    (native value).AnnouncesMembers world := by
  cases value with
  | object object => exact announcesMembers_object world object
  | null | integer | boolean | text | function | list =>
    exact ⟨fun _ ↦ rfl, fun _ _ ↦ rfl, fun _ ↦ rfl, fun _ ↦ rfl, rfl, nofun⟩

theorem AnnouncesMembers.view (hdelegate : delegate.AnnouncesMembers world) :
    (view delegate).AnnouncesMembers world :=
  ⟨hdelegate.read, hdelegate.write, hdelegate.exclusive, hdelegate.remove, hdelegate.list,
    hdelegate.listed⟩

/-- Only a foreign value may announce what it does not do. -/
theorem announcesMembers_of_foreign? (hforeign : receiver.foreign? = none) (world : World) :
    receiver.AnnouncesMembers world := by
  induction receiver with
  | native value => exact announcesMembers_native world value
  | descriptor type => exact ⟨fun _ ↦ rfl, fun _ _ ↦ rfl, fun _ ↦ rfl, fun _ ↦ rfl, rfl, nofun⟩
  | functions registry => exact announcesMembers_functions world registry
  | foreign value => cases hforeign
  | view delegate ih => exact (ih hforeign).view

/-! ## Contents -/

/-- The receiver has the contents that it announces. -/
structure AnnouncesContents (world : World) (receiver : Receiver) : Prop where
  element : ∀ index, (receiver.element index).isOk = true ↔
    receiver.hasElements = true ∧ ∃ count, receiver.elementCount = .ok count ∧ index < count
  boolean : receiver.asBoolean.isOk = receiver.isBoolean
  text : receiver.asText.isOk = receiver.isText
  integer : receiver.asInteger.isOk = receiver.isNumber
  location : (receiver.location world).isOk = receiver.hasLocation world

theorem location_isOk (world : World) (receiver : Receiver) :
    (receiver.location world).isOk = receiver.hasLocation world := by
  rw [location, hasLocation]
  cases receiver.location? world <;> rfl

theorem element_list_isOk (cell : CellId) (items : List Value) (index : Nat) :
    ((native (.list cell items)).element index).isOk = true ↔ index < items.length := by
  change ((Value.list cell items).element index).isOk = true ↔ _
  simp only [Value.element, Value.list?]
  by_cases hindex : index < items.length
  · rw [List.getElem?_eq_getElem hindex]
    exact iff_of_true rfl hindex
  · rw [List.getElem?_eq_none (Nat.le_of_not_lt hindex)]
    exact iff_of_false Bool.false_ne_true hindex

theorem announcesContents_native (world : World) (value : Value) :
    (native value).AnnouncesContents world := by
  cases value with
  | list cell items =>
    refine ⟨fun index ↦ (element_list_isOk cell items index).trans ?_, rfl, rfl, rfl, rfl⟩
    exact ⟨fun hindex ↦ ⟨rfl, items.length, rfl, hindex⟩, fun ⟨_, _, hcount, hindex⟩ ↦
      Except.ok.inj hcount ▸ hindex⟩
  | null | integer | boolean | text | function | object =>
    exact ⟨fun _ ↦ iff_of_false nofun nofun, rfl, rfl, rfl, location_isOk world _⟩

theorem AnnouncesContents.view (hdelegate : delegate.AnnouncesContents world) :
    (view delegate).AnnouncesContents world :=
  ⟨hdelegate.element, hdelegate.boolean, hdelegate.text, hdelegate.integer, hdelegate.location⟩

theorem announcesContents_of_foreign? (hforeign : receiver.foreign? = none) (world : World) :
    receiver.AnnouncesContents world := by
  induction receiver with
  | native value => exact announcesContents_native world value
  | descriptor type | functions registry =>
    exact ⟨fun _ ↦ iff_of_false nofun nofun, rfl, rfl, rfl, rfl⟩
  | foreign value => cases hforeign
  | view delegate ih => exact (ih hforeign).view

/-! ## Changes -/

namespace Message

variable {α : Type}

/-- Whether the message is about members. -/
def isAboutMembers : Message α → Bool
  | hasMembers | readMember _ | writeMember _ _ | removeMember _ | isMemberReadable _
  | isMemberWritable _ | isMemberRemovable _ | isMemberInsertable _ | memberNames => true
  | _ => false

end Message

end Receiver

/-- The action gives an answer, or it fails and leaves the world as it is. -/
def Action.AnswersOrLeaves {α : Type} (action : Action α) : Prop :=
  ∀ world, (action world).isReturned = true ∨ ∃ fault, action world = .raised fault world

namespace Action.AnswersOrLeaves

variable {α : Type}

theorem raise (fault : Fault) : (Action.raise fault : Action α).AnswersOrLeaves :=
  fun _ ↦ .inr ⟨fault, rfl⟩

theorem read (look : World → α) : (Action.read look).AnswersOrLeaves :=
  fun _ ↦ .inl rfl

theorem ofExcept (look : World → Except Fault α) :
    AnswersOrLeaves fun world ↦ Action.ofExcept (look world) world := by
  intro world
  beta_reduce
  cases look world with
  | ok answer => exact .inl rfl
  | error fault => exact .inr ⟨fault, rfl⟩

theorem writeMember (value : Value) (member : String) (content : Value) :
    (value.writeMember member content).AnswersOrLeaves := by
  cases value with
  | object object => exact fun _ ↦ .inl rfl
  | null | integer | boolean | text | function | list => exact raise _

theorem removeMember (value : Value) (member : String) :
    (value.removeMember member).AnswersOrLeaves := by
  cases value with
  | object object =>
    intro world
    simp only [Value.removeMember, Value.object?, Members.remove]
    cases (world.members object).get? member with
    | some content => exact .inl rfl
    | none => exact .inr ⟨_, rfl⟩
  | null | integer | boolean | text | function | list => exact raise _

end Action.AnswersOrLeaves

/-- A change that fails is not made. -/
theorem MemberChange.send_answersOrLeaves (change : MemberChange) (receiver : Receiver) :
    (change.send receiver).AnswersOrLeaves := by
  have hvalue (value : Value) : (change.send (.native value)).AnswersOrLeaves := by
    cases change with
    | write member content => exact .writeMember value member content
    | remove member => exact .removeMember value member
  induction receiver with
  | native value => exact hvalue value
  | descriptor | functions => cases change <;> exact .raise _
  | view delegate ih => cases change <;> exact ih
  | foreign value =>
    -- A foreign value passes changes on to the value with its members.
    cases hmembers : value.members? with
    | some backing =>
      have hpasses : change.send (.foreign value) = change.send (.native backing) := by
        cases change <;> simp only [send, Receiver.writeMember, Receiver.removeMember, hmembers]
      rw [hpasses]
      exact hvalue backing
    | none =>
      cases change <;>
        simpa only [send, Receiver.writeMember, Receiver.removeMember, hmembers] using .raise _

namespace Receiver

/-- A message about members that fails changes nothing, whoever receives it. -/
theorem send_answersOrLeaves {α : Type} {message : Message α}
    (hmessage : message.isAboutMembers = true) (routing : Routing) (run : Runner)
    (receiver : Receiver) : (receiver.send routing run message).AnswersOrLeaves := by
  cases message with
  | hasMembers => exact .read fun _ ↦ receiver.hasMembers
  | readMember member => exact .ofExcept (receiver.readMember · member)
  | writeMember member content => exact (MemberChange.write member content).send_answersOrLeaves _
  | removeMember member => exact (MemberChange.remove member).send_answersOrLeaves _
  | isMemberReadable member => exact .read (receiver.isMemberReadable · member)
  | isMemberWritable member => exact .read (receiver.isMemberWritable · member)
  | isMemberRemovable member => exact .read (receiver.isMemberRemovable · member)
  | isMemberInsertable member => exact .read (receiver.isMemberInsertable · member)
  | memberNames => exact .ofExcept receiver.memberNames
  | _ => cases hmessage

variable {world after : World} {receiver : Receiver}

/-- Changes are made through handles alone. -/
theorem exists_handle?_of_returned (change : MemberChange) (hforeign : receiver.foreign? = none)
    (hreturned : change.send receiver world = .returned () after) :
    ∃ object, receiver.handle? = some object ∧ after = change.sentTo receiver world := by
  have hafter : after = change.sentTo receiver world := by
    rw [MemberChange.sentTo, hreturned]
    rfl
  suffices hhandle : ∃ object, receiver.handle? = some object by
    obtain ⟨object, hobject⟩ := hhandle
    exact ⟨object, hobject, hafter⟩
  clear hafter
  induction receiver with
  | native value =>
    cases value with
    | object object => exact ⟨object, rfl⟩
    | null | integer | boolean | text | function | list => cases change <;> cases hreturned
  | descriptor | functions => cases change <;> cases hreturned
  | foreign value => cases hforeign
  | view delegate ih => exact ih hforeign (by cases change <;> exact hreturned)

/-! ## All capabilities -/

/-- The receiver does what it announces, and its members change as they are told to. -/
structure Capable (world : World) (receiver : Receiver) : Prop extends
    AnnouncesMembers world receiver, AnnouncesContents world receiver where
  readable_of_write : ∀ member content after,
    receiver.writeMember member content world = .returned () after →
      receiver.isMemberReadable after member = true ∧
        receiver.readMember after member = .ok content
  insertable_of_remove : ∀ member after,
    receiver.removeMember member world = .returned () after →
      receiver.isMemberInsertable after member = true
  unchanged : ∀ (α : Type) (message : Message α), message.isAboutMembers = true →
    ∀ routing run, (receiver.send routing run message world).isReturned = true ∨
      ∃ fault, receiver.send routing run message world = .raised fault world

/-- A member that was removed may be added. -/
theorem isMemberInsertable_of_remove (hforeign : receiver.foreign? = none) {member : String}
    (hreturned : receiver.removeMember member world = .returned () after) :
    receiver.isMemberInsertable after member = true := by
  obtain ⟨object, hhandle, rfl⟩ :=
    exists_handle?_of_returned (.remove member) hforeign hreturned
  have hmembers := MemberChange.members_sentTo hhandle (.remove member) world object
  rw [(shows_of_handle? hhandle _).isMemberInsertable, hmembers, Members.isInsertable,
    Members.contains]
  by_cases hexists : world.HasObject object
  · rw [if_pos ⟨rfl, hexists⟩, MemberChange.applyTo, Members.get?_erase, if_pos rfl]
    rfl
  · rw [if_neg fun hboth ↦ hexists hboth.2]
    cases hmember : (world.members object).get? member with
    | none => rfl
    | some content => exact absurd (World.hasObject_of_get? hmember) hexists

/-- All receivers but foreign values are capable, if the object whose handle they may be exists. -/
theorem capable_of_foreign? (hforeign : receiver.foreign? = none)
    (hexists : ∀ object, receiver.handle? = some object → world.HasObject object) :
    receiver.Capable world where
  toAnnouncesMembers := announcesMembers_of_foreign? hforeign world
  toAnnouncesContents := announcesContents_of_foreign? hforeign world
  readable_of_write member content after hreturned := by
    obtain ⟨object, hhandle, rfl⟩ :=
      exists_handle?_of_returned (.write member content) hforeign hreturned
    have hread := MemberChange.readMember_sentTo_write hhandle (hexists object hhandle) member
      content
    refine ⟨?_, hread⟩
    rw [← (announcesMembers_of_foreign? hforeign _).read, hread]
    rfl
  insertable_of_remove _ _ := isMemberInsertable_of_remove hforeign
  unchanged _ _ hmessage routing run := send_answersOrLeaves hmessage routing run receiver world

theorem mem_handles_of_handle? {object : ObjectId} (hhandle : receiver.handle? = some object) :
    object ∈ receiver.handles := by
  rw [eq_of_handle? handles (fun _ ↦ rfl) hhandle]
  exact List.mem_singleton.mpr rfl

end Receiver

/-! ## Sessions -/

/-- Objects that exist do not go away. -/
theorem Moment.Leads.hasObject {earlier later : Moment} (hleads : earlier.Leads later)
    {object : ObjectId} (hobject : earlier.world.HasObject object) :
    later.world.HasObject object := by
  obtain ⟨_, _, hmembers⟩ := hleads.members
  exact (hmembers object hobject).1

/-- A receiver that is no foreign value stays capable once its object exists. -/
theorem Receiver.capable_later {receiver : Receiver} {world : World}
    (hforeign : receiver.foreign? = none)
    (hexists : ∀ object, receiver.handle? = some object → world.HasObject object)
    {journal : List Effect} {later : Moment}
    (hleads : Moment.Leads ⟨world, [], journal⟩ later) : receiver.Capable later.world :=
  capable_of_foreign? hforeign fun object hhandle ↦ hleads.hasObject (hexists object hhandle)

open Session in
/-- Every receiver that is not a foreign value, nor a view of one, does what it announces in every
world in which its object exists.  Such is every world in which a session has the receiver: whether
the session holds a handle of the object, describes the receiver, or passes the handle to a call,
the receiver is capable from then on, also at all moments of the call. -/
theorem capabilities_agree :
    (∀ (world : World) (receiver : Receiver), receiver.foreign? = none →
      (∀ object, receiver.handle? = some object → world.HasObject object) →
        receiver.Capable world) ∧
    ∀ (routing : Routing) (allowance : Nat) (config : Config) (steps : List Step)
      (answers : List (Answer × List TraceRecord)) (state : State),
      execute routing allowance config steps = .ok (answers, state) →
        (∀ receiver : Receiver, receiver.foreign? = none →
          (∀ object, receiver.handle? = some object → state.Mentions object) →
            ∀ journal later, Moment.Leads ⟨state.world, [], journal⟩ later →
              receiver.Capable later.world) ∧
        (∀ (spec : ReceiverSpec) (receiver : Receiver) (prepared : State),
          spec.build.run state = .ok (receiver, prepared) → receiver.foreign? = none →
            ∀ journal later, Moment.Leads ⟨prepared.world, [], journal⟩ later →
              receiver.Capable later.world) ∧
        ∀ (step : Step) (prepare : Script PreparedCall) (call : PreparedCall) (prepared : State),
          prepareCall? step = some prepare → prepare.run state = .ok (call, prepared) →
            ∀ receiver : Receiver, receiver.foreign? = none →
              (∀ object, receiver.handle? = some object →
                object ∈ call.handles ∨ prepared.Mentions object) →
                ∀ journal later, Moment.Leads ⟨prepared.world, [], journal⟩ later →
                  receiver.Capable later.world := by
  refine ⟨fun world receiver ↦ Receiver.capable_of_foreign?, ?_⟩
  intro routing allowance config steps answers state hrun
  obtain ⟨stage, -, hself⟩ := exists_alikeAt_self hrun fun _ _ ↦ false
  refine ⟨?_, ?_, ?_⟩
  · intro receiver hforeign hheld journal later hleads
    exact Receiver.capable_later hforeign
      (fun object hhandle ↦ hself.hasObject (hheld object hhandle)) hleads
  · intro spec receiver prepared hbuild hforeign journal later hleads
    have hresults := spec.build_alike le_rfl hself
    rw [hbuild] at hresults
    cases hresults with
    | ok _ hreceiver hprepared =>
      exact Receiver.capable_later hforeign (fun object hhandle ↦ hprepared.world.objects_iff.mp
        (hreceiver.objects object (Receiver.mem_handles_of_handle? hhandle))) hleads
  · intro step prepare call prepared hprepare hready receiver hforeign hheld journal later hleads
    have hresults := prepareCall_alike hprepare le_rfl hself
    rw [hready] at hresults
    cases hresults with
    | ok _ hcall hprepared =>
      refine Receiver.capable_later hforeign (fun object hhandle ↦ ?_) hleads
      obtain hgiven | hmentions := hheld object hhandle
      · exact hprepared.world.objects_iff.mp (hcall.objects object hgiven)
      · exact hprepared.hasObject hmentions

namespace Session

/-- An object with a member, a function, and a view of the object. -/
def capableSteps : List Step :=
  [.define "object" (.value (.object [("x", .integer 1)])),
    .register "f" { body := .argument 0 } "main",
    .define "shown" (.view (.slot "object"))]

/-- What is described after these steps, and the world in which it is built. -/
def capableReceiver? (spec : ReceiverSpec) : Option (Receiver × World) :=
  (execute .cached 0 {} capableSteps).toOption.bind fun result ↦
    (spec.build.run result.2).toOption.map fun built ↦ (built.1, built.2.world)

end Session

open Session in
/-- Through two views of the object, a member may be overwritten and another one added; the
function may be read through a view of its registry, and not overwritten. -/
theorem capabilities_agree_capableSteps :
    (∃ receiver world, capableReceiver? (.view (.slot "shown")) = some (receiver, world) ∧
      receiver.isMemberWritable world "x" = true ∧ receiver.isMemberInsertable world "y" = true ∧
        receiver.Capable world) ∧
    ∃ receiver world, capableReceiver? (.view (.functions "main")) = some (receiver, world) ∧
      receiver.isMemberReadable world "f" = true ∧ receiver.isMemberWritable world "f" = false ∧
        receiver.Capable world := by
  have hcapable {spec : ReceiverSpec} {receiver : Receiver} {world : World}
      (hreceiver : capableReceiver? spec = some (receiver, world))
      (hforeign : receiver.foreign? = none) : receiver.Capable world := by
    rw [capableReceiver?] at hreceiver
    cases hrun : execute .cached 0 {} capableSteps with
    | error malformed => rw [hrun] at hreceiver; cases hreceiver
    | ok result =>
      rw [hrun] at hreceiver
      cases hbuild : spec.build.run result.2 with
      | error malformed =>
        simp only [Except.toOption, Option.bind_some, hbuild] at hreceiver
        cases hreceiver
      | ok built =>
        simp only [Except.toOption, Option.bind_some, hbuild] at hreceiver
        cases hreceiver
        exact (capabilities_agree.2 .cached 0 {} capableSteps _ _ hrun).2.1 spec _ _ hbuild hforeign
          [] _ .refl
  have hshown : (capableReceiver? (.view (.slot "shown"))).any (fun built ↦
      built.1.isMemberWritable built.2 "x" && built.1.isMemberInsertable built.2 "y" &&
        built.1.foreign?.isNone) = true := by
    decide +kernel
  have hfunctions : (capableReceiver? (.view (.functions "main"))).any (fun built ↦
      built.1.isMemberReadable built.2 "f" && !built.1.isMemberWritable built.2 "f" &&
        built.1.foreign?.isNone) = true := by
    decide +kernel
  simp only [Option.any_eq_true, Prod.exists, Bool.and_eq_true, Bool.not_eq_true',
    Option.isNone_iff_eq_none] at hshown hfunctions
  obtain ⟨shown, before, hbuilt, ⟨hwritable, hinsertable⟩, hforeign⟩ := hshown
  obtain ⟨functions, after, hlisted, ⟨hreadable, hfixed⟩, hnone⟩ := hfunctions
  exact ⟨⟨shown, before, hbuilt, hwritable, hinsertable, hcapable hbuilt hforeign⟩,
    functions, after, hlisted, hreadable, hfixed, hcapable hlisted hnone⟩

end GuestCore
