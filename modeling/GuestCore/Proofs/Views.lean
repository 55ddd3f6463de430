import GuestCore.Proofs.Operands
import GuestCore.Session.Run

/-!
# Views Are Transparent

A view passes every message on to the receiver that it shows, except for the display text and the
messages about type descriptors: whatever it shows, a view describes no type.  This holds through
any nesting of views.  Operators ask for nothing else, so they give the same results for an operand
and for views of it, as long as foreign operands do not tell the two apart by identity.
-/

namespace GuestCore

namespace Receiver

variable {α : Type}

/-- The receiver inside that many views. -/
def viewed (receiver : Receiver) : Nat → Receiver
  | 0 => receiver
  | layers + 1 => view (receiver.viewed layers)

/-- What every view leaves as it is, any nesting of views leaves as it is. -/
theorem eq_viewed {β : Type} (look : Receiver → β)
    (hview : ∀ delegate, look (view delegate) = look delegate) (receiver : Receiver)
    (layers : Nat) : look (receiver.viewed layers) = look receiver := by
  induction layers with
  | zero => rfl
  | succ layers ih => rw [viewed, hview, ih]

/-! ## Messages -/

/-- A message with its arguments; the type is that of the answer.  The request for the display text
is left out, since a view has its own answer to it. -/
inductive Message : Type → Type where
  | native : Message (Option Value)
  | isNull : Message Bool
  | isBoolean : Message Bool
  | asBoolean : Message Bool
  | isText : Message Bool
  | asText : Message String
  | isNumber : Message Bool
  | asInteger : Message Int
  | fits (target : Integer.Target) : Message Bool
  | narrow (target : Integer.Target) : Message Integer.Narrowed
  | hasMembers : Message Bool
  | readMember (member : String) : Message Value
  | writeMember (member : String) (content : Value) : Message Unit
  | removeMember (member : String) : Message Unit
  | isMemberReadable (member : String) : Message Bool
  | isMemberWritable (member : String) : Message Bool
  | isMemberRemovable (member : String) : Message Bool
  | isMemberInsertable (member : String) : Message Bool
  | memberNames : Message (List String)
  | hasElements : Message Bool
  | elementCount : Message Nat
  | element (index : Nat) : Message Value
  | isExecutable : Message Bool
  | execute (dispatcher : DispatcherId) (arguments : List Value) : Message Value
  | hasLocation : Message Bool
  | location : Message Location
  | hasType : Message Bool
  | type : Message LanguageType
  | isDescriptor : Message Bool
  | simpleName : Message String
  | qualifiedName : Message String
  | describes (candidate : Receiver) : Message Bool
  | identityAnswer (other : Receiver) : Message IdentityAnswer
  | identityHash : Message IdentityHash

namespace Message

/-- Whether the message is one that type descriptors answer. -/
def isAboutTypes : Message α → Bool
  | isDescriptor | simpleName | qualifiedName | describes _ => true
  | _ => false

end Message

/-- Sends a message: its answer, or the fault that it raises, and what it does to the world. -/
def send (routing : Routing) (run : Runner) (receiver : Receiver) : Message α → Action α
  | .native => pure receiver.native?
  | .isNull => pure receiver.isNull
  | .isBoolean => pure receiver.isBoolean
  | .asBoolean => .ofExcept receiver.asBoolean
  | .isText => pure receiver.isText
  | .asText => .ofExcept receiver.asText
  | .isNumber => pure receiver.isNumber
  | .asInteger => .ofExcept receiver.asInteger
  | .fits target => pure (receiver.fits target)
  | .narrow target => .ofExcept (receiver.narrow target)
  | .hasMembers => pure receiver.hasMembers
  | .readMember member => fun world ↦ Action.ofExcept (receiver.readMember world member) world
  | .writeMember member content => receiver.writeMember member content
  | .removeMember member => receiver.removeMember member
  | .isMemberReadable member => .read fun world ↦ receiver.isMemberReadable world member
  | .isMemberWritable member => .read fun world ↦ receiver.isMemberWritable world member
  | .isMemberRemovable member => .read fun world ↦ receiver.isMemberRemovable world member
  | .isMemberInsertable member => .read fun world ↦ receiver.isMemberInsertable world member
  | .memberNames => fun world ↦ Action.ofExcept (receiver.memberNames world) world
  | .hasElements => pure receiver.hasElements
  | .elementCount => .ofExcept receiver.elementCount
  | .element index => .ofExcept (receiver.element index)
  | .isExecutable => pure receiver.isExecutable
  | .execute dispatcher arguments => receiver.execute routing run dispatcher arguments
  | .hasLocation => .read receiver.hasLocation
  | .location => fun world ↦ Action.ofExcept (receiver.location world) world
  | .hasType => pure receiver.type?.isSome
  | .type => .ofExcept receiver.type
  | .isDescriptor => pure receiver.isDescriptor
  | .simpleName => .ofExcept receiver.simpleName
  | .qualifiedName => .ofExcept receiver.qualifiedName
  | .describes candidate => .ofExcept (receiver.describes candidate)
  | .identityAnswer other => pure (receiver.identityAnswer other)
  | .identityHash => .ofExcept receiver.identityHash

variable {routing : Routing} {run : Runner} {receiver : Receiver} {message : Message α}

/-- A view passes on every message that is not about types. -/
theorem send_view (hmessage : message.isAboutTypes = false) (delegate : Receiver) :
    (view delegate).send routing run message = delegate.send routing run message := by
  cases message with
  | isDescriptor | simpleName | qualifiedName | describes candidate => cases hmessage
  | _ => rfl

/-- All receivers that describe no type answer alike to messages about types. -/
theorem send_of_not_descriptor (hmessage : message.isAboutTypes = true)
    (hreceiver : receiver.isDescriptor = false) (delegate : Receiver) :
    (view delegate).send routing run message = receiver.send routing run message := by
  cases message with
  | isDescriptor | simpleName | qualifiedName | describes candidate =>
    cases receiver with
    | descriptor type => cases hreceiver
    | _ => rfl
  | _ => cases hmessage

/-- A descriptor answers to messages about types, and a view of it does not. -/
theorem send_ne_of_descriptor (hmessage : message.isAboutTypes = true)
    (hreceiver : receiver.isDescriptor = true) (delegate : Receiver) :
    (view delegate).send routing run message ≠ receiver.send routing run message := by
  intro heq
  have houtcome := congrFun heq {}
  cases receiver with
  | descriptor type =>
    cases message with
    | isDescriptor | simpleName | qualifiedName | describes candidate => cases houtcome
    | _ => cases hmessage
  | _ => cases hreceiver

theorem send_viewed (hmessage : message.isAboutTypes = false) (receiver : Receiver)
    (layers : Nat) :
    (receiver.viewed layers).send routing run message = receiver.send routing run message :=
  eq_viewed (fun receiver ↦ receiver.send routing run message) (send_view hmessage) receiver layers

end Receiver

/-- A message reaches the receiver inside any number of views unless it asks a type descriptor for
its type: to such a message every view answers that it describes no type. -/
theorem views_pass_messages_on (routing : Routing) (run : Runner) (receiver : Receiver)
    (layers : Nat) :
    (∀ (α : Type) (message : Receiver.Message α),
      (receiver.viewed (layers + 1)).send routing run message =
          receiver.send routing run message ↔
        (message.isAboutTypes = true → receiver.isDescriptor = false)) ∧
    (receiver.viewed (layers + 1)).isDescriptor = false ∧
    (receiver.viewed (layers + 1)).simpleName = .error (.unsupportedMessage "meta_simple_name") ∧
    (receiver.viewed (layers + 1)).qualifiedName =
      .error (.unsupportedMessage "meta_qualified_name") ∧
    ∀ candidate, (receiver.viewed (layers + 1)).describes candidate =
      .error (.unsupportedMessage "is_meta_instance") := by
  refine ⟨fun α message ↦ ⟨fun hsame hmessage ↦ ?_, fun hreaches ↦ ?_⟩, rfl, rfl, rfl,
    fun _ ↦ rfl⟩
  · cases hreceiver : receiver.isDescriptor with
    | false => rfl
    | true => exact absurd hsame (Receiver.send_ne_of_descriptor hmessage hreceiver _)
  · cases hmessage : message.isAboutTypes with
    | false => exact Receiver.send_viewed hmessage receiver (layers + 1)
    | true => exact Receiver.send_of_not_descriptor hmessage (hreaches hmessage) _

/-- The name of a type is lost behind a view. -/
theorem view_hides_type_name :
    let named := Session.execute .cached 0 {}
      [.message (.descriptor .number) .simpleName]
    let viewed := Session.execute .cached 0 {}
      [.message (.view (.descriptor .number)) .simpleName]
    named.map Prod.fst = .ok [(.result (.ok (.shown (.text "Number"))), [])] ∧
      viewed.map Prod.fst =
        .ok [(.result (.error (.unsupportedMessage "meta_simple_name")), [])] :=
  ⟨rfl, rfl⟩

/-! ## Operands -/

/-- The value gives the same answer about a receiver and about a view of it. -/
def Foreign.SeesThroughViews (value : Foreign) : Prop :=
  ∀ peer, value.identity (.view peer) = value.identity peer

namespace Receiver

/-- The receiver asks no foreign value that tells a view from what it shows. -/
def SeesThroughViews (receiver : Receiver) : Prop :=
  ∀ value, receiver.foreign? = some value → value.SeesThroughViews

theorem profile_viewed (receiver : Receiver) (layers : Nat) :
    (receiver.viewed layers).profile = receiver.profile :=
  eq_viewed profile (fun _ ↦ rfl) receiver layers

theorem identityAnswer_view {receiver : Receiver} (hreceiver : receiver.SeesThroughViews)
    (delegate : Receiver) :
    receiver.identityAnswer (view delegate) = receiver.identityAnswer delegate :=
  identityAnswer_congr rfl fun value hvalue ↦ hreceiver value hvalue delegate.peer

/-- Neither side of a question about identity matters as to how often it is viewed. -/
theorem identityAnswer_viewed {receiver : Receiver} (hreceiver : receiver.SeesThroughViews)
    (layers : Nat) (other : Receiver) (otherLayers : Nat) :
    (receiver.viewed layers).identityAnswer (other.viewed otherLayers) =
      receiver.identityAnswer other :=
  calc
    (receiver.viewed layers).identityAnswer (other.viewed otherLayers) =
        receiver.identityAnswer (other.viewed otherLayers) :=
      eq_viewed (fun receiver ↦ receiver.identityAnswer (other.viewed otherLayers))
        (fun _ ↦ rfl) receiver layers
    _ = receiver.identityAnswer other :=
      eq_viewed receiver.identityAnswer (identityAnswer_view hreceiver) other otherLayers

theorem lookAlike_viewed {left right : Receiver} (hleft : left.SeesThroughViews)
    (hright : right.SeesThroughViews) (leftLayers rightLayers : Nat) :
    Operator.LookAlike (left.viewed leftLayers) (right.viewed rightLayers) left right where
  leftProfile := profile_viewed left leftLayers
  rightProfile := profile_viewed right rightLayers
  leftAnswer := identityAnswer_viewed hleft leftLayers right rightLayers
  rightAnswer := identityAnswer_viewed hright rightLayers left leftLayers

/-- The display text is that of the outermost view. -/
theorem display_viewed (receiver : Receiver) (layers : Nat) (world : World) :
    (receiver.viewed (layers + 1)).display world = (view receiver).display world :=
  viewDisplay_eq_of_profile_eq (profile_viewed receiver layers) world

/-- Two receivers of the same types and with the same contents, in every number format. -/
structure SameContents (first second : Receiver) : Prop where
  isInstance : ∀ type, first.isInstance type = second.isInstance type
  type? : first.type? = second.type?
  type : first.type = second.type
  asBoolean : first.asBoolean = second.asBoolean
  asText : first.asText = second.asText
  asInteger : first.asInteger = second.asInteger
  fits : ∀ target, first.fits target = second.fits target
  narrow : ∀ target, first.narrow target = second.narrow target

theorem sameContents_viewed (receiver : Receiver) (layers : Nat) :
    (receiver.viewed layers).SameContents receiver where
  isInstance type := eq_viewed (isInstance · type) (fun _ ↦ rfl) receiver layers
  type? := eq_viewed type? (fun _ ↦ rfl) receiver layers
  type := eq_viewed type (fun _ ↦ rfl) receiver layers
  asBoolean := eq_viewed asBoolean (fun _ ↦ rfl) receiver layers
  asText := eq_viewed asText (fun _ ↦ rfl) receiver layers
  asInteger := eq_viewed asInteger (fun _ ↦ rfl) receiver layers
  fits target := eq_viewed (fits target) (fun _ ↦ rfl) receiver layers
  narrow target := eq_viewed (narrow target) (fun _ ↦ rfl) receiver layers

end Receiver

/-- Operators do the same to two operands and to views of them, however often each is viewed.  Type
errors describe the same operands, types and contents are the same, and many views show what one
shows. -/
theorem operators_see_through_views :
    (∀ (left right : Receiver) (leftLayers rightLayers : Nat), left.SeesThroughViews →
      right.SeesThroughViews → ∀ (operator : BinaryOperator) (operation : Operation),
        Operator.run operator operation (left.viewed leftLayers) (right.viewed rightLayers) =
          Operator.run operator operation left right) ∧
    (∀ (world : World) (operation : Operation) (operands : List (Receiver × Nat)),
      Operator.typeError world operation
          (operands.map fun operand ↦ operand.1.viewed operand.2) =
        Operator.typeError world operation (operands.map Prod.fst)) ∧
    ∀ (receiver : Receiver) (layers : Nat),
      (receiver.viewed layers).SameContents receiver ∧
        ∀ world, (receiver.viewed (layers + 1)).display world =
          (receiver.viewed 1).display world := by
  refine ⟨?_, fun world operation operands ↦ ?_, fun receiver layers ↦ ?_⟩
  · intro left right leftLayers rightLayers hleft hright operator operation
    exact (Receiver.lookAlike_viewed hleft hright leftLayers rightLayers).run_eq operator operation
  · apply Operator.typeError_eq_of_profile_eq
    simp [Receiver.profile_viewed]
  · exact ⟨receiver.sameContents_viewed layers, receiver.display_viewed layers⟩

/-- A host that takes every receiver for itself, behind two views, and a text behind three. -/
theorem operators_see_through_views_host :
    let host : Receiver := .foreign { handle := 0, hasMembers := true, identity := fun _ ↦ .yes }
    let text : Receiver := .native (.text ⟨0⟩ "b")
    Operator.run .eq .unknown (host.viewed 2) (text.viewed 3) {} = .returned (.boolean true) {} ∧
      Operator.run .add .unknown (host.viewed 2) (text.viewed 3) {} =
        .returned (.text ⟨0⟩ "[foreign object]b") { nextIdentity := 1 } ∧
      Operator.run .sub .unknown (host.viewed 2) (text.viewed 3) {} =
        .raised ⟨.typeError "Type error: operation not defined for Object Object, String \"b\"",
          none⟩ {} := by
  intro host text
  have hhost : host.SeesThroughViews := by
    rintro value ⟨⟩ peer
    rfl
  have htext : text.SeesThroughViews := by
    rintro value ⟨⟩
  have hrun := operators_see_through_views.1 host text 2 3 hhost htext
  rw [hrun, hrun, hrun]
  exact ⟨rfl, rfl, rfl⟩

end GuestCore
