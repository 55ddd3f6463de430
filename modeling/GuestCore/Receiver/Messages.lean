import GuestCore.Integer.Narrowing
import GuestCore.Receiver
import GuestCore.Registry
import GuestCore.Value.Access

/-!
# Messages

The messages that every receiver can be sent, and their answers.  A view passes a message on to
its delegate, except for the messages about type descriptors.
-/

namespace GuestCore.Receiver

/-- The value of the language behind the receiver. -/
def native? : Receiver → Option Value
  | native value => some value
  | descriptor _ | functions _ => none
  | foreign value => value.native?
  | view delegate => delegate.native?

/-! ## Scalars -/

def isNull : Receiver → Bool
  | native value => value.isNull
  | descriptor _ | functions _ => false
  | foreign value => value.isNull
  | view delegate => delegate.isNull

def isBoolean : Receiver → Bool
  | native value => value.boolean?.isSome
  | descriptor _ | functions _ => false
  | foreign value => value.isBoolean
  | view delegate => delegate.isBoolean

def asBoolean : Receiver → Except Fault Bool
  | native (.boolean value) => .ok value
  | native _ | descriptor _ | functions _ => .error (.unsupportedMessage "as_boolean")
  | foreign value => value.asBoolean
  | view delegate => delegate.asBoolean

def isText : Receiver → Bool
  | native value => value.text?.isSome
  | descriptor _ | functions _ => false
  | foreign value => value.isText
  | view delegate => delegate.isText

def asText : Receiver → Except Fault String
  | native (.text _ content) => .ok content
  | native _ | descriptor _ | functions _ => .error (.unsupportedMessage "as_string")
  | foreign value => value.asText
  | view delegate => delegate.asText

/-! ## Numbers -/

def isNumber : Receiver → Bool
  | native value => value.integer?.isSome
  | descriptor _ | functions _ => false
  | foreign value => value.isNumber
  | view delegate => delegate.isNumber

def asInteger : Receiver → Except Fault Int
  | native (.integer value) => .ok value
  | native _ | descriptor _ | functions _ => .error (.unsupportedConversion "big integer")
  | foreign value => value.asInteger
  | view delegate => delegate.asInteger

/-- The integer that the receiver stands for in arithmetic: the native one, or the one that a
receiver that calls itself a number gives. -/
def integer? (receiver : Receiver) : Option Int :=
  match receiver.native? with
  | some (.integer value) => some value
  | _ => if receiver.isNumber then receiver.asInteger.toOption else none

def fits (target : Integer.Target) (receiver : Receiver) : Bool :=
  receiver.integer?.any fun value ↦ Integer.fits target value

def narrow (target : Integer.Target) (receiver : Receiver) : Except Fault Integer.Narrowed :=
  match receiver.integer? with
  | some value => Integer.narrow target value
  | none => .error (.unsupportedConversion target.name)

/-! ## Members -/

def hasMembers : Receiver → Bool
  | native value => value.object?.isSome
  | descriptor _ => false
  | functions _ => true
  | foreign value => value.hasMembers
  | view delegate => delegate.hasMembers

def readMember (world : World) (member : String) : Receiver → Except Fault Value
  | native value => value.readMember world member
  | descriptor _ => .error (.unsupportedMessage "read_member")
  | functions registry =>
    match world.functionNamed? registry member with
    | some function => .ok (.function function)
    | none => .error (.unknownMember member)
  | foreign value =>
    match value.members? with
    | some backing => backing.readMember world member
    | none => .error (.unsupportedMessage "read_member")
  | view delegate => delegate.readMember world member

def writeMember (member : String) (content : Value) : Receiver → Action Unit
  | native value => value.writeMember member content
  | descriptor _ | functions _ => .raise (.unsupportedMessage "write_member")
  | foreign value =>
    match value.members? with
    | some backing => backing.writeMember member content
    | none => .raise (.unsupportedMessage "write_member")
  | view delegate => delegate.writeMember member content

def removeMember (member : String) : Receiver → Action Unit
  | native value => value.removeMember member
  | descriptor _ | functions _ => .raise (.unsupportedMessage "remove_member")
  | foreign value =>
    match value.members? with
    | some backing => backing.removeMember member
    | none => .raise (.unsupportedMessage "remove_member")
  | view delegate => delegate.removeMember member

def isMemberReadable (world : World) (member : String) : Receiver → Bool
  | native value => value.hasMember world member
  | descriptor _ => false
  | functions registry => (world.registry registry).functions.contains member
  | foreign value => value.members?.any fun backing ↦ backing.hasMember world member
  | view delegate => delegate.isMemberReadable world member

/-- Whether a member that is there may be overwritten. -/
def isMemberWritable (world : World) (member : String) : Receiver → Bool
  | native value => value.hasMember world member
  | descriptor _ | functions _ => false
  | foreign value => value.members?.any fun backing ↦ backing.hasMember world member
  | view delegate => delegate.isMemberWritable world member

def isMemberRemovable (world : World) (member : String) : Receiver → Bool
  | native value => value.hasMember world member
  | descriptor _ | functions _ => false
  | foreign value => value.members?.any fun backing ↦ backing.hasMember world member
  | view delegate => delegate.isMemberRemovable world member

/-- Whether a new member may be added under the name. -/
def isMemberInsertable (world : World) (member : String) : Receiver → Bool
  | native value => value.acceptsMember world member
  | descriptor _ | functions _ => false
  | foreign value => value.members?.any fun backing ↦ backing.acceptsMember world member
  | view delegate => delegate.isMemberInsertable world member

def memberNames (world : World) : Receiver → Except Fault (List String)
  | native value => value.memberNames world
  | descriptor _ => .error (.unsupportedMessage "enumerate_members")
  | functions registry => .ok (world.registry registry).functions.keys
  | foreign value =>
    match value.members? with
    | some backing => backing.memberNames world
    | none => .error (.unsupportedMessage "enumerate_members")
  | view delegate => delegate.memberNames world

/-! ## Elements -/

def hasElements : Receiver → Bool
  | native value => value.list?.isSome
  | descriptor _ | functions _ => false
  | foreign value => value.hasElements
  | view delegate => delegate.hasElements

def elementCount : Receiver → Except Fault Nat
  | native value => value.elementCount
  | descriptor _ | functions _ => .error (.unsupportedMessage "array_size")
  | foreign value =>
    match value.elements? with
    | some backing => backing.elementCount
    | none => .error (.unsupportedMessage "array_size")
  | view delegate => delegate.elementCount

def element (index : Nat) : Receiver → Except Fault Value
  | native value => value.element index
  | descriptor _ | functions _ => .error (.unsupportedMessage "read_array_element")
  | foreign value =>
    match value.elements? with
    | some backing => backing.element index
    | none => .error (.unsupportedMessage "read_array_element")
  | view delegate => delegate.element index

/-! ## Functions -/

def isExecutable : Receiver → Bool
  | native value => value.function?.isSome
  | descriptor _ | functions _ => false
  | foreign value => value.isExecutable
  | view delegate => delegate.isExecutable

def location? (world : World) : Receiver → Option Location
  | native value => value.location? world
  | descriptor _ | functions _ => none
  | foreign value => value.location?
  | view delegate => delegate.location? world

def hasLocation (world : World) (receiver : Receiver) : Bool :=
  (receiver.location? world).isSome

def location (world : World) (receiver : Receiver) : Except Fault Location :=
  match receiver.location? world with
  | some location => .ok location
  | none => .error (.unsupportedMessage "source_location")

/-! ## Types -/

/-- The probe by which a type recognises its instances. -/
def isInstance (receiver : Receiver) : LanguageType → Bool
  | .null => receiver.isNull
  | .number => receiver.isNumber
  | .text => receiver.isText
  | .boolean => receiver.isBoolean
  | .function => receiver.isExecutable
  | .object => receiver.hasMembers

/-- The first type that recognises the receiver. -/
def type? (receiver : Receiver) : Option LanguageType :=
  LanguageType.precedence.find? receiver.isInstance

def type (receiver : Receiver) : Except Fault LanguageType :=
  match receiver.type? with
  | some type => .ok type
  | none => .error (.unsupportedMessage "get_type")

/-- Whether the receiver describes a type.  A view never does, whatever it shows. -/
def isDescriptor : Receiver → Bool
  | descriptor _ => true
  | _ => false

def simpleName : Receiver → Except Fault String
  | descriptor type => .ok type.name
  | _ => .error (.unsupportedMessage "meta_simple_name")

def qualifiedName : Receiver → Except Fault String
  | descriptor type => .ok type.name
  | _ => .error (.unsupportedMessage "meta_qualified_name")

/-- Whether the type that the receiver describes recognises another receiver. -/
def describes (receiver candidate : Receiver) : Except Fault Bool :=
  match receiver with
  | descriptor type => .ok (candidate.isInstance type)
  | _ => .error (.unsupportedMessage "is_meta_instance")

end GuestCore.Receiver
