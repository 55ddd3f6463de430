import GuestCore.Body
import GuestCore.Fault
import GuestCore.World

/-!
# Receivers

Operators and messages address receivers: values of the language, descriptors of its types, a
registry seen as an object of its functions, foreign values of the host, and views that show any
of these as the language sees them.  A foreign value says for itself what it answers; whatever it
leaves out is answered with "no" or with the fault that names the message.
-/

namespace GuestCore

/-- The six types of the language. -/
inductive LanguageType where
  | null
  | number
  | text
  | boolean
  | function
  | object
deriving DecidableEq, Repr

namespace LanguageType

/-- All types in the order in which they are tried; an executable value with members is a
function. -/
def precedence : List LanguageType := [null, number, text, boolean, function, object]

def name : LanguageType → String
  | null => "NULL"
  | number => "Number"
  | text => "String"
  | boolean => "Boolean"
  | function => "Function"
  | object => "Object"

def debug : LanguageType → String
  | null => "Null"
  | type => type.name

def ofName? (name : String) : Option LanguageType :=
  precedence.find? fun type ↦ type.name == name

end LanguageType

/-- An answer to "are you this one?" from a receiver that may be unable to tell. -/
inductive IdentityAnswer where
  | yes
  | no
  | unknown
deriving DecidableEq, Repr

namespace IdentityAnswer

def ofBool (b : Bool) : IdentityAnswer :=
  if b then yes else no

end IdentityAnswer

/-- A number by which identical receivers are found.  Those of functions and objects depend on
where they are kept, so all that is known of them is when they are equal. -/
inductive IdentityHash where
  | number (value : Nat)
  | function (id : FunctionId)
  | object (id : ObjectId)
deriving DecidableEq, Repr

namespace IdentityHash

/-- The number of null. -/
def ofNull : IdentityHash := number 0x9E3779B97F4A7C15

end IdentityHash

/-- What a foreign value can tell of another receiver when it is asked about identity. -/
inductive Peer where
  | native (value : Value)
  | descriptor (type : LanguageType)
  | functions (registry : RegistryId)
  | foreign (handle : Nat)
  | view (delegate : Peer)

/-- A value of the host.  Every field that is left out has the answer "not supported". -/
structure Foreign where
  /-- Distinguishes this value from all other foreign values. -/
  handle : Nat
  display : String := "host"
  native? : Option Value := none
  isNull : Bool := false
  isBoolean : Bool := false
  asBoolean : Except Fault Bool := .error (.unsupportedMessage "as_boolean")
  isText : Bool := false
  asText : Except Fault String := .error (.unsupportedMessage "as_string")
  isNumber : Bool := false
  asInteger : Except Fault Int := .error (.unsupportedConversion "big integer")
  hasMembers : Bool := false
  /-- The value to which all member messages are forwarded. -/
  members? : Option Value := none
  hasElements : Bool := false
  /-- The value to which the element messages are forwarded. -/
  elements? : Option Value := none
  isExecutable : Bool := false
  body? : Option (Body Value) := none
  location? : Option Location := none
  identity : Peer → IdentityAnswer := fun _ ↦ .unknown
  identityHash : Except Fault IdentityHash := .error (.unsupportedMessage "identity_hash")

inductive Receiver where
  | native (value : Value)
  | descriptor (type : LanguageType)
  | functions (registry : RegistryId)
  | foreign (value : Foreign)
  | view (delegate : Receiver)

def Receiver.peer : Receiver → Peer
  | native value => .native value
  | descriptor type => .descriptor type
  | functions registry => .functions registry
  | foreign value => .foreign value.handle
  | view delegate => .view delegate.peer

/-- A receiver at an address.  Two places with the same address hold the same receiver. -/
structure Place where
  address : Nat
  receiver : Receiver

end GuestCore
