import GuestCore.Receiver

/-!
# Steps of a Session

A session is a list of steps, described before it is run.  Values, receivers, definitions and
operations have descriptions of their own, which name registries, call sites and slots; the names
are resolved when the step that holds the description runs.
-/

namespace GuestCore.Session

/-- A value to be built. -/
inductive ValueSpec where
  | null
  | boolean (value : Bool)
  | integer (value : Int)
  | text (content : String)
  | list (items : List ValueSpec)
  /-- The value behind the receiver in a slot. -/
  | slot (name : String)
  /-- The function of a name, which is created if it is new. -/
  | function (name registry : String)
  /-- A new object with members written in order. -/
  | object (fields : List (String × ValueSpec))
  /-- A value inside that many lists of one element. -/
  | nested (depth : Nat) (item : ValueSpec)
deriving Inhabited

/-- A foreign value to be built; what is left out is not supported. -/
structure ForeignSpec where
  display : String := "host"
  native : Option ValueSpec := none
  isNull : Bool := false
  isBoolean : Bool := false
  asBoolean : Option Bool := none
  isText : Bool := false
  asText : Option String := none
  isNumber : Bool := false
  asInteger : Option Int := none
  hasMembers : Bool := false
  members : Option ValueSpec := none
  hasElements : Bool := false
  elements : Option ValueSpec := none
  isExecutable : Bool := false
  body : Option (Body ValueSpec) := none
  location : Option Location := none
  identity : Option IdentityAnswer := none
  identityHash : Option Nat := none

inductive ReceiverSpec where
  | slot (name : String)
  | view (delegate : ReceiverSpec)
  | descriptor (type : LanguageType)
  | functions (registry : String)
  | foreign (value : ForeignSpec)
  | value (value : ValueSpec)

/-- A definition to be built.  A plain one does not tell where it was written. -/
structure DefinitionSpec where
  body : Body ValueSpec
  location : Option Location := none
  plain : Bool := false

/-- An operation as a step gives it: an explicit name wins over the operator's symbol, which an
anonymous operation leaves out. -/
structure OperationSpec where
  name : Option String := none
  operator : Option BinaryOperator := none
  anonymous : Bool := false
  location : Option Location := none

namespace OperationSpec

def toOperation (spec : OperationSpec) : Operation :=
  let base := match spec.name, spec.operator with
    | some name, _ => .named name
    | none, some operator => if spec.anonymous then .unknown else .ofOperator operator
    | none, none => .unknown
  match spec.location with
  | some location => base.located location
  | none => base

end OperationSpec

/-- A message with its arguments. -/
inductive Message where
  | readMember (member : String)
  | writeMember (member : String) (content : ValueSpec)
  | removeMember (member : String)
  | memberFlags (member : String)
  | memberNames
  | elementCount
  | element (index : Nat)
  | execute (arguments : List ValueSpec) (registry : String)
  | describes (candidate : ReceiverSpec)
  | identityHash
  | location
  | type
  | asBoolean
  | asText
  | asLong
  | asInteger
  | simpleName

/-- A request to the members of an object. -/
inductive StoreRequest where
  | read
  | remove
  | get
  | write (content : ValueSpec)
  | getOrInsert (content : ValueSpec)
  | contains

/-- What a call step calls. -/
inductive Callee where
  | named (name : String)
  | function (function : ValueSpec)
  | throughSite (site : String) (function : ValueSpec)

inductive Step where
  /-- Puts a receiver into a slot. -/
  | define (slot : String) (receiver : ReceiverSpec)
  | probe (receiver : ReceiverSpec)
  | display (receiver : ReceiverSpec)
  | debug (receiver : ReceiverSpec)
  /-- Compares two texts or two lists, by content and by allocation. -/
  | compareCells (left right : ValueSpec)
  | operate (operator : BinaryOperator) (operation : OperationSpec) (left right : ReceiverSpec)
  | identical (left right : ReceiverSpec)
  | classify (receiver : ReceiverSpec)
  | message (receiver : ReceiverSpec) (message : Message)
  | store (object : ValueSpec) (key : String) (request : StoreRequest)
  | operation (spec : OperationSpec)
  | location (left right : Location)
  | typeError (operation : OperationSpec) (operands : List ReceiverSpec)
  | makeFault (kind : FaultKind) (location : Option Location)
  | register (name : String) (definition : DefinitionSpec) (registry : String)
  | lookup (name : String) (create : Bool) (registry : String)
  | functions (registry : String)
  | sameFunction (left right : ValueSpec)
  | batch (name : String) (entries : List (String × DefinitionSpec))
  | registerBatch (batch registry : String)
  | call (callee : Callee) (arguments : List ValueSpec) (registry : String)
  | site (name : String)
  | dispatcher (registry : String)

end GuestCore.Session
