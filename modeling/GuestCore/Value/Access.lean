import GuestCore.Action

/-!
# Members and Elements of Values

Objects answer to member names and lists to indices.  Every other value refuses, with the fault
that names the message.
-/

namespace GuestCore.Value

def readMember (world : World) (value : Value) (member : String) : Except Fault Value :=
  match value.object? with
  | some id => (world.members id).read member
  | none => .error (.unsupportedMessage "read_member")

def writeMember (value : Value) (member : String) (content : Value) : Action Unit :=
  match value.object? with
  | some id => .update fun world ↦
      world.modifyMembers id fun members ↦ members.insert member content
  | none => .raise (.unsupportedMessage "write_member")

def removeMember (value : Value) (member : String) : Action Unit :=
  match value.object? with
  | some id => fun world ↦
    match (world.members id).remove member with
    | .ok (_, rest) => .returned () (world.modifyMembers id fun _ ↦ rest)
    | .error fault => .raised fault world
  | none => .raise (.unsupportedMessage "remove_member")

/-- Whether the value has the member, so that it can be read, overwritten and removed. -/
def hasMember (world : World) (value : Value) (member : String) : Bool :=
  value.object?.any fun id ↦ (world.members id).contains member

/-- Whether the member could be added. -/
def acceptsMember (world : World) (value : Value) (member : String) : Bool :=
  value.object?.any fun id ↦ (world.members id).isInsertable member

def memberNames (world : World) (value : Value) : Except Fault (List String) :=
  match value.object? with
  | some id => .ok (world.members id).keys
  | none => .error (.unsupportedMessage "enumerate_members")

def elementCount (value : Value) : Except Fault Nat :=
  match value.list? with
  | some items => .ok items.length
  | none => .error (.unsupportedMessage "array_size")

def element (value : Value) (index : Nat) : Except Fault Value :=
  match value.list? with
  | some items =>
    match items[index]? with
    | some item => .ok item
    | none => .error (.indexOutOfBounds index)
  | none => .error (.unsupportedMessage "read_array_element")

/-- Where the body of a function was written. -/
def location? (world : World) (value : Value) : Option Location :=
  value.function?.bind fun id ↦ (world.functionState id).location

end GuestCore.Value
