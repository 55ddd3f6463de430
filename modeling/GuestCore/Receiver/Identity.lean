import GuestCore.Receiver.Messages

/-!
# Identity

Each of two receivers may be asked whether it is the other one.  Null knows that it is only
itself; two functions and two objects compare their handles; every other value cannot tell.  If
neither side can tell, two receivers are identical exactly if they are in the same place.
-/

namespace GuestCore

namespace Value

/-- The answer of a value about the value behind another receiver, if there is one. -/
def identityAnswer : Value → Option Value → IdentityAnswer
  | null, some null => .yes
  | null, _ => .no
  | function left, some (function right) => .ofBool (left = right)
  | object left, some (object right) => .ofBool (left = right)
  | _, _ => .unknown

def identityHash : Value → Except Fault IdentityHash
  | null => .ok .ofNull
  | function id => .ok (.function id)
  | object id => .ok (.object id)
  | _ => .error (.unsupportedMessage "identity_hash")

end Value

namespace Receiver

/-- The answer of a receiver to the question whether it is the other one. -/
def identityAnswer : Receiver → Receiver → IdentityAnswer
  | native value, other => value.identityAnswer other.native?
  | descriptor _, _ | functions _, _ => .unknown
  | foreign value, other => value.identity other.peer
  | view delegate, other => delegate.identityAnswer other

def identityHash : Receiver → Except Fault IdentityHash
  | native value => value.identityHash
  | descriptor _ | functions _ => .error (.unsupportedMessage "identity_hash")
  | foreign value => value.identityHash
  | view delegate => delegate.identityHash

end Receiver

/-- Whether two places hold the same receiver: the left side is asked first, then the right. -/
def Place.identical (left right : Place) : Bool :=
  match left.receiver.identityAnswer right.receiver with
  | .yes => true
  | .no => false
  | .unknown =>
    match right.receiver.identityAnswer left.receiver with
    | .yes => true
    | .no => false
    | .unknown => left.address == right.address

end GuestCore
