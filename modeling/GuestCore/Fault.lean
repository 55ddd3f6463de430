import GuestCore.Operation

/-!
# Faults

A fault is the error of a running program: a cause with its data, and the location where it
arose, if that is known.  The wording of every fault is fixed by its cause alone.
-/

namespace GuestCore

/-- Why a program failed. -/
inductive FaultKind where
  /-- A member that is not there was read or removed. -/
  | unknownMember (member : String)
  /-- A value does not fit the requested number format, or is no number. -/
  | unsupportedConversion (target : String)
  /-- The receiver does not answer the message. -/
  | unsupportedMessage (message : String)
  /-- An operator was applied to operands for which it is not defined. -/
  | typeError (message : String)
  /-- The called function has no body. -/
  | undefinedFunction (name : String)
  | indexOutOfBounds (index : Nat)
  | depthExceeded (limit : Nat)
deriving DecidableEq, Inhabited

namespace FaultKind

def message : FaultKind → String
  | unknownMember member => "unknown member: " ++ member
  | unsupportedConversion target => "unsupported conversion to " ++ target
  | unsupportedMessage message => "unsupported message: " ++ message
  | typeError message => message
  | undefinedFunction name => "undefined function: " ++ name
  | indexOutOfBounds index => "index " ++ index.repr ++ " out of bounds"
  | depthExceeded limit => "maximum call depth exceeded (limit: " ++ limit.repr ++ ")"

def debug : FaultKind → String
  | unknownMember member => Text.record "UnresolvedMember" [("member", Text.quoted member)]
  | unsupportedConversion target =>
    Text.record "UnsupportedConversion" [("target", Text.quoted target)]
  | unsupportedMessage message =>
    Text.record "UnsupportedMessage" [("message", Text.quoted message)]
  | typeError message => Text.record "TypeError" [("message", Text.quoted message)]
  | undefinedFunction name => Text.record "UnresolvedCall" [("name", Text.quoted name)]
  | indexOutOfBounds index => Text.record "InvalidArrayIndex" [("index", index.repr)]
  | depthExceeded limit => Text.record "StackOverflow" [("depth", limit.repr)]

end FaultKind

structure Fault where
  kind : FaultKind
  location : Option Location := none
deriving DecidableEq, Inhabited

namespace Fault

def message (fault : Fault) : String :=
  fault.kind.message

def located (fault : Fault) (location : Location) : Fault :=
  { fault with location := some location }

def debug (fault : Fault) : String :=
  Text.record "RuntimeError"
    [("kind", fault.kind.debug), ("message", Text.quoted fault.message),
      ("location", Text.optional (fault.location.map Location.debug))]

/-! ## The faults without a location -/

def unknownMember (member : String) : Fault := ⟨.unknownMember member, none⟩

def unsupportedConversion (target : String) : Fault := ⟨.unsupportedConversion target, none⟩

def unsupportedMessage (message : String) : Fault := ⟨.unsupportedMessage message, none⟩

def undefinedFunction (name : String) : Fault := ⟨.undefinedFunction name, none⟩

def indexOutOfBounds (index : Nat) : Fault := ⟨.indexOutOfBounds index, none⟩

def depthExceeded (limit : Nat) : Fault := ⟨.depthExceeded limit, none⟩

end Fault

end GuestCore
