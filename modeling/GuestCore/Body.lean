import GuestCore.Operation
import GuestCore.Value

/-!
# Function Bodies

The body of a function is an expression over its arguments.  Bodies have no loops: repetition
comes from calls alone.  They work on objects that exist, which they reach through constants,
arguments and members.  Constants are a parameter, so that the same syntax serves bodies whose
constants are still to be built and bodies that are ready to run.
-/

namespace GuestCore

inductive Body (κ : Type) where
  | constant (value : κ)
  /-- The argument at an index, or null past the last one. -/
  | argument (index : Nat)
  | argumentCount
  /-- The number of calls active on the dispatcher. -/
  | depth
  /-- The function that a name has in the dispatcher's registry; a new name gets one. -/
  | lookup (name : String)
  | list (items : List (Body κ))
  | operator (operator : BinaryOperator) (operation : Operation) (left right : Body κ)
  /-- The first branch exactly if the condition is the truth value true. -/
  | choose (condition thenBranch elseBranch : Body κ)
  /-- A call of the function that a name has in the dispatcher's registry. -/
  | call (name : String) (arguments : List (Body κ))
  /-- A call of a value. -/
  | execute (callee : Body κ) (arguments : List (Body κ))
  /-- A call through a call site; the name is created in the registry if it is new. -/
  | callAt (site : String) (name : String) (arguments : List (Body κ))
  /-- A call of a value through a call site. -/
  | executeAt (site : String) (callee : Body κ) (arguments : List (Body κ))
  /-- All items in order; the result is that of the last one. -/
  | sequence (items : List (Body κ))
  /-- Binds a body to a name in the dispatcher's registry. -/
  | register (name : String) (body : Body κ) (location : Option Location)
  /-- Applies a batch to the dispatcher's registry.  Each name, with where its body was written,
  stands for the body in the same position. -/
  | registerBatch (identity : Nat) (names : List (String × Option Location))
      (bodies : List (Body κ))
  | readMember (object : Body κ) (member : String)
  | writeMember (object : Body κ) (member : String) (value : Body κ)
  | removeMember (object : Body κ) (member : String)
  | fail (member : String)
  /-- The fallback replaces a body that fails; effects up to the failure stay. -/
  | attempt (body fallback : Body κ)
deriving Inhabited

/-- What a function is bound to: a body, and where it was written if that is known. -/
structure Definition where
  body : Body Value
  location : Option Location := none
deriving Inhabited

end GuestCore
