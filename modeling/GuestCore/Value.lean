/-!
# Values

The values of the language.  Functions and objects are handles: the state that they refer to is
kept by the world.  Texts and lists are immutable; each carries the identity of the allocation
that it came from, so that a shared value can be told from an equal one.
-/

namespace GuestCore

/-- A function of some registry. -/
structure FunctionId where
  index : Nat
deriving DecidableEq, Repr, Inhabited

/-- An object with members. -/
structure ObjectId where
  index : Nat
deriving DecidableEq, Repr, Inhabited

/-- One allocation of immutable contents. -/
structure CellId where
  index : Nat
deriving DecidableEq, Repr, Inhabited

inductive Value where
  | null
  | integer (value : Int)
  | boolean (value : Bool)
  | text (cell : CellId) (content : String)
  | function (function : FunctionId)
  | object (object : ObjectId)
  | list (cell : CellId) (items : List Value)
deriving Inhabited

namespace Value

def isNull : Value → Bool
  | null => true
  | _ => false

def integer? : Value → Option Int
  | integer value => some value
  | _ => none

def boolean? : Value → Option Bool
  | boolean value => some value
  | _ => none

def text? : Value → Option String
  | text _ content => some content
  | _ => none

def function? : Value → Option FunctionId
  | function id => some id
  | _ => none

def object? : Value → Option ObjectId
  | object id => some id
  | _ => none

def list? : Value → Option (List Value)
  | list _ items => some items
  | _ => none

end Value

end GuestCore
