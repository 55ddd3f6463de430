import GuestCore.Location

/-!
# Operations

The six binary operators, and what is known of an operation that failed: a short name and a
location, both of which may be missing.
-/

namespace GuestCore

inductive BinaryOperator where
  | add
  | sub
  | mul
  | lt
  | le
  | eq
deriving DecidableEq, Repr

namespace BinaryOperator

/-- The operator as it is written in a program. -/
def symbol : BinaryOperator → String
  | add => "+"
  | sub => "-"
  | mul => "*"
  | lt => "<"
  | le => "<="
  | eq => "=="

def debug : BinaryOperator → String
  | add => "Add"
  | sub => "Sub"
  | mul => "Mul"
  | lt => "Lt"
  | le => "Le"
  | eq => "Eq"

/-- The operator with the given symbol. -/
def ofSymbol? (symbol : String) : Option BinaryOperator :=
  [add, sub, mul, lt, le, eq].find? fun operator ↦ operator.symbol == symbol

end BinaryOperator

/-- What is known of an operation; by default nothing. -/
structure Operation where
  name : Option String := none
  location : Option Location := none
deriving DecidableEq, Inhabited

namespace Operation

def unknown : Operation := {}

def named (name : String) : Operation := { name := some name }

def ofOperator (operator : BinaryOperator) : Operation := named operator.symbol

def located (operation : Operation) (location : Location) : Operation :=
  { operation with location := some location }

def debug (operation : Operation) : String :=
  Text.record "Operation"
    [("short_name", Text.optional (operation.name.map Text.quoted)),
      ("location", Text.optional (operation.location.map Location.debug))]

end Operation

end GuestCore
