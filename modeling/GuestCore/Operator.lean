import GuestCore.Receiver.Identity
import GuestCore.Receiver.Presentation

/-!
# Operators

Arithmetic and comparison are defined on receivers that stand for integers.  Addition also joins
texts if either side is one.  Equality is defined on all receivers: integers, truth values and
texts are equal by content, everything else by identity.  Operands for which an operator is not
defined are described in the fault.
-/

namespace GuestCore

/-- What an operator computes, before it is given a place in the world. -/
inductive Scalar where
  | integer (value : Int)
  | boolean (value : Bool)
  | text (content : String)
deriving DecidableEq, Repr

namespace Scalar

def toValue : Scalar → World → Value × World
  | integer value, world => (.integer value, world)
  | boolean value, world => (.boolean value, world)
  | text content, world => world.newText content

end Scalar

namespace Operator

/-! ## Type errors -/

/-- An operand as a type error shows it: the name of its type unless it is null, and its text, in
quotes if it is a text. -/
def describe (world : World) (operand : Receiver) : String :=
  match operand.type? with
  | none => "ANY"
  | some type =>
    let shown := operand.viewDisplay world
    (if operand.isNull then "" else type.name ++ " ") ++
      (if operand.isText then "\"" ++ shown ++ "\"" else shown)

def typeErrorMessage (world : World) (operation : Operation) (operands : List Receiver) :
    String :=
  let place := match operation.location with
    | some location => " at " ++ location.display
    | none => ""
  let name := match operation.name with
    | some name => " \"" ++ name ++ "\""
    | none => ""
  let described := match operands with
    | [] => ""
    | _ => " " ++ Text.commaSeparated (operands.map (describe world))
  "Type error" ++ place ++ ": operation" ++ name ++ " not defined for" ++ described

def typeError (world : World) (operation : Operation) (operands : List Receiver) : Fault :=
  ⟨.typeError (typeErrorMessage world operation operands), operation.location⟩

/-! ## Arithmetic and order -/

/-- The integers that both operands stand for. -/
def integers? (left right : Receiver) : Option (Int × Int) :=
  match left.integer?, right.integer? with
  | some a, some b => some (a, b)
  | _, _ => none

/-- An operator that is defined on integers only. -/
def onIntegers (compute : Int → Int → Scalar) (world : World) (operation : Operation)
    (left right : Receiver) : Except Fault Scalar :=
  match integers? left right with
  | some (a, b) => .ok (compute a b)
  | none => .error (typeError world operation [left, right])

/-- The text of an operand that is joined to a text. -/
def joinText (world : World) (operand : Receiver) : String :=
  if operand.isNull then "null"
  else
    match operand.native? with
    | some value => value.display world
    | none =>
      match operand.type? with
      | some .number | some .text | some .boolean => operand.viewDisplay world
      | _ => "[foreign object]"

def add (world : World) (operation : Operation) (left right : Receiver) : Except Fault Scalar :=
  match integers? left right with
  | some (a, b) => .ok (.integer (a + b))
  | none =>
    if left.isText || right.isText then .ok (.text (joinText world left ++ joinText world right))
    else .error (typeError world operation [left, right])

def sub : World → Operation → Receiver → Receiver → Except Fault Scalar :=
  onIntegers fun a b ↦ .integer (a - b)

def mul : World → Operation → Receiver → Receiver → Except Fault Scalar :=
  onIntegers fun a b ↦ .integer (a * b)

def lt : World → Operation → Receiver → Receiver → Except Fault Scalar :=
  onIntegers fun a b ↦ .boolean (a < b)

def le : World → Operation → Receiver → Receiver → Except Fault Scalar :=
  onIntegers fun a b ↦ .boolean (a ≤ b)

/-! ## Equality -/

/-- The verdict on two native values of the same scalar kind. -/
def equalScalars? : Option Value → Option Value → Option Bool
  | some (.integer a), some (.integer b) => some (a == b)
  | some (.boolean a), some (.boolean b) => some (a == b)
  | some (.text _ a), some (.text _ b) => some (a == b)
  | _, _ => none

/-- Whether one of two receivers says that it is the other one. -/
def eitherIdentifies (left right : Receiver) : Bool :=
  match left.identityAnswer right with
  | .yes => true
  | .no => false
  | .unknown => right.identityAnswer left == .yes

def equal (left right : Receiver) : Bool :=
  match equalScalars? left.native? right.native? with
  | some verdict => verdict
  | none =>
    match integers? left right with
    | some (a, b) => a == b
    | none =>
      if left.isNull || right.isNull then left.isNull && right.isNull
      else eitherIdentifies left right

/-! ## All operators -/

/-- The result of an operator; equality never fails. -/
def apply (world : World) : BinaryOperator → Operation → Receiver → Receiver →
    Except Fault Scalar
  | .add, operation, left, right => add world operation left right
  | .sub, operation, left, right => sub world operation left right
  | .mul, operation, left, right => mul world operation left right
  | .lt, operation, left, right => lt world operation left right
  | .le, operation, left, right => le world operation left right
  | .eq, _, left, right => .ok (.boolean (equal left right))

/-- The result of an operator as a value of the world. -/
def run (operator : BinaryOperator) (operation : Operation) (left right : Receiver) :
    Action Value := fun world ↦
  match apply world operator operation left right with
  | .ok scalar => Action.state scalar.toValue world
  | .error fault => .raised fault world

end Operator

end GuestCore
