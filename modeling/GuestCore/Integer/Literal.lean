/-!
# Integer Literals

A literal is an optional sign, a decimal digit, and then any number of digits and underscores.
Underscores separate groups of digits and carry no value.  Integers are shown in canonical form:
no plus sign, no leading zeros, no underscores.
-/

namespace GuestCore.Integer

/-- The sign of a literal, as a flag for a minus, and what follows it. -/
def splitSign : List Char → Bool × List Char
  | '-' :: rest => (true, rest)
  | '+' :: rest => (false, rest)
  | rest => (false, rest)

def isDigitOrSeparator (char : Char) : Bool :=
  char.isDigit || char == '_'

/-- The value of the digits behind the sign.  The first character must be a digit. -/
def magnitude? : List Char → Option Nat
  | [] => none
  | first :: rest =>
    if first.isDigit && rest.all isDigitOrSeparator then
      some (Nat.ofDigitChars 10 ((first :: rest).filter Char.isDigit) 0)
    else none

/-- The integer that a literal denotes, or nothing if the text is no literal. -/
def parse? (text : String) : Option Int :=
  let (negative, digits) := splitSign text.toList
  (magnitude? digits).map fun magnitude ↦ if negative then -(magnitude : Int) else magnitude

/-- The canonical literal of an integer. -/
def display (n : Int) : String :=
  n.repr

/-- The diagnostic text of an integer. -/
def debug (n : Int) : String :=
  "Integer(" ++ display n ++ ")"

end GuestCore.Integer
