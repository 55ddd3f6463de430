import GuestCore.Fault
import GuestCore.Integer.BinaryFormat

/-!
# Checked Narrowing

An integer is narrowed to a fixed-width format only if the format holds its exact value.  The
integral formats accept an interval; the two floating-point formats accept the integers that read
back unchanged.
-/

namespace GuestCore.Integer

/-- A fixed-width number format of the host. -/
inductive Target where
  | byte
  | short
  | int
  | long
  | float
  | double
deriving DecidableEq, Repr

namespace Target

def name : Target → String
  | byte => "byte"
  | short => "short"
  | int => "int"
  | long => "long"
  | float => "float"
  | double => "double"

/-- All targets, narrowest integral format first. -/
def all : List Target := [byte, short, int, long, float, double]

end Target

/-- A narrowed number: an integer within its format's range, or a floating-point bit pattern. -/
inductive Narrowed where
  | integral (value : Int)
  | single (pattern : Nat)
  | double (pattern : Nat)
deriving DecidableEq, Repr

/-- The integer itself, if it lies in the range of signed words of the given width. -/
def inSignedWidth? (width : Nat) (n : Int) : Option Int :=
  if -(twoPow (width - 1) : Int) ≤ n ∧ n < twoPow (width - 1) then some n else none

def narrow? (target : Target) (n : Int) : Option Narrowed :=
  match target with
  | .byte => (inSignedWidth? 8 n).map .integral
  | .short => (inSignedWidth? 16 n).map .integral
  | .int => (inSignedWidth? 32 n).map .integral
  | .long => (inSignedWidth? 64 n).map .integral
  | .float => (BinaryFormat.single.ofInt? n).map .single
  | .double => (BinaryFormat.double.ofInt? n).map .double

/-- Whether the format holds the exact value. -/
def fits (target : Target) (n : Int) : Bool :=
  (narrow? target n).isSome

/-- The narrowed integer, or the fault that names the format. -/
def narrow (target : Target) (n : Int) : Except Fault Narrowed :=
  match narrow? target n with
  | some narrowed => .ok narrowed
  | none => .error (.unsupportedConversion target.name)

end GuestCore.Integer
