/-!
# Binary Floating-Point Formats

A format is given by its precision, hidden bit included, and the width of its exponent field.
Values are handled as bit patterns: sign, biased exponent and fraction, from the top down.
Rounding an integer to a format goes to the nearest representable value, a half to the even
neighbour, and past the largest finite value to infinity.  All arithmetic is exact.
-/

namespace GuestCore.Integer

/-- The power of two with the given exponent. -/
def twoPow (exponent : Nat) : Nat :=
  Nat.pow 2 exponent

structure BinaryFormat where
  /-- Significant bits of a normal value, the hidden one included. -/
  precision : Nat
  /-- Bits of the biased exponent field. -/
  exponentBits : Nat
deriving Repr, DecidableEq

namespace BinaryFormat

/-- The format of thirty-two bits. -/
def single : BinaryFormat := ⟨24, 8⟩

/-- The format of sixty-four bits. -/
def double : BinaryFormat := ⟨53, 11⟩

/-- Width of the fraction field. -/
def fractionBits (format : BinaryFormat) : Nat :=
  format.precision - 1

/-- The biased exponent of the value one. -/
def bias (format : BinaryFormat) : Nat :=
  twoPow (format.exponentBits - 1) - 1

/-- The exponent field of infinities, one more than that of the largest finite values. -/
def topExponent (format : BinaryFormat) : Nat :=
  twoPow format.exponentBits - 1

/-- The pattern with the given fields. -/
def assemble (format : BinaryFormat) (negative : Bool) (exponent fraction : Nat) : Nat :=
  ((if negative then twoPow format.exponentBits else 0) + exponent) * twoPow format.fractionBits +
    fraction

def signField (format : BinaryFormat) (pattern : Nat) : Bool :=
  pattern / twoPow format.fractionBits / twoPow format.exponentBits % 2 == 1

def exponentField (format : BinaryFormat) (pattern : Nat) : Nat :=
  pattern / twoPow format.fractionBits % twoPow format.exponentBits

def fractionField (format : BinaryFormat) (pattern : Nat) : Nat :=
  pattern % twoPow format.fractionBits

/-- Number of binary digits of a natural number; zero has none. -/
def bitLength (n : Nat) : Nat :=
  if n = 0 then 0 else n.log2 + 1

/-- The quotient by a power of two, rounded to nearest, a half to the even neighbour. -/
def roundedShift (n shift : Nat) : Nat :=
  let quotient := n / twoPow shift
  let doubled := 2 * (n % twoPow shift)
  if doubled < twoPow shift then quotient
  else if twoPow shift < doubled then quotient + 1
  else if quotient % 2 = 0 then quotient else quotient + 1

/-- The significand nearest to a positive number, with the exponent of its lowest bit.  A number
of few bits is scaled up to a full significand; rounding may carry into one bit more. -/
def significand (format : BinaryFormat) (n : Nat) : Nat × Int :=
  let length := bitLength n
  if length ≤ format.precision then
    (n * twoPow (format.precision - length), (length : Int) - format.precision)
  else
    let shift := length - format.precision
    let rounded := roundedShift n shift
    if rounded = twoPow format.precision then (twoPow format.fractionBits, shift + 1)
    else (rounded, shift)

/-- The pattern nearest to an integer.  Zero has the pattern of positive zero. -/
def nearest (format : BinaryFormat) (n : Int) : Nat :=
  if n = 0 then 0 else
    let (mantissa, scale) := format.significand n.natAbs
    let exponent := (scale + format.fractionBits + format.bias).toNat
    if format.topExponent ≤ exponent then format.assemble (n < 0) format.topExponent 0
    else format.assemble (n < 0) exponent (mantissa - twoPow format.fractionBits)

def isFinite (format : BinaryFormat) (pattern : Nat) : Bool :=
  format.exponentField pattern < format.topExponent

/-- The magnitude of a finite pattern, its fractional part cut off. -/
def magnitude (format : BinaryFormat) (pattern : Nat) : Nat :=
  let exponent := format.exponentField pattern
  let fraction := format.fractionField pattern
  let integral := format.bias + format.fractionBits
  if exponent = 0 then fraction / twoPow (integral - 1)
  else if integral ≤ exponent then
    (twoPow format.fractionBits + fraction) * twoPow (exponent - integral)
  else (twoPow format.fractionBits + fraction) / twoPow (integral - exponent)

/-- The integer that a finite pattern holds, its fractional part cut off. -/
def toInt? (format : BinaryFormat) (pattern : Nat) : Option Int :=
  if format.isFinite pattern then
    let magnitude : Int := format.magnitude pattern
    some (if format.signField pattern then -magnitude else magnitude)
  else none

/-- The pattern that holds an integer exactly.  An integer of at most as many bits as the
precision needs no test; any other is accepted if its nearest pattern reads back to it. -/
def ofInt? (format : BinaryFormat) (n : Int) : Option Nat :=
  let pattern := format.nearest n
  if bitLength n.natAbs ≤ format.precision then some pattern
  else if format.toInt? pattern = some n then some pattern
  else none

end BinaryFormat

end GuestCore.Integer
