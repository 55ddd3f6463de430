import GuestCore.Integer.BinaryFormat
import Mathlib.Algebra.Order.Field.Power
import Mathlib.Data.Rat.Cast.Order
import Mathlib.Tactic.Linarith
import Mathlib.Tactic.Positivity
import Mathlib.Tactic.Ring

/-!
# Rounding to a Binary Format

What a pattern denotes is a rational number, unless it is that of an infinity or of no number.
The pattern nearest to an integer denotes the integer rounded to as many significant bits as the
format has, as long as this is below the power of two at which the format ends.  Reading a pattern
back gives the integer that it denotes, if it denotes one.
-/

namespace GuestCore.Integer

theorem twoPow_eq (exponent : Nat) : twoPow exponent = 2 ^ exponent := rfl

namespace BinaryFormat

/-- There are bits for the fraction, and exponents for all integers of as many bits as the
precision. -/
structure IsRegular (format : BinaryFormat) : Prop where
  one_lt_precision : 1 < format.precision
  precision_le_bias : format.precision ≤ format.bias

theorem isRegular_single : single.IsRegular := ⟨by decide, by decide⟩

theorem isRegular_double : double.IsRegular := ⟨by decide, by decide⟩

section Widths

variable {format : BinaryFormat} (hregular : format.IsRegular)
include hregular

theorem IsRegular.precision_eq : format.precision = format.fractionBits + 1 := by
  have hprecision := hregular.one_lt_precision
  unfold fractionBits
  omega

theorem IsRegular.bias_pos : 0 < format.bias :=
  lt_of_lt_of_le (Nat.zero_lt_of_lt hregular.one_lt_precision) hregular.precision_le_bias

theorem IsRegular.topExponent_eq : format.topExponent = 2 * format.bias + 1 := by
  have hbias := hregular.bias_pos
  unfold bias at hbias ⊢
  unfold topExponent
  cases hbits : format.exponentBits with
  | zero =>
    rw [hbits] at hbias
    cases hbias
  | succ bits =>
    rw [hbits] at hbias
    simp only [twoPow_eq, Nat.add_sub_cancel, pow_succ] at hbias ⊢
    omega

end Widths

/-! ## Fields -/

section Fields

variable {format : BinaryFormat} {exponent fraction : Nat}

/-- Above the fraction there are the sign and the exponent. -/
theorem assemble_div (negative : Bool) (exponent : Nat)
    (hfraction : fraction < 2 ^ format.fractionBits) :
    format.assemble negative exponent fraction / 2 ^ format.fractionBits =
      (if negative then 2 ^ format.exponentBits else 0) + exponent := by
  have hpower : 0 < 2 ^ format.fractionBits := Nat.two_pow_pos _
  rw [assemble, twoPow_eq, twoPow_eq, Nat.add_comm, Nat.add_mul_div_right _ _ hpower,
    Nat.div_eq_of_lt hfraction, Nat.zero_add]

theorem fractionField_assemble (negative : Bool) (exponent : Nat)
    (hfraction : fraction < 2 ^ format.fractionBits) :
    format.fractionField (format.assemble negative exponent fraction) = fraction := by
  rw [fractionField, assemble, twoPow_eq, twoPow_eq, Nat.add_comm, Nat.add_mul_mod_self_right,
    Nat.mod_eq_of_lt hfraction]

variable (hexponent : exponent < 2 ^ format.exponentBits)
  (hfraction : fraction < 2 ^ format.fractionBits)
include hexponent hfraction

theorem exponentField_assemble (negative : Bool) :
    format.exponentField (format.assemble negative exponent fraction) = exponent := by
  rw [exponentField, twoPow_eq, twoPow_eq, assemble_div negative exponent hfraction]
  cases negative with
  | true => rw [if_pos rfl, Nat.add_mod_left, Nat.mod_eq_of_lt hexponent]
  | false => rw [if_neg Bool.false_ne_true, Nat.zero_add, Nat.mod_eq_of_lt hexponent]

theorem signField_assemble (negative : Bool) :
    format.signField (format.assemble negative exponent fraction) = negative := by
  rw [signField, twoPow_eq, twoPow_eq, assemble_div negative exponent hfraction]
  cases negative with
  | true =>
    rw [if_pos rfl, Nat.add_div_left _ (Nat.two_pow_pos _), Nat.div_eq_of_lt hexponent]
    rfl
  | false =>
    rw [if_neg Bool.false_ne_true, Nat.zero_add, Nat.div_eq_of_lt hexponent]
    rfl

/-- A pattern has one bit for the sign and the bits of the two other fields. -/
theorem assemble_lt (negative : Bool) :
    format.assemble negative exponent fraction <
      2 ^ (1 + format.exponentBits + format.fractionBits) := by
  have hpower : 0 < 2 ^ format.fractionBits := Nat.two_pow_pos _
  rw [pow_add, ← Nat.div_lt_iff_lt_mul hpower, assemble_div negative exponent hfraction,
    pow_add, pow_one]
  split <;> omega

end Fields

/-! ## Values -/

/-- The number with the given magnitude. -/
def withSign {α : Type} [Neg α] (negative : Bool) (magnitude : α) : α :=
  if negative then -magnitude else magnitude

theorem withSign_eq_iff {α : Type} [InvolutiveNeg α] {negative : Bool} {magnitude value : α} :
    withSign negative magnitude = value ↔ magnitude = withSign negative value := by
  cases negative with
  | true => exact neg_eq_iff_eq_neg
  | false => exact Iff.rfl

theorem intCast_withSign (negative : Bool) (magnitude : ℤ) :
    ((withSign negative magnitude : ℤ) : ℚ) = withSign negative (magnitude : ℚ) := by
  cases negative with
  | true => exact Int.cast_neg magnitude
  | false => rfl

theorem abs_withSign (negative : Bool) (magnitude : ℚ) :
    |withSign negative magnitude| = |magnitude| := by
  cases negative with
  | true => exact abs_neg magnitude
  | false => rfl

/-- The significand of a finite pattern, with the hidden bit if there is one. -/
def storedSignificand (format : BinaryFormat) (pattern : Nat) : Nat :=
  if format.exponentField pattern = 0 then format.fractionField pattern
  else 2 ^ format.fractionBits + format.fractionField pattern

/-- The exponent of the lowest bit of a finite pattern.  Without a hidden bit it is that of the
smallest normal numbers. -/
def storedScale (format : BinaryFormat) (pattern : Nat) : Int :=
  (max (format.exponentField pattern) 1 : ℕ) - (format.bias + format.fractionBits : ℕ)

/-- The number that a pattern denotes, if it is neither infinite nor no number. -/
def value? (format : BinaryFormat) (pattern : Nat) : Option ℚ :=
  if format.exponentField pattern < format.topExponent then
    some (withSign (format.signField pattern)
      (format.storedSignificand pattern * 2 ^ format.storedScale pattern))
  else none

section Values

variable {format : BinaryFormat} {exponent fraction : Nat}

theorem value?_eq_some_iff {pattern : Nat} {value : ℚ} :
    format.value? pattern = some value ↔
      format.exponentField pattern < format.topExponent ∧
        (format.storedSignificand pattern : ℚ) * 2 ^ format.storedScale pattern =
          withSign (format.signField pattern) value := by
  rw [← withSign_eq_iff, value?, Option.ite_none_right_eq_some, Option.some_inj]

theorem value?_infinity (format : BinaryFormat) (negative : Bool) :
    format.value? (format.assemble negative format.topExponent 0) = none := by
  have hexponent : format.topExponent < 2 ^ format.exponentBits :=
    Nat.sub_lt (Nat.two_pow_pos _) Nat.one_pos
  rw [value?, exponentField_assemble hexponent (Nat.two_pow_pos _), if_neg (lt_irrefl _)]

/-- With an exponent that is neither the lowest nor the highest, there is a hidden bit. -/
theorem value?_assemble (hpositive : 0 < exponent) (hexponent : exponent < format.topExponent)
    (hfraction : fraction < 2 ^ format.fractionBits) (negative : Bool) :
    format.value? (format.assemble negative exponent fraction) =
      some (withSign negative (((2 ^ format.fractionBits + fraction : ℕ) : ℚ) *
        2 ^ ((exponent : ℤ) - (format.bias + format.fractionBits : ℕ)))) := by
  have hbits : exponent < 2 ^ format.exponentBits := lt_of_lt_of_le hexponent (Nat.sub_le _ _)
  rw [value?, storedSignificand, storedScale, exponentField_assemble hbits hfraction,
    signField_assemble hbits hfraction, fractionField_assemble negative exponent hfraction,
    if_pos hexponent, if_neg (Nat.ne_of_gt hpositive), max_eq_left hpositive]

theorem storedSignificand_lt (hregular : format.IsRegular) (pattern : Nat) :
    format.storedSignificand pattern < 2 ^ format.precision := by
  have hfraction : format.fractionField pattern < 2 ^ format.fractionBits :=
    Nat.mod_lt _ (Nat.two_pow_pos _)
  rw [storedSignificand, hregular.precision_eq, pow_succ]
  split <;> omega

/-- A quotient that is an integer is found without a remainder. -/
theorem div_two_pow_of_mul_zpow {significand shift : ℕ} {n : ℤ}
    (hvalue : (significand : ℚ) * 2 ^ (-(shift : ℤ)) = n) :
    ((significand / 2 ^ shift : ℕ) : ℤ) = n := by
  have hproduct : (significand : ℤ) = n * 2 ^ shift := by
    rw [zpow_neg, zpow_natCast, mul_inv_eq_iff_eq_mul₀ (by positivity)] at hvalue
    exact_mod_cast hvalue
  rw [Int.natCast_div, hproduct, Nat.cast_pow, Nat.cast_ofNat,
    Int.mul_ediv_cancel _ (by positivity)]

/-- No fractional part is cut off if there is none. -/
theorem magnitude_of_integral (hregular : format.IsRegular) {pattern : Nat} {n : ℤ}
    (hvalue : (format.storedSignificand pattern : ℚ) * 2 ^ format.storedScale pattern = n) :
    (format.magnitude pattern : ℤ) = n := by
  have hbias := hregular.bias_pos
  unfold storedSignificand storedScale at hvalue
  unfold magnitude
  dsimp only
  by_cases hzero : format.exponentField pattern = 0
  · have hscale : ((max (format.exponentField pattern) 1 : ℕ) : ℤ) -
        (format.bias + format.fractionBits : ℕ) =
          -((format.bias + format.fractionBits - 1 : ℕ) : ℤ) := by omega
    rw [if_pos hzero, hscale] at hvalue
    rw [if_pos hzero]
    exact div_two_pow_of_mul_zpow hvalue
  · rw [if_neg hzero, max_eq_left (Nat.pos_of_ne_zero hzero)] at hvalue
    rw [if_neg hzero]
    split
    · next hlarge =>
      have hscale : (format.exponentField pattern : ℤ) - (format.bias + format.fractionBits : ℕ) =
          (format.exponentField pattern - (format.bias + format.fractionBits) : ℕ) := by omega
      rw [hscale, zpow_natCast] at hvalue
      rw [twoPow_eq, twoPow_eq]
      exact_mod_cast hvalue
    · next hsmall =>
      have hscale : (format.exponentField pattern : ℤ) - (format.bias + format.fractionBits : ℕ) =
          -((format.bias + format.fractionBits - format.exponentField pattern : ℕ) : ℤ) := by omega
      rw [hscale] at hvalue
      exact div_two_pow_of_mul_zpow hvalue

/-- Reading a pattern back gives the integer that it denotes. -/
theorem toInt?_of_value? (hregular : format.IsRegular) {pattern : Nat} {n : ℤ}
    (hvalue : format.value? pattern = some (n : ℚ)) : format.toInt? pattern = some n := by
  obtain ⟨hfinite, hmagnitude⟩ := value?_eq_some_iff.mp hvalue
  rw [← intCast_withSign] at hmagnitude
  rw [toInt?, isFinite, if_pos (decide_eq_true hfinite)]
  exact congrArg some (withSign_eq_iff.mpr (magnitude_of_integral hregular hmagnitude))

end Values

/-! ## Rounding to some bits -/

theorem bitLength_le_iff {n bits : Nat} : bitLength n ≤ bits ↔ n < 2 ^ bits := by
  unfold bitLength
  split
  · next hzero => simp [hzero]
  · next hzero => rw [Nat.succ_le_iff, Nat.log2_lt hzero]

theorem lt_bitLength_iff {n bits : Nat} : bits < bitLength n ↔ 2 ^ bits ≤ n := by
  rw [← not_le, bitLength_le_iff, not_lt]

theorem roundedShift_eq (n shift : Nat) :
    roundedShift n shift =
      if 2 * (n % 2 ^ shift) < 2 ^ shift then n / 2 ^ shift
      else if 2 ^ shift < 2 * (n % 2 ^ shift) then n / 2 ^ shift + 1
      else if n / 2 ^ shift % 2 = 0 then n / 2 ^ shift else n / 2 ^ shift + 1 := rfl

/-- The quotient is taken if the remainder is at most one half, the next number if it is at least
one half. -/
theorem roundedShift_cases (n shift : Nat) :
    (roundedShift n shift = n / 2 ^ shift ∧ 2 * (n % 2 ^ shift) ≤ 2 ^ shift) ∨
      (roundedShift n shift = n / 2 ^ shift + 1 ∧ 2 ^ shift ≤ 2 * (n % 2 ^ shift)) := by
  rw [roundedShift_eq]
  grind

theorem roundedShift_of_dvd {n shift : Nat} (hdvd : 2 ^ shift ∣ n) :
    roundedShift n shift = n / 2 ^ shift := by
  have hzero := Nat.mod_eq_zero_of_dvd hdvd
  have hpower : 0 < 2 ^ shift := Nat.two_pow_pos _
  rcases roundedShift_cases n shift with ⟨hquotient, -⟩ | ⟨-, hhalf⟩
  · exact hquotient
  · omega

/-- What rounding is off by: the remainder, or what the remainder lacks. -/
theorem abs_roundedShift_sub (n shift : Nat) :
    |((roundedShift n shift * 2 ^ shift : ℕ) : ℚ) - n| =
      if roundedShift n shift = n / 2 ^ shift then ((n % 2 ^ shift : ℕ) : ℚ)
      else 2 ^ shift - (n % 2 ^ shift : ℕ) := by
  have hdivision : (2 : ℚ) ^ shift * (n / 2 ^ shift : ℕ) + (n % 2 ^ shift : ℕ) = n := by
    exact_mod_cast Nat.div_add_mod n (2 ^ shift)
  have hremainder : ((n % 2 ^ shift : ℕ) : ℚ) < 2 ^ shift := by
    exact_mod_cast Nat.mod_lt n (Nat.two_pow_pos shift)
  rw [Nat.cast_mul, Nat.cast_pow, Nat.cast_ofNat]
  split
  · next hquotient =>
    have hbelow : (roundedShift n shift : ℚ) * 2 ^ shift - n = -(n % 2 ^ shift : ℕ) := by
      rw [hquotient]
      linarith
    rw [hbelow, abs_neg, Nat.abs_cast]
  · next hquotient =>
    have hnext : roundedShift n shift = n / 2 ^ shift + 1 := by
      rcases roundedShift_cases n shift with ⟨hsame, -⟩ | ⟨hnext, -⟩
      · exact absurd hsame hquotient
      · exact hnext
    have habove : (roundedShift n shift : ℚ) * 2 ^ shift - n = 2 ^ shift - (n % 2 ^ shift : ℕ) := by
      rw [hnext, Nat.cast_add, Nat.cast_one]
      linarith
    rw [habove, abs_of_nonneg (by linarith)]

/-- Rounding is off by at most one half. -/
theorem two_mul_abs_roundedShift_sub_le (n shift : Nat) :
    2 * |((roundedShift n shift * 2 ^ shift : ℕ) : ℚ) - n| ≤ 2 ^ shift := by
  rw [abs_roundedShift_sub]
  rcases roundedShift_cases n shift with ⟨hquotient, hhalf⟩ | ⟨hquotient, hhalf⟩
  · rw [if_pos hquotient]
    exact_mod_cast hhalf
  · have hhalf : (2 : ℚ) ^ shift ≤ 2 * (n % 2 ^ shift : ℕ) := by exact_mod_cast hhalf
    rw [if_neg (by omega)]
    linarith

/-- A number rounded to as many significant bits as the format has. -/
def rounded (format : BinaryFormat) (n : Nat) : Nat :=
  let shift := bitLength n - format.precision
  roundedShift n shift * 2 ^ shift

section Rounded

variable {format : BinaryFormat} {n : Nat}

theorem rounded_eq_self_iff :
    format.rounded n = n ↔ 2 ^ (bitLength n - format.precision) ∣ n := by
  constructor
  · exact fun hself ↦ Dvd.intro_left _ hself
  · intro hdvd
    rw [rounded, roundedShift_of_dvd hdvd, Nat.div_mul_cancel hdvd]

theorem rounded_of_short (hshort : bitLength n ≤ format.precision) : format.rounded n = n := by
  rw [rounded_eq_self_iff, Nat.sub_eq_zero_of_le hshort, pow_zero]
  exact one_dvd n

/-- What is left after rounding has all bits of the precision, or is the next power of two. -/
theorem roundedShift_bounds (hregular : format.IsRegular) (hlong : format.precision < bitLength n) :
    2 ^ format.fractionBits ≤ roundedShift n (bitLength n - format.precision) ∧
      roundedShift n (bitLength n - format.precision) ≤ 2 ^ format.precision := by
  have hprecision := hregular.precision_eq
  have hlower : 2 ^ (bitLength n - 1) ≤ n := lt_bitLength_iff.mp (by omega)
  have hupper : n < 2 ^ bitLength n := bitLength_le_iff.mp le_rfl
  have hquotient : 2 ^ format.fractionBits ≤ n / 2 ^ (bitLength n - format.precision) := by
    rw [Nat.le_div_iff_mul_le (Nat.two_pow_pos _), ← pow_add]
    convert hlower using 2
    omega
  have hbelow : n / 2 ^ (bitLength n - format.precision) < 2 ^ format.precision := by
    rw [Nat.div_lt_iff_lt_mul (Nat.two_pow_pos _), ← pow_add]
    convert hupper using 2
    omega
  rcases roundedShift_cases n (bitLength n - format.precision) with ⟨hshift, -⟩ | ⟨hshift, -⟩
  · rw [hshift]
    exact ⟨hquotient, hbelow.le⟩
  · rw [hshift]
    exact ⟨Nat.le_succ_of_le hquotient, hbelow⟩

/-- A significand with all bits of the precision and a scale that together make up the number. -/
structure IsNormal (format : BinaryFormat) (significand : ℕ) (scale : ℤ) (value : ℕ) : Prop where
  lower : 2 ^ format.fractionBits ≤ significand
  upper : significand < 2 ^ format.precision
  scale_ge : -(format.fractionBits : ℤ) ≤ scale
  value_eq : (significand : ℚ) * 2 ^ scale = value

theorem isNormal_significand_of_short (hregular : format.IsRegular) (hpositive : n ≠ 0)
    (hshort : bitLength n ≤ format.precision) :
    format.IsNormal (n * twoPow (format.precision - bitLength n))
      ((bitLength n : ℤ) - format.precision) n := by
  have hprecision := hregular.precision_eq
  have hlength : 0 < bitLength n := lt_bitLength_iff.mpr (Nat.one_le_iff_ne_zero.mpr hpositive)
  have hlower : 2 ^ (bitLength n - 1) ≤ n := lt_bitLength_iff.mp (by omega)
  have hupper : n < 2 ^ bitLength n := bitLength_le_iff.mp le_rfl
  refine ⟨?_, ?_, by omega, ?_⟩
  · calc
      2 ^ format.fractionBits = 2 ^ (bitLength n - 1) * 2 ^ (format.precision - bitLength n) := by
        rw [← pow_add]
        congr 1
        omega
      _ ≤ n * twoPow (format.precision - bitLength n) := Nat.mul_le_mul_right _ hlower
  · calc
      n * twoPow (format.precision - bitLength n) <
          2 ^ bitLength n * 2 ^ (format.precision - bitLength n) :=
        Nat.mul_lt_mul_of_pos_right hupper (Nat.two_pow_pos _)
      _ = 2 ^ format.precision := by rw [← pow_add, Nat.add_sub_cancel' hshort]
  · have hscale : (bitLength n : ℤ) - format.precision =
        -((format.precision - bitLength n : ℕ) : ℤ) := by omega
    rw [twoPow_eq, hscale, zpow_neg, zpow_natCast, Nat.cast_mul, Nat.cast_pow, Nat.cast_ofNat,
      mul_inv_cancel_right₀ (by positivity)]

/-- The significand of a number is that of the rounded number. -/
theorem isNormal_significand (hregular : format.IsRegular) (hpositive : n ≠ 0) :
    format.IsNormal (format.significand n).1 (format.significand n).2 (format.rounded n) := by
  unfold significand
  dsimp only
  split
  · next hshort =>
    rw [rounded_of_short hshort]
    exact isNormal_significand_of_short hregular hpositive hshort
  · next hlong =>
    obtain ⟨hlower, hupper⟩ := roundedShift_bounds hregular (not_le.mp hlong)
    have hdouble : 2 ^ format.precision = 2 ^ format.fractionBits * 2 := by
      rw [hregular.precision_eq, pow_succ]
    have hpower : 0 < 2 ^ format.fractionBits := Nat.two_pow_pos _
    split
    · -- Rounding has carried into one bit more.
      next hcarry =>
      refine ⟨le_rfl, ?_, by omega, ?_⟩
      · rw [hdouble, twoPow_eq]
        omega
      · rw [rounded, hcarry, twoPow_eq, twoPow_eq, hdouble, ← Nat.cast_add_one, zpow_natCast]
        push_cast
        ring
    · next hcarry =>
      refine ⟨hlower, lt_of_le_of_ne hupper hcarry, by omega, ?_⟩
      rw [rounded, zpow_natCast]
      push_cast
      rfl

/-- The scale tells between which powers of two the number lies. -/
theorem IsNormal.lt_two_pow_iff (hregular : format.IsRegular) {significand value : ℕ} {scale : ℤ}
    (hnormal : format.IsNormal significand scale value) (bits : ℕ) :
    value < 2 ^ (bits + 1) ↔ scale + format.fractionBits ≤ bits := by
  have hscale : (0 : ℚ) < 2 ^ scale := by positivity
  have hlower : (2 : ℚ) ^ (scale + format.fractionBits) ≤ value := by
    rw [zpow_add₀ two_ne_zero, zpow_natCast, mul_comm, ← hnormal.value_eq]
    exact mul_le_mul_of_nonneg_right (by exact_mod_cast hnormal.lower) hscale.le
  have hupper : (value : ℚ) < 2 ^ (scale + format.fractionBits + 1) := by
    rw [add_assoc, zpow_add₀ two_ne_zero, mul_comm, ← hnormal.value_eq, ← Nat.cast_add_one,
      ← hregular.precision_eq, zpow_natCast]
    exact mul_lt_mul_of_pos_right (by exact_mod_cast hnormal.upper) hscale
  have hcast : value < 2 ^ (bits + 1) ↔ (value : ℚ) < 2 ^ ((bits : ℤ) + 1) := by
    rw [← Nat.cast_add_one, zpow_natCast]
    exact_mod_cast Iff.rfl
  rw [hcast]
  constructor
  · intro hvalue
    have hpowers := (zpow_lt_zpow_iff_right₀ one_lt_two).mp (lt_of_le_of_lt hlower hvalue)
    omega
  · intro hbits
    exact lt_of_lt_of_le hupper (zpow_le_zpow_right₀ one_le_two (by omega))

end Rounded

/-! ## The nearest pattern -/

section Nearest

variable {format : BinaryFormat} {n : ℤ}

theorem nearest_zero (format : BinaryFormat) : format.nearest 0 = 0 := rfl

theorem value?_zero (hregular : format.IsRegular) : format.value? 0 = some 0 := by
  have htop := hregular.topExponent_eq
  simp [value?_eq_some_iff, storedSignificand, exponentField, fractionField, withSign, htop]

/-- The fields of the nearest pattern. -/
theorem nearest_of_ne_zero (hregular : format.IsRegular) (hzero : n ≠ 0) :
    let (significand, scale) := format.significand n.natAbs
    format.nearest n =
      if scale + format.fractionBits ≤ format.bias then
        format.assemble (n < 0) (scale + format.fractionBits + format.bias).toNat
          (significand - 2 ^ format.fractionBits)
      else format.assemble (n < 0) format.topExponent 0 := by
  have hscale := (isNormal_significand hregular (Int.natAbs_ne_zero.mpr hzero)).scale_ge
  have htop := hregular.topExponent_eq
  rw [nearest, if_neg hzero]
  dsimp only
  split
  · rw [if_neg (by omega)]
  · rw [if_pos (by omega), twoPow_eq]

/-- The nearest pattern denotes the rounded integer, or it is infinite. -/
theorem value?_nearest (hregular : format.IsRegular) (n : ℤ) :
    format.value? (format.nearest n) =
      if format.rounded n.natAbs < 2 ^ (format.bias + 1) then
        some (withSign (n < 0) (format.rounded n.natAbs : ℚ))
      else none := by
  by_cases hzero : n = 0
  · subst hzero
    have hrounded : format.rounded (0 : ℤ).natAbs = 0 := rounded_of_short (Nat.zero_le _)
    rw [nearest_zero, value?_zero hregular, hrounded, if_pos (Nat.two_pow_pos _)]
    rfl
  · have hnearest := nearest_of_ne_zero hregular hzero
    have hnormal := isNormal_significand hregular (Int.natAbs_ne_zero.mpr hzero)
    generalize format.significand n.natAbs = parts at hnearest hnormal
    obtain ⟨significand, scale⟩ := parts
    have htop := hregular.topExponent_eq
    have hbias := hregular.bias_pos
    have hscale := hnormal.scale_ge
    have hlower := hnormal.lower
    have hupper := hnormal.upper
    simp only [hnearest, hnormal.lt_two_pow_iff hregular format.bias]
    split
    · next hfinite =>
      rw [hregular.precision_eq, pow_succ] at hupper
      have hexponent : (((scale + format.fractionBits + format.bias).toNat : ℕ) : ℤ) -
          (format.bias + format.fractionBits : ℕ) = scale := by omega
      rw [value?_assemble (by omega) (by omega) (by omega), hexponent,
        Nat.add_sub_cancel' hlower, hnormal.value_eq]
    · exact value?_infinity format _

end Nearest

end BinaryFormat

end GuestCore.Integer
