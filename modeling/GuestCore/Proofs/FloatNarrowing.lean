import GuestCore.Integer.Narrowing
import GuestCore.Proofs.Rounding

/-!
# Floating-Point Narrowing Is Exact

An integer is converted to the nearest pattern: no other pattern denotes a number closer to it, of
two equally close ones the even one is taken, and from halfway past the largest finite number on it
is an infinity.  Narrowing accepts the conversion exactly if it is exact, that is for the integers
with as few significant bits as the format has, up to a scale.  The test that is skipped for short
integers would have succeeded.
-/

namespace GuestCore.Integer

namespace BinaryFormat

/-! ## Rounding is correct -/

section Rounded

variable {format : BinaryFormat} {n : Nat}

/-- Halfway between two numbers the even one is taken. -/
theorem even_roundedShift_of_tie {n shift : Nat}
    (htie : 2 * |((roundedShift n shift * 2 ^ shift : ℕ) : ℚ) - n| = 2 ^ shift) :
    roundedShift n shift % 2 = 0 := by
  have hhalf : 2 * (n % 2 ^ shift) = 2 ^ shift := by
    rw [abs_roundedShift_sub] at htie
    split at htie
    · exact_mod_cast htie
    · have hhalf : 2 * ((n % 2 ^ shift : ℕ) : ℚ) = 2 ^ shift := by linarith
      exact_mod_cast hhalf
  rw [roundedShift_eq, if_neg (Nat.not_lt_of_le hhalf.ge), if_neg (Nat.not_lt_of_le hhalf.le)]
  split <;> omega

variable {significand : ℕ} {scale : ℤ}

/-- A number with a short significand, which is at least as large as the power of two below `n`, has
no bits below those that rounding keeps. -/
theorem exists_multiple (hlong : format.precision ≤ bitLength n)
    (hshort : significand < 2 ^ format.precision)
    (hlarge : (2 : ℚ) ^ (bitLength n - 1) ≤ significand * 2 ^ scale) :
    ∃ multiple : ℕ, (significand : ℚ) * 2 ^ scale =
      multiple * 2 ^ (bitLength n - format.precision) := by
  have hbound : (significand : ℚ) * 2 ^ scale < 2 ^ (format.precision + scale) := by
    rw [zpow_add₀ two_ne_zero, zpow_natCast]
    exact mul_lt_mul_of_pos_right (by exact_mod_cast hshort) (by positivity)
  have hscale : ((bitLength n - 1 : ℕ) : ℤ) < format.precision + scale := by
    rw [← zpow_natCast] at hlarge
    exact (zpow_lt_zpow_iff_right₀ one_lt_two).mp (lt_of_le_of_lt hlarge hbound)
  refine ⟨significand * 2 ^ (scale - (bitLength n - format.precision : ℕ)).toNat, ?_⟩
  rw [Nat.cast_mul, Nat.cast_pow, Nat.cast_ofNat, mul_assoc, ← pow_add, ← zpow_natCast]
  congr 2
  omega

/-- Of two multiples of a power of two, one that is off by at most one half is at least as close,
and both are off by one half if they are equally close. -/
theorem eq_or_tie_of_multiples {first second : ℕ} {step target : ℚ}
    (hhalf : 2 * |first * step - target| ≤ step)
    (hcloser : |second * step - target| ≤ |first * step - target|) :
    second = first ∨ 2 * |first * step - target| = step ∧
      |second * step - target| = |first * step - target| := by
  by_cases hsame : second = first
  · exact .inl hsame
  · have hapart : (1 : ℚ) ≤ |(first : ℚ) - second| := by
      have hne : (first : ℤ) - second ≠ 0 := sub_ne_zero.mpr (by exact_mod_cast Ne.symm hsame)
      exact_mod_cast Int.one_le_abs hne
    have hstep : 0 ≤ step := le_trans (by positivity) hhalf
    have hbetween : step ≤ |first * step - target| + |second * step - target| := calc
      step ≤ |(first : ℚ) - second| * step := le_mul_of_one_le_left hstep hapart
      _ = |(first : ℚ) * step - second * step| := by
        rw [← sub_mul, abs_mul, abs_of_nonneg hstep]
      _ ≤ |first * step - target| + |target - second * step| := abs_sub_le _ _ _
      _ = |first * step - target| + |second * step - target| := by
        rw [abs_sub_comm target]
    exact .inr ⟨by linarith, by linarith⟩

/-- No number with a short significand is closer than the rounded one, and another one is equally
close only if rounding was off by one half. -/
theorem eq_rounded_or_tie (hregular : format.IsRegular)
    (hshort : significand < 2 ^ format.precision)
    (hcloser : |(significand : ℚ) * 2 ^ scale - n| ≤ |(format.rounded n : ℚ) - n|) :
    (significand : ℚ) * 2 ^ scale = format.rounded n ∨
      2 * |(format.rounded n : ℚ) - n| = 2 ^ (bitLength n - format.precision) ∧
        |(significand : ℚ) * 2 ^ scale - n| = |(format.rounded n : ℚ) - n| := by
  by_cases hbits : bitLength n ≤ format.precision
  · rw [rounded_of_short hbits, sub_self, abs_zero] at hcloser
    rw [rounded_of_short hbits]
    exact .inl (sub_eq_zero.mp (abs_nonpos_iff.mp hcloser))
  · have hhalf := two_mul_abs_roundedShift_sub_le n (bitLength n - format.precision)
    have hprecision := hregular.precision_eq
    rw [rounded] at hcloser ⊢
    rw [Nat.cast_mul, Nat.cast_pow, Nat.cast_ofNat] at hhalf hcloser ⊢
    by_cases hlarge : (2 : ℚ) ^ (bitLength n - 1) ≤ significand * 2 ^ scale
    · obtain ⟨multiple, hmultiple⟩ := exists_multiple (not_le.mp hbits).le hshort hlarge
      rw [hmultiple] at hcloser ⊢
      refine (eq_or_tie_of_multiples hhalf hcloser).imp_left fun hsame ↦ ?_
      rw [hsame]
    · -- The power of two below `n` is a multiple, and closer.
      have hlower : (2 : ℚ) ^ (bitLength n - 1) ≤ n := by
        exact_mod_cast lt_bitLength_iff.mp (by omega)
      have hpower : (2 : ℚ) ^ (bitLength n - 1) =
          (2 ^ format.fractionBits : ℕ) * 2 ^ (bitLength n - format.precision) := by
        rw [Nat.cast_pow, Nat.cast_ofNat, ← pow_add]
        congr 1
        omega
      have hclosest : |(roundedShift n (bitLength n - format.precision) : ℚ) *
          2 ^ (bitLength n - format.precision) - n| ≤ |(2 : ℚ) ^ (bitLength n - 1) - n| := by
        rw [hpower]
        refine not_lt.mp fun hnearer ↦ ?_
        rcases eq_or_tie_of_multiples hhalf hnearer.le with hsame | ⟨-, hequal⟩
        · rw [hsame] at hnearer
          exact lt_irrefl _ hnearer
        · exact hnearer.ne hequal
      have hbelow {value : ℚ} (hvalue : value ≤ n) : |value - n| = n - value := by
        rw [abs_sub_comm, abs_of_nonneg (sub_nonneg.mpr hvalue)]
      rw [hbelow hlower] at hclosest
      rw [hbelow (by linarith)] at hcloser
      linarith

/-- The least number that is rounded to an infinity: halfway between the largest finite number and
the power of two that would follow. -/
def overflowBound (format : BinaryFormat) : ℕ :=
  2 ^ (format.bias + 1) - 2 ^ (format.bias - format.precision)

theorem rounded_lt_of_lt_overflowBound (hregular : format.IsRegular)
    (hbelow : n < format.overflowBound) : format.rounded n < 2 ^ (format.bias + 1) := by
  have hbias := hregular.precision_le_bias
  have hlength : bitLength n ≤ format.bias + 1 :=
    bitLength_le_iff.mpr (lt_of_lt_of_le hbelow (Nat.sub_le _ _))
  have hsum : (n : ℚ) + 2 ^ (format.bias - format.precision) < 2 ^ (format.bias + 1) := by
    rw [overflowBound] at hbelow
    exact_mod_cast (by omega : n + 2 ^ (format.bias - format.precision) < 2 ^ (format.bias + 1))
  have hstep : (2 : ℚ) ^ (bitLength n - format.precision) ≤
      2 * 2 ^ (format.bias - format.precision) := by
    rw [← pow_succ']
    exact pow_le_pow_right₀ one_le_two (by omega)
  have hhalf : 2 * |(format.rounded n : ℚ) - n| ≤ 2 ^ (bitLength n - format.precision) :=
    two_mul_abs_roundedShift_sub_le n _
  have hoff := le_abs_self ((format.rounded n : ℚ) - n)
  have hrounded : (format.rounded n : ℚ) < 2 ^ (format.bias + 1) := by linarith
  exact_mod_cast hrounded

/-- A number at most half a step below a multiple of the step has the multiple before as its
quotient, and a remainder of at least one half. -/
theorem div_mod_of_half_below {n multiple step half : ℕ} (hstep : step = 2 * half)
    (hlower : (multiple + 1) * step - half ≤ n) (hupper : n < (multiple + 1) * step) :
    n / step = multiple ∧ half ≤ n % step := by
  have hquotient : n / step = multiple := by
    refine Nat.div_eq_of_lt_le ?_ hupper
    rw [Nat.add_one_mul] at hlower
    omega
  have hdivision := Nat.div_add_mod n step
  rw [hquotient, Nat.mul_comm] at hdivision
  rw [Nat.add_one_mul] at hlower
  exact ⟨hquotient, by omega⟩

/-- A number between the bound and the power of two has all bits of the precision set, so that
rounding carries. -/
theorem roundedShift_of_overflowBound_le (hregular : format.IsRegular)
    (hlower : format.overflowBound ≤ n) (hupper : n < 2 ^ (format.bias + 1)) :
    roundedShift n (format.bias + 1 - format.precision) = 2 ^ format.precision := by
  have hprecision := hregular.precision_eq
  have hbias := hregular.precision_le_bias
  have hstep : 2 ^ (format.bias + 1 - format.precision) =
      2 * 2 ^ (format.bias - format.precision) := by
    rw [← pow_succ']
    congr 1
    omega
  have hlimit : 2 ^ format.precision - 1 + 1 = 2 ^ format.precision :=
    Nat.sub_add_cancel Nat.one_le_two_pow
  have hproduct : 2 ^ (format.bias + 1) =
      (2 ^ format.precision - 1 + 1) * 2 ^ (format.bias + 1 - format.precision) := by
    rw [hlimit, ← pow_add, Nat.add_sub_cancel' (by omega)]
  -- The quotient is odd, so that a half goes up as well.
  have hodd : ¬ (2 ^ format.precision - 1) % 2 = 0 := by
    rw [hprecision, pow_succ']
    have hpositive : 0 < 2 ^ format.fractionBits := Nat.two_pow_pos _
    omega
  rw [overflowBound, hproduct] at hlower
  rw [hproduct] at hupper
  obtain ⟨hquotient, hremainder⟩ := div_mod_of_half_below hstep hlower hupper
  rw [roundedShift_eq, hquotient, if_neg (by omega), if_neg hodd, ite_self, hlimit]

theorem two_pow_le_rounded_iff (hregular : format.IsRegular) :
    2 ^ (format.bias + 1) ≤ format.rounded n ↔ format.overflowBound ≤ n := by
  have hprecision := hregular.precision_eq
  have hbias := hregular.precision_le_bias
  refine ⟨fun hrounded ↦ not_lt.mp fun hbelow ↦
    not_lt.mpr hrounded (rounded_lt_of_lt_overflowBound hregular hbelow), fun hlower ↦ ?_⟩
  by_cases hupper : n < 2 ^ (format.bias + 1)
  · have hlength : bitLength n = format.bias + 1 := by
      have hmono : 2 ^ (format.bias - format.precision) ≤ 2 ^ format.bias :=
        Nat.pow_le_pow_right Nat.two_pos (Nat.sub_le _ _)
      rw [overflowBound, pow_succ] at hlower
      exact le_antisymm (bitLength_le_iff.mpr hupper) (lt_bitLength_iff.mpr (by omega))
    rw [rounded, hlength, roundedShift_of_overflowBound_le hregular hlower hupper, ← pow_add,
      Nat.add_sub_cancel' (by omega)]
  · have hlong : format.bias + 1 < bitLength n := lt_bitLength_iff.mpr (not_lt.mp hupper)
    calc
      2 ^ (format.bias + 1) ≤
          2 ^ (format.fractionBits + (bitLength n - format.precision)) :=
        Nat.pow_le_pow_right Nat.two_pos (by omega)
      _ ≤ format.rounded n := by
        rw [pow_add]
        exact Nat.mul_le_mul_right _ (roundedShift_bounds hregular (by omega)).1

end Rounded

/-! ## The nearest pattern is correctly rounded -/

/-- The pattern is the integer rounded to nearest, ties to even, with overflow to infinity. -/
structure RoundsTo (format : BinaryFormat) (n : ℤ) (pattern : ℕ) : Prop where
  nearest : ∀ value, format.value? pattern = some value →
    ∀ other otherValue, format.value? other = some otherValue →
      |value - n| ≤ |otherValue - n|
  /-- If another number is equally close, the last bit is zero. -/
  even : ∀ value, format.value? pattern = some value →
    ∀ other otherValue, format.value? other = some otherValue → otherValue ≠ value →
      |otherValue - n| = |value - n| → pattern % 2 = 0
  overflow : format.value? pattern = none ↔ format.overflowBound ≤ n.natAbs
  infinite : format.value? pattern = none →
    pattern = format.assemble (n < 0) format.topExponent 0

section Nearest

variable {format : BinaryFormat} {n : ℤ}

theorem abs_withSign_sub (magnitude : ℚ) (n : ℤ) :
    |withSign (n < 0) magnitude - n| = |magnitude - n.natAbs| := by
  rw [Nat.cast_natAbs, Int.cast_abs]
  by_cases hnegative : n < 0
  · have hcast : (n : ℚ) < 0 := by exact_mod_cast hnegative
    rw [withSign, if_pos (decide_eq_true hnegative), abs_of_neg hcast, ← abs_neg]
    congr 1
    ring
  · have hcast : (0 : ℚ) ≤ n := by exact_mod_cast not_lt.mp hnegative
    rw [withSign, if_neg (by simpa using hnegative), abs_of_nonneg hcast]

/-- Opposite numbers are equally close only to zero. -/
theorem eq_of_same_magnitude {value : ℚ} {magnitude : ℕ} (hzero : n = 0 → magnitude = 0)
    (hmagnitude : |value| = magnitude)
    (hequal : |value - n| = |withSign (n < 0) (magnitude : ℚ) - n|) :
    value = withSign (n < 0) (magnitude : ℚ) := by
  have habs : |withSign (n < 0) (magnitude : ℚ)| = magnitude := by
    rw [abs_withSign, Nat.abs_cast]
  rcases abs_eq_abs.mp (hmagnitude.trans habs.symm) with hsame | hopposite
  · exact hsame
  · rcases abs_eq_abs.mp hequal with hequal | hequal
    · exact sub_left_injective hequal
    · have hn : n = 0 := by
        have hcast : (n : ℚ) = 0 := by linarith
        exact_mod_cast hcast
      rw [hzero hn, Nat.cast_zero, abs_eq_zero] at habs hmagnitude
      rw [hzero hn, Nat.cast_zero, habs, hmagnitude]

theorem value_of_nearest (hregular : format.IsRegular) {value : ℚ}
    (hvalue : format.value? (format.nearest n) = some value) :
    value = withSign (n < 0) (format.rounded n.natAbs : ℚ) := by
  rw [value?_nearest hregular, Option.ite_none_right_eq_some] at hvalue
  exact (Option.some.inj hvalue.2).symm

/-- What a pattern denotes is no closer to the integer than its magnitude is to that of the
integer. -/
theorem abs_stored_sub_le {pattern : ℕ} {value : ℚ}
    (hvalue : format.value? pattern = some value) (n : ℤ) :
    |value| = format.storedSignificand pattern * 2 ^ format.storedScale pattern ∧
      |(format.storedSignificand pattern : ℚ) * 2 ^ format.storedScale pattern - n.natAbs| ≤
        |value - n| := by
  have habs : |value| = format.storedSignificand pattern * 2 ^ format.storedScale pattern := by
    rw [← abs_withSign (format.signField pattern), ← (value?_eq_some_iff.mp hvalue).2,
      abs_of_nonneg (by positivity)]
  refine ⟨habs, ?_⟩
  rw [← habs, Nat.cast_natAbs, Int.cast_abs]
  exact abs_abs_sub_abs_le value n

theorem IsRegular.two_dvd (hregular : format.IsRegular) : 2 ∣ 2 ^ format.fractionBits := by
  have hlong := hregular.one_lt_precision
  have hprecision := hregular.precision_eq
  exact dvd_pow_self 2 (by omega)

/-- The last bit of a pattern is that of its fraction. -/
theorem assemble_mod_two (hregular : format.IsRegular) (negative : Bool) (exponent fraction : ℕ) :
    format.assemble negative exponent fraction % 2 = fraction % 2 := by
  rw [assemble, twoPow_eq, twoPow_eq, Nat.add_mod,
    Nat.mod_eq_zero_of_dvd (hregular.two_dvd.mul_left _), Nat.zero_add, Nat.mod_mod]

/-- If rounding leaves an even number, the last bit of the nearest pattern is zero. -/
theorem nearest_mod_two (hregular : format.IsRegular)
    (hlong : format.precision < bitLength n.natAbs)
    (heven : roundedShift n.natAbs (bitLength n.natAbs - format.precision) % 2 = 0) :
    format.nearest n % 2 = 0 := by
  have hzero : n ≠ 0 := by
    rintro rfl
    cases hlong
  have hnearest := nearest_of_ne_zero hregular hzero
  have hfraction : 2 ^ format.fractionBits % 2 = 0 := Nat.mod_eq_zero_of_dvd hregular.two_dvd
  have hsignificand : (format.significand n.natAbs).1 % 2 = 0 := by
    unfold significand
    dsimp only
    rw [if_neg (not_le.mpr hlong)]
    split
    · exact hfraction
    · exact heven
  dsimp only at hnearest
  rw [hnearest]
  split
  · rw [assemble_mod_two hregular]
    omega
  · rw [assemble_mod_two hregular]

theorem roundsTo_nearest (hregular : format.IsRegular) (n : ℤ) :
    format.RoundsTo n (format.nearest n) where
  nearest := by
    intro value hvalue other otherValue hother
    obtain rfl := value_of_nearest hregular hvalue
    obtain ⟨-, hcloser⟩ := abs_stored_sub_le hother n
    rw [abs_withSign_sub]
    refine le_trans (not_lt.mp fun hnearer ↦ ?_) hcloser
    rcases eq_rounded_or_tie hregular (storedSignificand_lt hregular other) hnearer.le with
      hsame | ⟨-, hequal⟩
    · rw [hsame] at hnearer
      exact lt_irrefl _ hnearer
    · exact hnearer.ne hequal
  even := by
    intro value hvalue other otherValue hother hne hequal
    obtain rfl := value_of_nearest hregular hvalue
    obtain ⟨habs, hcloser⟩ := abs_stored_sub_le hother n
    rw [hequal, abs_withSign_sub] at hcloser
    rcases eq_rounded_or_tie hregular (storedSignificand_lt hregular other) hcloser with
      hsame | ⟨htie, -⟩
    · rw [← habs] at hsame
      refine absurd (eq_of_same_magnitude ?_ hsame hequal) hne
      rintro rfl
      exact rounded_of_short (Nat.zero_le _)
    · refine nearest_mod_two hregular (not_le.mp fun hshort ↦ ?_) (even_roundedShift_of_tie htie)
      rw [rounded_of_short hshort, sub_self, abs_zero, mul_zero] at htie
      exact absurd htie.symm (by positivity)
  overflow := by
    rw [value?_nearest hregular, ite_eq_right_iff, ← two_pow_le_rounded_iff hregular]
    simp
  infinite := by
    intro hnone
    have hzero : n ≠ 0 := by
      rintro rfl
      rw [nearest_zero, value?_zero hregular] at hnone
      cases hnone
    have hnormal := isNormal_significand hregular (Int.natAbs_ne_zero.mpr hzero)
    rw [value?_nearest hregular, ite_eq_right_iff, hnormal.lt_two_pow_iff hregular] at hnone
    rw [nearest_of_ne_zero hregular hzero, if_neg]
    intro hfinite
    cases hnone hfinite

end Nearest

end BinaryFormat

/-! ## What is accepted -/

/-- A number of at most so many bits, times a power of two up to a scale, with either sign. -/
def IsScaled (bits maxScale : ℕ) (n : ℤ) : Prop :=
  ∃ (sign : ℤ) (significand scale : ℕ), (sign = 1 ∨ sign = -1) ∧
    significand < 2 ^ bits ∧ scale ≤ maxScale ∧ n = sign * significand * 2 ^ scale

namespace BinaryFormat

variable {format : BinaryFormat} {n : ℤ}

/-- The nearest pattern, if it reads back to the integer. -/
def readBack? (format : BinaryFormat) (n : ℤ) : Option ℕ :=
  if format.toInt? (format.nearest n) = some n then some (format.nearest n) else none

theorem isScaled_iff (hregular : format.IsRegular) :
    IsScaled format.precision (format.bias - format.fractionBits) n ↔
      format.rounded n.natAbs = n.natAbs ∧ n.natAbs < 2 ^ (format.bias + 1) := by
  have hprecision := hregular.precision_eq
  have hbias := hregular.precision_le_bias
  rw [rounded_eq_self_iff]
  constructor
  · rintro ⟨sign, significand, scale, hsign, hshort, hscale, rfl⟩
    have habs : (sign * significand * 2 ^ scale).natAbs = significand * 2 ^ scale := by
      rcases hsign with rfl | rfl <;> simp [Int.natAbs_mul, Int.natAbs_pow]
    have hbound : significand * 2 ^ scale < 2 ^ (format.precision + scale) := by
      rw [pow_add]
      exact Nat.mul_lt_mul_of_pos_right hshort (Nat.two_pow_pos _)
    have hlength : bitLength (significand * 2 ^ scale) ≤ format.precision + scale :=
      bitLength_le_iff.mpr hbound
    rw [habs]
    refine ⟨?_, ?_⟩
    · exact Dvd.dvd.mul_left (Nat.pow_dvd_pow 2 (by omega)) significand
    · exact lt_of_lt_of_le hbound (Nat.pow_le_pow_right Nat.two_pos (by omega))
  · rintro ⟨hdvd, hbound⟩
    have hlength : bitLength n.natAbs ≤ format.bias + 1 := bitLength_le_iff.mpr hbound
    refine ⟨if n < 0 then -1 else 1, n.natAbs / 2 ^ (bitLength n.natAbs - format.precision),
      bitLength n.natAbs - format.precision, ?_, ?_, by omega, ?_⟩
    · split <;> simp
    · rw [Nat.div_lt_iff_lt_mul (Nat.two_pow_pos _), ← pow_add, ← bitLength_le_iff]
      omega
    · have habs : ((n.natAbs / 2 ^ (bitLength n.natAbs - format.precision) : ℕ) : ℤ) *
          2 ^ (bitLength n.natAbs - format.precision) = n.natAbs := by
        exact_mod_cast Nat.div_mul_cancel hdvd
      rw [mul_assoc, habs]
      split <;> omega

theorem value?_nearest_eq_iff (hregular : format.IsRegular) :
    format.value? (format.nearest n) = some (n : ℚ) ↔
      IsScaled format.precision (format.bias - format.fractionBits) n := by
  have hself : withSign (n < 0) (n.natAbs : ℚ) = n := by
    have hdistance := abs_withSign_sub n.natAbs n
    rw [sub_self, abs_zero, abs_eq_zero] at hdistance
    exact sub_eq_zero.mp hdistance
  rw [isScaled_iff hregular]
  rw [value?_nearest hregular, Option.ite_none_right_eq_some, Option.some_inj, withSign_eq_iff,
    ← withSign_eq_iff.mp hself, Nat.cast_inj]
  constructor
  · rintro ⟨hbound, hrounded⟩
    exact ⟨hrounded, hrounded ▸ hbound⟩
  · rintro ⟨hrounded, hbound⟩
    exact ⟨hrounded.symm ▸ hbound, hrounded⟩

theorem toInt?_eq_none {pattern : ℕ} (hnone : format.value? pattern = none) :
    format.toInt? pattern = none := by
  rw [value?, ite_eq_right_iff] at hnone
  have hinfinite : ¬ format.exponentField pattern < format.topExponent :=
    fun hfinite ↦ Option.some_ne_none _ (hnone hfinite)
  rw [toInt?, isFinite, if_neg (by simpa using hinfinite)]

/-- The nearest pattern reads back to the integer exactly if it denotes the integer. -/
theorem toInt?_nearest_eq_iff (hregular : format.IsRegular) :
    format.toInt? (format.nearest n) = some n ↔
      format.value? (format.nearest n) = some (n : ℚ) := by
  refine ⟨fun hread ↦ ?_, toInt?_of_value? hregular⟩
  cases hvalue : format.value? (format.nearest n) with
  | none =>
    rw [toInt?_eq_none hvalue] at hread
    cases hread
  | some value =>
    obtain rfl := value_of_nearest hregular hvalue
    rw [← Int.cast_natCast, ← intCast_withSign] at hvalue ⊢
    rw [toInt?_of_value? hregular hvalue] at hread
    rw [Option.some.inj hread]

/-- Exactly the integers of few significant bits read back. -/
theorem readBack?_eq (hregular : format.IsRegular) (n : ℤ) :
    (IsScaled format.precision (format.bias - format.fractionBits) n ∧
      format.readBack? n = some (format.nearest n)) ∨
    (¬ IsScaled format.precision (format.bias - format.fractionBits) n ∧
      format.readBack? n = none) := by
  rw [readBack?, ← value?_nearest_eq_iff hregular, ← toInt?_nearest_eq_iff hregular]
  split
  · next hread => exact .inl ⟨hread, rfl⟩
  · next hread => exact .inr ⟨hread, rfl⟩

theorem isScaled_of_short (hregular : format.IsRegular)
    (hshort : bitLength n.natAbs ≤ format.precision) :
    IsScaled format.precision (format.bias - format.fractionBits) n := by
  rw [isScaled_iff hregular, ← bitLength_le_iff]
  exact ⟨rounded_of_short hshort, le_trans hshort (Nat.le_succ_of_le hregular.precision_le_bias)⟩

/-- Where the test is skipped it would succeed. -/
theorem ofInt?_eq_readBack? (hregular : format.IsRegular) (n : ℤ) :
    format.ofInt? n = format.readBack? n := by
  unfold ofInt?
  dsimp only
  split
  · next hshort =>
    rcases readBack?_eq hregular n with ⟨-, hread⟩ | ⟨hnot, -⟩
    · exact hread.symm
    · exact absurd (isScaled_of_short hregular hshort) hnot
  · rfl

/-- A pattern has as many bits as its fields. -/
theorem nearest_lt (hregular : format.IsRegular) (n : ℤ) :
    format.nearest n < 2 ^ (1 + format.exponentBits + format.fractionBits) := by
  by_cases hzero : n = 0
  · rw [hzero, nearest_zero]
    exact Nat.two_pow_pos _
  · have hnormal := isNormal_significand hregular (Int.natAbs_ne_zero.mpr hzero)
    have hnearest := nearest_of_ne_zero hregular hzero
    have hlower := hnormal.lower
    have hupper := hnormal.upper
    have htop : format.topExponent < 2 ^ format.exponentBits :=
      Nat.sub_lt (Nat.two_pow_pos _) Nat.one_pos
    have hbias := hregular.topExponent_eq
    rw [hregular.precision_eq, pow_succ] at hupper
    dsimp only at hnearest
    rw [hnearest]
    split
    · exact assemble_lt (by omega) (by omega) _
    · exact assemble_lt htop (Nat.two_pow_pos _) _

end BinaryFormat

/-! ## Narrowing -/

/-- Narrowing of an integer to a floating-point format of the given width: which integers are
accepted, what the pattern that is returned denotes, and that the nearest pattern decides. -/
structure NarrowsExactly (format : BinaryFormat) (target : Target) (wrap : ℕ → Narrowed)
    (width bits maxScale : ℕ) (n : ℤ) : Prop where
  accepts_iff : (∃ narrowed, narrow target n = .ok narrowed) ↔ IsScaled bits maxScale n
  /-- The pattern denotes a finite number, which is the integer; that of zero has no sign bit. -/
  denotes : ∀ narrowed, narrow target n = .ok narrowed →
    ∃ pattern < 2 ^ width, narrowed = wrap pattern ∧ format.value? pattern = some (n : ℚ) ∧
      (n = 0 → pattern = 0)
  refuses : ¬ IsScaled bits maxScale n →
    narrow target n = .error (.unsupportedConversion target.name)
  /-- The test that is skipped for short integers decides the same for all. -/
  reads_back : narrow? target n = (format.readBack? n).map wrap
  rounds : format.RoundsTo n (format.nearest n)

theorem narrowsExactly {format : BinaryFormat} {target : Target} {wrap : ℕ → Narrowed}
    (hregular : format.IsRegular) (n : ℤ)
    (htarget : narrow? target n = (format.ofInt? n).map wrap) :
    NarrowsExactly format target wrap (1 + format.exponentBits + format.fractionBits)
      format.precision (format.bias - format.fractionBits) n := by
  rw [BinaryFormat.ofInt?_eq_readBack? hregular] at htarget
  rcases BinaryFormat.readBack?_eq hregular n with ⟨hscaled, hread⟩ | ⟨hscaled, hread⟩
  · have hnarrow : narrow target n = .ok (wrap (format.nearest n)) := by
      rw [narrow, htarget, hread, Option.map_some]
    refine ⟨⟨fun _ ↦ hscaled, fun _ ↦ ⟨_, hnarrow⟩⟩, ?_, absurd hscaled, htarget,
      BinaryFormat.roundsTo_nearest hregular n⟩
    intro narrowed hnarrowed
    rw [hnarrow] at hnarrowed
    refine ⟨format.nearest n, BinaryFormat.nearest_lt hregular n, (Except.ok.inj hnarrowed).symm,
      (BinaryFormat.value?_nearest_eq_iff hregular).mpr hscaled, ?_⟩
    rintro rfl
    exact BinaryFormat.nearest_zero format
  · have hnarrow : narrow target n = .error (.unsupportedConversion target.name) := by
      rw [narrow, htarget, hread, Option.map_none]
    have hfails : ∀ narrowed, narrow target n ≠ .ok narrowed := by
      intro narrowed hnarrowed
      rw [hnarrow] at hnarrowed
      cases hnarrowed
    refine ⟨⟨fun ⟨narrowed, hnarrowed⟩ ↦ absurd hnarrowed (hfails narrowed),
      fun hscaled' ↦ absurd hscaled' hscaled⟩, ?_, fun _ ↦ hnarrow, htarget,
      BinaryFormat.roundsTo_nearest hregular n⟩
    exact fun narrowed hnarrowed ↦ absurd hnarrowed (hfails narrowed)

/-- Every integer is narrowed to the two floating-point formats exactly or not at all. -/
theorem float_narrowing_exact (n : ℤ) :
    NarrowsExactly .single .float .single 32 24 104 n ∧
      NarrowsExactly .double .double .double 64 53 971 n :=
  ⟨narrowsExactly BinaryFormat.isRegular_single n rfl,
    narrowsExactly BinaryFormat.isRegular_double n rfl⟩

/-- The largest finite number is accepted, its successor by half a step and more is not; the first
integer with one significant bit more is not either. -/
example : narrow? .float (2 ^ 128 - 2 ^ 104) = some (.single 0x7f7fffff) ∧
    narrow? .float (2 ^ 128 - 2 ^ 103) = none ∧ narrow? .float (2 ^ 24 + 1) = none := by
  decide +kernel

end GuestCore.Integer
