import GuestCore.Proofs.FloatNarrowing
import GuestCore.Receiver.Messages

/-!
# Receivers Are Narrowed to the Integer They Stand For

A receiver is narrowed in two steps: which integer it stands for, and whether the target holds that
integer.  The first step is the only one that looks at the receiver, so a foreign value may give
answers that contradict each other and is still narrowed exactly or refused.  The targets are nested
as their ranges are: an integer format lies in every wider one, and in a floating-point format whose
precision is larger than its width; single precision lies in double precision.
-/

namespace GuestCore

namespace Integer

/-! ## What a target holds -/

/-- The integers that a signed word of the given width holds. -/
def InSignedWidth (width : ℕ) (n : ℤ) : Prop :=
  -2 ^ (width - 1) ≤ n ∧ n < 2 ^ (width - 1)

namespace Target

/-- The width of an integral target. -/
def width? : Target → Option ℕ
  | byte => some 8
  | short => some 16
  | int => some 32
  | long => some 64
  | float | double => none

def Holds : Target → ℤ → Prop
  | byte => InSignedWidth 8
  | short => InSignedWidth 16
  | int => InSignedWidth 32
  | long => InSignedWidth 64
  | float => IsScaled 24 104
  | double => IsScaled 53 971

/-- A word of the target's width that denotes the integer. -/
inductive Denotes : Target → Narrowed → ℤ → Prop
  | word {target : Target} {width : ℕ} {n : ℤ} (hwidth : target.width? = some width)
      (hrange : InSignedWidth width n) : Denotes target (.integral n) n
  | single {pattern : ℕ} {n : ℤ} (hwidth : pattern < 2 ^ 32)
      (hvalue : BinaryFormat.single.value? pattern = some (n : ℚ)) :
      Denotes float (.single pattern) n
  | double {pattern : ℕ} {n : ℤ} (hwidth : pattern < 2 ^ 64)
      (hvalue : BinaryFormat.double.value? pattern = some (n : ℚ)) :
      Denotes double (.double pattern) n

/-- The next wider targets of each target. -/
inductive Within : Target → Target → Prop
  | byte_short : Within byte short
  | short_int : Within short int
  | int_long : Within int long
  | short_float : Within short float
  | int_double : Within int double
  | float_double : Within float double

end Target

section Nesting

variable {n : ℤ}

theorem InSignedWidth.mono {width wider : ℕ} (hn : InSignedWidth width n) (hwider : width ≤ wider) :
    InSignedWidth wider n := by
  have hbound : (2 : ℤ) ^ (width - 1) ≤ 2 ^ (wider - 1) :=
    pow_le_pow_right₀ one_le_two (Nat.sub_le_sub_right hwider 1)
  exact ⟨le_trans (neg_le_neg hbound) hn.1, lt_of_lt_of_le hn.2 hbound⟩

/-- The smallest number of a width has one bit more than the others, so the precision must be at
least the width. -/
theorem InSignedWidth.natAbs_lt {width bits : ℕ} (hn : InSignedWidth width n)
    (hpositive : 0 < width) (hbits : width ≤ bits) : n.natAbs < 2 ^ bits := by
  have habs : n.natAbs ≤ 2 ^ (width - 1) := by
    zify
    exact abs_le.mpr ⟨hn.1, hn.2.le⟩
  exact lt_of_le_of_lt habs (Nat.pow_lt_pow_right Nat.one_lt_two (by omega))

theorem InSignedWidth.isScaled {width bits maxScale : ℕ} (hn : InSignedWidth width n)
    (hpositive : 0 < width) (hbits : width ≤ bits) : IsScaled bits maxScale n := by
  refine ⟨if n < 0 then -1 else 1, n.natAbs, 0, ?_, hn.natAbs_lt hpositive hbits,
    Nat.zero_le _, ?_⟩
  · split <;> simp
  · split <;> omega

theorem IsScaled.mono {bits moreBits maxScale largerScale : ℕ} (hn : IsScaled bits maxScale n)
    (hbits : bits ≤ moreBits) (hscale : maxScale ≤ largerScale) :
    IsScaled moreBits largerScale n := by
  obtain ⟨sign, significand, scale, hsign, hshort, hmax, rfl⟩ := hn
  exact ⟨sign, significand, scale, hsign,
    lt_of_lt_of_le hshort (Nat.pow_le_pow_right Nat.two_pos hbits), le_trans hmax hscale, rfl⟩

theorem Target.Within.holds {narrower wider : Target} (hwithin : Target.Within narrower wider)
    (hn : narrower.Holds n) : wider.Holds n := by
  cases hwithin with
  | byte_short | short_int | int_long => exact InSignedWidth.mono hn (by decide)
  | short_float | int_double => exact InSignedWidth.isScaled hn (by decide) (by decide)
  | float_double => exact IsScaled.mono hn (by decide) (by decide)

end Nesting

/-! ## Integers are narrowed exactly -/

theorem inSignedWidth?_eq (width : ℕ) (n : ℤ) :
    (InSignedWidth width n ∧ inSignedWidth? width n = some n) ∨
      (¬ InSignedWidth width n ∧ inSignedWidth? width n = none) := by
  rw [inSignedWidth?, twoPow_eq, Nat.cast_pow, Nat.cast_ofNat]
  split
  · next hrange => exact .inl ⟨hrange, rfl⟩
  · next hrange => exact .inr ⟨hrange, rfl⟩

/-- An integer is narrowed if the target holds it, and otherwise refused with the fault that names
the target. -/
inductive NarrowsTo (target : Target) (n : ℤ) : Except Fault Narrowed → Prop
  | exact {narrowed : Narrowed} (hholds : target.Holds n) (hdenotes : target.Denotes narrowed n) :
      NarrowsTo target n (.ok narrowed)
  | refused (hholds : ¬ target.Holds n) :
      NarrowsTo target n (.error (.unsupportedConversion target.name))

theorem narrowsTo_of_word {target : Target} {width : ℕ} (hwidth : target.width? = some width)
    (n : ℤ) (hholds : target.Holds n ↔ InSignedWidth width n)
    (htarget : narrow? target n = (inSignedWidth? width n).map .integral) :
    NarrowsTo target n (narrow target n) := by
  rw [narrow, htarget]
  rcases inSignedWidth?_eq width n with ⟨hrange, hword⟩ | ⟨hrange, hword⟩
  · rw [hword]
    exact .exact (hholds.mpr hrange) (.word hwidth hrange)
  · rw [hword]
    exact .refused (mt hholds.mp hrange)

theorem narrowsTo_of_narrowsExactly {format : BinaryFormat} {target : Target} {wrap : ℕ → Narrowed}
    {width bits maxScale : ℕ} {n : ℤ}
    (hexact : NarrowsExactly format target wrap width bits maxScale n)
    (hholds : target.Holds n ↔ IsScaled bits maxScale n)
    (hdenotes : ∀ pattern < 2 ^ width, format.value? pattern = some (n : ℚ) →
      target.Denotes (wrap pattern) n) :
    NarrowsTo target n (narrow target n) := by
  by_cases hscaled : IsScaled bits maxScale n
  · obtain ⟨narrowed, hnarrow⟩ := hexact.accepts_iff.mpr hscaled
    obtain ⟨pattern, hpattern, rfl, hvalue, -⟩ := hexact.denotes narrowed hnarrow
    rw [hnarrow]
    exact .exact (hholds.mpr hscaled) (hdenotes pattern hpattern hvalue)
  · rw [hexact.refuses hscaled]
    exact .refused (mt hholds.mp hscaled)

theorem narrowsTo_narrow (target : Target) (n : ℤ) : NarrowsTo target n (narrow target n) := by
  cases target with
  | byte | short | int | long => exact narrowsTo_of_word rfl n Iff.rfl rfl
  | float =>
    exact narrowsTo_of_narrowsExactly (narrowsExactly BinaryFormat.isRegular_single n rfl) Iff.rfl
      fun _ ↦ .single
  | double =>
    exact narrowsTo_of_narrowsExactly (narrowsExactly BinaryFormat.isRegular_double n rfl) Iff.rfl
      fun _ ↦ .double

theorem fits_iff_narrow (target : Target) (n : ℤ) :
    fits target n = true ↔ ∃ narrowed, narrow target n = .ok narrowed := by
  rw [fits, narrow]
  cases narrow? target n <;> simp

theorem fits_iff_holds (target : Target) (n : ℤ) : fits target n = true ↔ target.Holds n := by
  rw [fits_iff_narrow]
  have hnarrows := narrowsTo_narrow target n
  generalize narrow target n = result at hnarrows ⊢
  cases hnarrows with
  | exact hholds => simp [hholds]
  | refused hholds => simp [hholds]

end Integer

namespace Receiver

/-! ## The integer of a receiver -/

/-- The receiver stands for the integer.  A foreign value may lend a native integer, and only if it
does not is it asked whether it is a number, and for the number. -/
inductive StandsForInteger : Receiver → ℤ → Prop
  | native (n : ℤ) : StandsForInteger (native (.integer n)) n
  | lent {host : Foreign} {n : ℤ} (hnative : host.native? = some (.integer n)) :
      StandsForInteger (foreign host) n
  | given {host : Foreign} {n : ℤ} (hnative : ∀ other, host.native? ≠ some (.integer other))
      (hnumber : host.isNumber = true) (hinteger : host.asInteger = .ok n) :
      StandsForInteger (foreign host) n
  | view {delegate : Receiver} {n : ℤ} (hdelegate : delegate.StandsForInteger n) :
      StandsForInteger (view delegate) n

theorem toOption_eq_some_iff {α : Type} {result : Except Fault α} {value : α} :
    result.toOption = some value ↔ result = .ok value := by
  cases result <;> simp [Except.toOption]

theorem integer?_foreign_eq_some_iff {host : Foreign} {n : ℤ} :
    (foreign host).integer? = some n ↔ (foreign host).StandsForInteger n := by
  rw [integer?]
  split
  · next value hnative =>
    constructor
    · intro hvalue
      cases hvalue
      exact .lent hnative
    · rintro (_ | hlent | ⟨hother, -, -⟩)
      · rw [native?, hlent] at hnative
        cases hnative
        rfl
      · exact absurd hnative (hother value)
  · next hnone =>
    constructor
    · intro hvalue
      rw [Option.ite_none_right_eq_some, toOption_eq_some_iff] at hvalue
      exact .given (fun other hnative ↦ hnone other hnative) hvalue.1 hvalue.2
    · rintro (_ | hlent | ⟨-, hnumber, hinteger⟩)
      · exact absurd hlent (hnone n)
      · rw [Option.ite_none_right_eq_some, toOption_eq_some_iff]
        exact ⟨hnumber, hinteger⟩

theorem integer?_eq_some_iff {receiver : Receiver} {n : ℤ} :
    receiver.integer? = some n ↔ receiver.StandsForInteger n := by
  induction receiver with
  | native value =>
    constructor
    · intro hvalue
      cases value with
      | integer value =>
        cases hvalue
        exact .native n
      | _ => cases hvalue
    · rintro ⟨⟩
      rfl
  | descriptor | functions => exact ⟨nofun, nofun⟩
  | foreign host => exact integer?_foreign_eq_some_iff
  | view delegate ih =>
    constructor
    · exact fun hvalue ↦ .view (ih.mp hvalue)
    · rintro (_ | _ | _ | hdelegate)
      exact ih.mpr hdelegate

/-! ## Narrowing of receivers -/

variable {receiver : Receiver} {target : Integer.Target}

theorem fits_iff_exists :
    receiver.fits target = true ↔
      ∃ n, receiver.StandsForInteger n ∧ Integer.fits target n = true := by
  simp only [← integer?_eq_some_iff]
  exact Option.any_eq_true ..

theorem narrow_of_standsForInteger {n : ℤ} (hstands : receiver.StandsForInteger n) :
    receiver.narrow target = Integer.narrow target n := by
  rw [narrow, integer?_eq_some_iff.mpr hstands]

/-- The second step is about the integer alone. -/
theorem narrow_cases (receiver : Receiver) (target : Integer.Target) :
    (∃ n, receiver.StandsForInteger n ∧ Integer.NarrowsTo target n (receiver.narrow target)) ∨
      receiver.narrow target = .error (.unsupportedConversion target.name) := by
  cases hinteger : receiver.integer? with
  | none =>
    right
    rw [narrow, hinteger]
  | some n =>
    have hstands := integer?_eq_some_iff.mp hinteger
    refine .inl ⟨n, hstands, ?_⟩
    rw [narrow_of_standsForInteger hstands]
    exact Integer.narrowsTo_narrow target n

theorem exact_of_narrow {narrowed : Integer.Narrowed}
    (hnarrow : receiver.narrow target = .ok narrowed) :
    ∃ n, receiver.StandsForInteger n ∧ target.Denotes narrowed n := by
  rcases narrow_cases receiver target with ⟨n, hstands, hnarrows⟩ | herror
  · rw [hnarrow] at hnarrows
    cases hnarrows with
    | exact _ hdenotes => exact ⟨n, hstands, hdenotes⟩
  · rw [hnarrow] at herror
    cases herror

theorem fits_iff_narrow :
    receiver.fits target = true ↔ ∃ narrowed, receiver.narrow target = .ok narrowed := by
  rw [fits_iff_exists]
  constructor
  · rintro ⟨n, hstands, hfits⟩
    rw [narrow_of_standsForInteger hstands]
    exact (Integer.fits_iff_narrow target n).mp hfits
  · rintro ⟨narrowed, hnarrow⟩
    obtain ⟨n, hstands, -⟩ := exact_of_narrow hnarrow
    rw [narrow_of_standsForInteger hstands] at hnarrow
    exact ⟨n, hstands, (Integer.fits_iff_narrow target n).mpr ⟨narrowed, hnarrow⟩⟩

theorem fits_iff_holds :
    receiver.fits target = true ↔ ∃ n, receiver.StandsForInteger n ∧ target.Holds n := by
  simp only [fits_iff_exists, Integer.fits_iff_holds]

theorem narrow_of_not_fits (hfits : receiver.fits target = false) :
    receiver.narrow target = .error (.unsupportedConversion target.name) := by
  rcases narrow_cases receiver target with ⟨n, hstands, hnarrows⟩ | herror
  · generalize receiver.narrow target = result at hnarrows ⊢
    cases hnarrows with
    | exact hholds =>
      rw [fits_iff_holds.mpr ⟨n, hstands, hholds⟩] at hfits
      cases hfits
    | refused => rfl
  · exact herror

/-- Narrowing of a receiver to all targets. -/
structure NarrowsExactly (receiver : Receiver) : Prop where
  /-- The probe announces what the conversion does. -/
  announced : ∀ target,
    receiver.fits target = true ↔ ∃ narrowed, receiver.narrow target = .ok narrowed
  exact : ∀ target narrowed, receiver.narrow target = .ok narrowed →
    ∃ n, receiver.StandsForInteger n ∧ target.Denotes narrowed n
  refused : ∀ target, receiver.fits target = false →
    receiver.narrow target = .error (.unsupportedConversion target.name)
  accepted : ∀ target,
    receiver.fits target = true ↔ ∃ n, receiver.StandsForInteger n ∧ target.Holds n
  integral : ∀ target width, target.width? = some width →
    (receiver.fits target = true ↔
      ∃ n, receiver.StandsForInteger n ∧ -2 ^ (width - 1) ≤ n ∧ n < 2 ^ (width - 1))
  nested : ∀ narrower wider, Integer.Target.Within narrower wider →
    receiver.fits narrower = true → receiver.fits wider = true
  /-- A receiver stands for the integer that operators see, so for one at most. -/
  integer : ∀ n, receiver.StandsForInteger n ↔ receiver.integer? = some n

theorem receiver_narrowing_exact (receiver : Receiver) : receiver.NarrowsExactly where
  announced _ := fits_iff_narrow
  exact _ _ := exact_of_narrow
  refused _ := narrow_of_not_fits
  accepted _ := fits_iff_holds
  integral target width hwidth := by
    rw [fits_iff_holds]
    cases target <;> cases hwidth <;> rfl
  nested narrower wider hwithin hfits := by
    obtain ⟨n, hstands, hholds⟩ := fits_iff_holds.mp hfits
    exact fits_iff_holds.mpr ⟨n, hstands, hwithin.holds hholds⟩
  integer _ := integer?_eq_some_iff.symm

/-- A foreign value that lends a native integer is narrowed to it, whatever it says of itself; one
that lends a truth value and calls itself a number without giving one is refused. -/
example :
    (foreign { handle := 0, native? := some (.integer 200), asInteger := .ok 7 }).narrow .short =
        .ok (.integral 200) ∧
      (foreign { handle := 0, native? := some (.boolean true), isNumber := true }).narrow .short =
        .error (.unsupportedConversion "short") :=
  ⟨rfl, rfl⟩

end Receiver

end GuestCore
