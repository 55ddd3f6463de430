import GuestCore.Integer.Literal
import Mathlib.Algebra.GroupWithZero.Nat
import Mathlib.Algebra.Ring.Int.Defs

/-!
# Literals Are Read and Shown Inversely

A literal may have a plus sign, leading zeros and underscores, and the text of an integer has none
of them.  Reading is therefore onto the integers and not one to one, and showing picks for each
integer the one canonical literal among all that denote it.  A digit string without leading zeros
is the text of its value, which makes the canonical literal unique.
-/

namespace GuestCore.Integer

/-! ## The grammar and what it denotes -/

/-- The value of a row of decimal digits by their positions. -/
def decimalValue : List Char → ℕ
  | [] => 0
  | digit :: rest => (digit.toNat - '0'.toNat) * 10 ^ rest.length + decimalValue rest

/-- A digit, and then any number of digits and underscores. -/
def IsGrouped : List Char → Prop
  | [] => False
  | first :: rest => first.isDigit = true ∧ ∀ char ∈ rest, char.isDigit = true ∨ char = '_'

/-- The value of the digits, the underscores ignored. -/
def groupedValue (digits : List Char) : ℕ :=
  decimalValue (digits.filter (· ≠ '_'))

/-- The characters are a literal of the integer. -/
inductive IsLiteral : List Char → ℤ → Prop
  | unsigned {digits : List Char} (hdigits : IsGrouped digits) :
      IsLiteral digits (groupedValue digits)
  | plus {digits : List Char} (hdigits : IsGrouped digits) :
      IsLiteral ('+' :: digits) (groupedValue digits)
  | minus {digits : List Char} (hdigits : IsGrouped digits) :
      IsLiteral ('-' :: digits) (-groupedValue digits)

/-- Digits of which the first is not zero. -/
structure IsUnpadded (digits : List Char) : Prop where
  digit : ∀ char ∈ digits, char.isDigit = true
  leading : ∃ first, digits.head? = some first ∧ first ≠ '0'

/-- The form in which an integer is shown. -/
inductive IsCanonical : List Char → Prop
  | zero : IsCanonical ['0']
  | positive {digits : List Char} (hdigits : IsUnpadded digits) : IsCanonical digits
  | negative {digits : List Char} (hdigits : IsUnpadded digits) : IsCanonical ('-' :: digits)

/-! ## Reading -/

theorem decimalValue_eq (digits : List Char) :
    decimalValue digits = Nat.ofDigitChars 10 digits 0 := by
  induction digits with
  | nil => rfl
  | cons digit rest ih =>
    rw [decimalValue, ih, Nat.ofDigitChars_cons, Nat.mul_zero, Nat.zero_add, Nat.mul_comm]
    exact Nat.ofDigitChars_eq_ofDigitChars_zero.symm

/-- Among digits and underscores, leaving out the underscores and keeping the digits is the same. -/
theorem filter_isDigit_eq {digits : List Char} (hdigits : IsGrouped digits) :
    digits.filter Char.isDigit = digits.filter (· ≠ '_') := by
  refine List.filter_congr fun char hchar ↦ ?_
  have hkind : char.isDigit = true ∨ char = '_' := by
    cases digits with
    | nil => cases hdigits
    | cons first rest =>
      rcases List.mem_cons.mp hchar with rfl | hrest
      · exact .inl hdigits.1
      · exact hdigits.2 char hrest
  rcases hkind with hdigit | rfl
  · have hne : char ≠ '_' := by
      rintro rfl
      cases hdigit
    rw [hdigit, decide_eq_true hne]
  · rfl

theorem isGrouped_cons_iff {first : Char} {rest : List Char} :
    IsGrouped (first :: rest) ↔ (first.isDigit && rest.all isDigitOrSeparator) = true := by
  simp [IsGrouped, isDigitOrSeparator]

theorem magnitude?_eq_some_iff {digits : List Char} {magnitude : ℕ} :
    magnitude? digits = some magnitude ↔ IsGrouped digits ∧ groupedValue digits = magnitude := by
  cases digits with
  | nil => exact ⟨nofun, fun h ↦ h.1.elim⟩
  | cons first rest =>
    rw [magnitude?, Option.ite_none_right_eq_some, ← isGrouped_cons_iff, Option.some_inj]
    refine and_congr_right fun hdigits ↦ ?_
    rw [groupedValue, decimalValue_eq, filter_isDigit_eq hdigits]

/-- No sign is a digit, so the sign that is split off is the only one that the grammar allows. -/
theorem not_isGrouped_sign {sign : Char} (hsign : sign.isDigit = false) (rest : List Char) :
    ¬ IsGrouped (sign :: rest) := by
  intro hgrouped
  rw [hgrouped.1] at hsign
  cases hsign

/-- Reading splits off the sign and applies it to the value of the rest. -/
theorem parse?_eq_some_iff_splitSign {text : String} {n : ℤ} :
    parse? text = some n ↔ IsGrouped (splitSign text.toList).2 ∧
      (if (splitSign text.toList).1 then -(groupedValue (splitSign text.toList).2 : ℤ)
        else groupedValue (splitSign text.toList).2) = n := by
  rw [parse?]
  rcases splitSign text.toList with ⟨negative, digits⟩
  cases hmagnitude : magnitude? digits with
  | none =>
    have hnot : ¬ IsGrouped digits := fun hdigits ↦ by
      rw [magnitude?_eq_some_iff.mpr ⟨hdigits, rfl⟩] at hmagnitude
      cases hmagnitude
    simp [hmagnitude, hnot]
  | some magnitude =>
    obtain ⟨hdigits, rfl⟩ := magnitude?_eq_some_iff.mp hmagnitude
    simp [hmagnitude, hdigits]

theorem parse?_eq_some_iff {text : String} {n : ℤ} :
    parse? text = some n ↔ IsLiteral text.toList n := by
  rw [parse?_eq_some_iff_splitSign]
  generalize text.toList = chars
  unfold splitSign
  split
  · constructor
    · rintro ⟨hdigits, rfl⟩
      exact .minus hdigits
    · rintro (hsign | - | hdigits)
      · exact absurd hsign (not_isGrouped_sign rfl _)
      · exact ⟨hdigits, rfl⟩
  · constructor
    · rintro ⟨hdigits, rfl⟩
      exact .plus hdigits
    · rintro (hsign | hdigits)
      · exact absurd hsign (not_isGrouped_sign rfl _)
      · exact ⟨hdigits, rfl⟩
  · next hminus hplus =>
    constructor
    · rintro ⟨hdigits, rfl⟩
      exact .unsigned hdigits
    · rintro (hdigits | - | -)
      · exact ⟨hdigits, rfl⟩
      · exact absurd rfl (hplus _)
      · exact absurd rfl (hminus _)

theorem IsLiteral.unique {chars : List Char} {n other : ℤ} (hn : IsLiteral chars n)
    (hother : IsLiteral chars other) : n = other := by
  rw [← String.toList_ofList (l := chars), ← parse?_eq_some_iff] at hn hother
  rw [hn] at hother
  exact Option.some.inj hother

/-! ## Digits without leading zeros -/

theorem digitChar_of_isDigit {digit : Char} (hdigit : digit.isDigit = true) :
    digit.toNat - '0'.toNat < 10 ∧ Nat.digitChar (digit.toNat - '0'.toNat) = digit := by
  have hrange : 48 ≤ digit.toNat ∧ digit.toNat ≤ 57 := by
    rwa [Char.isDigit, Bool.and_eq_true, decide_eq_true_eq, decide_eq_true_eq] at hdigit
  have hsmall : digit.toNat - '0'.toNat < 10 := by
    change digit.toNat - 48 < 10
    omega
  refine ⟨hsmall, Char.toNat_inj.mp ?_⟩
  rw [Nat.toNat_digitChar_of_lt_ten hsmall]
  change 48 + (digit.toNat - 48) = digit.toNat
  omega

/-- Digits that follow those of a positive number are digits of the whole number. -/
theorem toDigits_append {digits : List Char} (hdigits : ∀ char ∈ digits, char.isDigit = true)
    {initial : ℕ} (hpositive : 0 < initial) :
    Nat.toDigits 10 initial ++ digits = Nat.toDigits 10 (Nat.ofDigitChars 10 digits initial) := by
  induction digits generalizing initial with
  | nil => rw [List.append_nil, Nat.ofDigitChars_nil]
  | cons digit rest ih =>
    obtain ⟨hdigit, hrest⟩ := List.forall_mem_cons.mp hdigits
    obtain ⟨hsmall, hchar⟩ := digitChar_of_isDigit hdigit
    have hnext := Nat.toDigits_append_toDigits (by decide) hpositive hsmall
    rw [Nat.toDigits_of_lt_base hsmall, hchar] at hnext
    rw [Nat.ofDigitChars_cons, ← ih hrest (by omega), ← hnext, List.append_assoc,
      List.singleton_append]

/-- The value of a digit string that does not start with zero has exactly these digits. -/
theorem toDigits_decimalValue {digits : List Char} (hdigits : IsUnpadded digits) :
    0 < decimalValue digits ∧ Nat.toDigits 10 (decimalValue digits) = digits := by
  obtain ⟨hall, first, hhead, hfirst⟩ := hdigits
  obtain ⟨rest, rfl⟩ := List.head?_eq_some_iff.mp hhead
  obtain ⟨hdigit, hrest⟩ := List.forall_mem_cons.mp hall
  obtain ⟨hsmall, hchar⟩ := digitChar_of_isDigit hdigit
  have hpositive : 0 < first.toNat - '0'.toNat := by
    refine Nat.pos_of_ne_zero fun hzero ↦ hfirst ?_
    rw [← hchar, hzero]
    rfl
  constructor
  · rw [decimalValue]
    exact Nat.add_pos_left (Nat.mul_pos hpositive (Nat.pow_pos (by decide))) _
  · rw [decimalValue_eq, Nat.ofDigitChars_cons, Nat.mul_zero, Nat.zero_add,
      ← toDigits_append hrest hpositive, Nat.toDigits_of_lt_base hsmall, hchar,
      List.singleton_append]

theorem isDigit_toDigits (n : ℕ) : ∀ char ∈ Nat.toDigits 10 n, char.isDigit = true :=
  fun _ ↦ Nat.isDigit_of_mem_toDigits (by decide) (by decide)

theorem isUnpadded_toDigits {n : ℕ} (hpositive : 0 < n) : IsUnpadded (Nat.toDigits 10 n) where
  digit := isDigit_toDigits n
  leading := by
    induction n using Nat.strong_induction_on with
    | _ n ih =>
      by_cases hsmall : n < 10
      · refine ⟨n.digitChar, ?_, fun hzero ↦ ?_⟩
        · rw [Nat.toDigits_of_lt_base hsmall, List.head?_cons]
        · rw [Nat.digitChar_eq_zero] at hzero
          omega
      · obtain ⟨first, hhead, hfirst⟩ := ih (n / 10) (by omega) (by omega)
        refine ⟨first, ?_, hfirst⟩
        rw [Nat.toDigits_of_base_le (by decide) (by omega), List.head?_append, hhead,
          Option.some_or]

/-- Digits alone are a literal of their value. -/
theorem groupedValue_of_isDigit {digits : List Char}
    (hdigits : ∀ char ∈ digits, char.isDigit = true) :
    groupedValue digits = decimalValue digits := by
  rw [groupedValue, List.filter_eq_self.mpr]
  intro char hchar
  rw [decide_eq_true_eq]
  rintro rfl
  exact absurd (hdigits _ hchar) (by decide)

theorem isGrouped_of_isDigit {digits : List Char} (hne : digits ≠ [])
    (hdigits : ∀ char ∈ digits, char.isDigit = true) : IsGrouped digits := by
  cases digits with
  | nil => exact hne rfl
  | cons first rest =>
    obtain ⟨hfirst, hrest⟩ := List.forall_mem_cons.mp hdigits
    exact ⟨hfirst, fun char hchar ↦ .inl (hrest char hchar)⟩

/-! ## Showing -/

/-- The text of an integer is that of its magnitude, behind a minus sign if it is negative. -/
theorem toList_display (n : ℤ) :
    (display n).toList =
      if 0 ≤ n then Nat.toDigits 10 n.toNat else '-' :: Nat.toDigits 10 (-n).toNat := by
  rw [display, Int.repr_eq_if]
  split
  · rw [Nat.toList_repr]
  · rw [String.toList_append, Nat.toList_repr]
    rfl

theorem isLiteral_display (n : ℤ) : IsLiteral (display n).toList n := by
  have hvalue (magnitude : ℕ) : groupedValue (Nat.toDigits 10 magnitude) = magnitude := by
    rw [groupedValue_of_isDigit (isDigit_toDigits magnitude), decimalValue_eq,
      Nat.ofDigitChars_ten_toDigits]
  have hgrouped (magnitude : ℕ) : IsGrouped (Nat.toDigits 10 magnitude) :=
    isGrouped_of_isDigit Nat.toDigits_ne_nil (isDigit_toDigits magnitude)
  rw [toList_display]
  split
  · next hsign =>
    have hliteral := IsLiteral.unsigned (hgrouped n.toNat)
    rwa [hvalue, Int.toNat_of_nonneg hsign] at hliteral
  · next hsign =>
    have hliteral := IsLiteral.minus (hgrouped (-n).toNat)
    rwa [hvalue, Int.toNat_of_nonneg (by omega), neg_neg] at hliteral

theorem isCanonical_display (n : ℤ) : IsCanonical (display n).toList := by
  rw [toList_display]
  split
  · next hsign =>
    by_cases hzero : n = 0
    · rw [hzero]
      exact .zero
    · exact .positive (isUnpadded_toDigits (by omega))
  · exact .negative (isUnpadded_toDigits (by omega))

theorem IsUnpadded.isGrouped {digits : List Char} (hdigits : IsUnpadded digits) :
    IsGrouped digits := by
  refine isGrouped_of_isDigit ?_ hdigits.digit
  rintro rfl
  obtain ⟨first, hhead, -⟩ := hdigits.leading
  cases hhead

/-- A canonical literal is the text of the integer that it denotes. -/
theorem IsCanonical.eq_display {chars : List Char} {n : ℤ} (hcanonical : IsCanonical chars)
    (hliteral : IsLiteral chars n) : chars = (display n).toList := by
  rw [toList_display]
  cases hcanonical with
  | zero =>
    have hgrouped : IsGrouped ['0'] := ⟨rfl, nofun⟩
    rw [hliteral.unique (.unsigned hgrouped)]
    rfl
  | positive hdigits =>
    obtain ⟨-, hdisplay⟩ := toDigits_decimalValue hdigits
    rw [hliteral.unique (.unsigned hdigits.isGrouped), groupedValue_of_isDigit hdigits.digit,
      if_pos (Int.natCast_nonneg _), Int.toNat_natCast, hdisplay]
  | negative hdigits =>
    obtain ⟨hpositive, hdisplay⟩ := toDigits_decimalValue hdigits
    rw [hliteral.unique (.minus hdigits.isGrouped), groupedValue_of_isDigit hdigits.digit,
      if_neg (by omega), neg_neg, Int.toNat_natCast, hdisplay]

theorem parse?_display (n : ℤ) : parse? (display n) = some n :=
  parse?_eq_some_iff.mpr (isLiteral_display n)

theorem display_injective : Function.Injective display := by
  intro first second hsame
  have hread := parse?_display first
  rw [hsame, parse?_display] at hread
  exact (Option.some.inj hread).symm

theorem exists_parse?_iff {text : String} :
    (∃ n, parse? text = some n) ↔
      ∃ sign digits, sign ∈ [[], ['+'], ['-']] ∧ IsGrouped digits ∧
        text.toList = sign ++ digits := by
  simp only [parse?_eq_some_iff]
  generalize text.toList = chars
  constructor
  · rintro ⟨_, hdigits | hdigits | hdigits⟩
    · exact ⟨[], _, by simp, hdigits, rfl⟩
    · exact ⟨['+'], _, by simp, hdigits, rfl⟩
    · exact ⟨['-'], _, by simp, hdigits, rfl⟩
  · rintro ⟨sign, digits, hsign, hdigits, rfl⟩
    simp only [List.mem_cons, List.not_mem_nil, or_false] at hsign
    rcases hsign with rfl | rfl | rfl
    · exact ⟨_, .unsigned hdigits⟩
    · exact ⟨_, .plus hdigits⟩
    · exact ⟨_, .minus hdigits⟩

/-- The text of an integer and reading of any other text. -/
structure ReadsAndShows (n : ℤ) (text : String) : Prop where
  reads_shown : parse? (display n) = some n
  canonical : IsCanonical (display n).toList
  injective : ∀ other, display n = display other → n = other
  /-- A text is read exactly if it is an optional sign, a digit, and digits and underscores. -/
  accepts : (∃ read, parse? text = some read) ↔
    ∃ sign digits, sign ∈ [[], ['+'], ['-']] ∧ IsGrouped digits ∧ text.toList = sign ++ digits
  /-- What is read is the signed decimal value of the digits. -/
  denotes : parse? text = some n ↔ IsLiteral text.toList n
  /-- Of all literals of the integer the text shown is the canonical one. -/
  unique : IsCanonical text.toList ∧ parse? text = some n ↔ text = display n
  stable : ∀ read, parse? text = some read → parse? (display read) = parse? text
  negative_zero : parse? "-0" = some 0

theorem literals_read_and_shown (n : ℤ) (text : String) : ReadsAndShows n text where
  reads_shown := parse?_display n
  canonical := isCanonical_display n
  injective _ hsame := display_injective hsame
  accepts := exists_parse?_iff
  denotes := parse?_eq_some_iff
  unique := by
    constructor
    · rintro ⟨hcanonical, hread⟩
      exact String.toList_inj.mp (hcanonical.eq_display (parse?_eq_some_iff.mp hread))
    · rintro rfl
      exact ⟨isCanonical_display n, parse?_display n⟩
  stable _ hread := by rw [parse?_display, hread]
  negative_zero := parse?_eq_some_iff.mpr (.minus ⟨rfl, nofun⟩)

/-- Leading zeros and underscores are read and not shown. -/
example : parse? "+0_07_" = some 7 ∧ display 7 = "7" ∧ parse? "_7" = none ∧
    parse? "--7" = none := by
  decide

end GuestCore.Integer
