import Mathlib.Data.String.Basic

/-!
# The Order of UTF-8

Texts are compared code point by code point, and a host may compare them byte by byte instead.
UTF-8 makes no difference between the two: a leading byte grows with the number of the continuation
bytes that it announces, and behind equal leading bytes the continuation bytes are the digits of the
code point to base sixty-four.
-/

namespace GuestCore.Text

/-- The bytes of a text. -/
def utf8 (text : String) : List UInt8 :=
  text.toUTF8.data.toList

/-- The last groups of six bits of a code point, the highest group first. -/
def continuationBytes : ℕ → ℕ → List UInt8
  | 0, _ => []
  | count + 1, code =>
    UInt8.ofNat (code / 64 ^ count % 64 + 128) :: continuationBytes count code

def continuationCount (code : ℕ) : ℕ :=
  if code ≤ 127 then 0 else if code ≤ 2047 then 1 else if code ≤ 65535 then 2 else 3

/-- The leading byte, which holds the bits that are left over. -/
def leadingByte (code : ℕ) : ℕ :=
  if code ≤ 127 then code
  else if code ≤ 2047 then code / 64 + 192
  else if code ≤ 65535 then code / 64 ^ 2 + 224
  else code / 64 ^ 3 + 240

theorem code_lt (char : Char) : char.val.toNat < 1114112 := by
  rcases char.valid with hlow | ⟨-, hhigh⟩
  · exact Nat.lt_trans hlow (by decide)
  · exact hhigh

theorem utf8EncodeChar_eq (char : Char) :
    String.utf8EncodeChar char = UInt8.ofNat (leadingByte char.val.toNat) ::
      continuationBytes (continuationCount char.val.toNat) char.val.toNat := by
  have hcode := code_lt char
  rw [String.utf8EncodeChar.eq_1, leadingByte, continuationCount]
  generalize char.val.toNat = code at hcode ⊢
  split
  · rfl
  · split
    · rw [Nat.mod_eq_of_lt (by omega)]
      simp [continuationBytes]
    · split
      · rw [Nat.mod_eq_of_lt (by omega)]
        simp [continuationBytes]
      · rw [Nat.mod_eq_of_lt (by omega)]
        simp [continuationBytes]

/-- Of two code points the smaller one has the smaller leading byte, or an equal one and less
behind it. -/
theorem leadingByte_lt {code other : ℕ} (hlt : code < other) (hother : other < 1114112) :
    leadingByte code < leadingByte other ∧ leadingByte other < 256 ∨
      leadingByte code = leadingByte other ∧
        continuationCount code = continuationCount other ∧
          code % 64 ^ continuationCount code < other % 64 ^ continuationCount other := by
  unfold leadingByte continuationCount
  split_ifs <;> omega

theorem ofNat_lt_ofNat {byte other : ℕ} (hlt : byte < other) (hother : other < 256) :
    UInt8.ofNat byte < UInt8.ofNat other :=
  (UInt8.ofNat_lt_iff_lt (Nat.lt_trans hlt hother) hother).mpr hlt

/-- Continuation bytes are ordered as the numbers that they spell. -/
theorem continuationBytes_lt {code other : ℕ} (count : ℕ)
    (hlt : code % 64 ^ count < other % 64 ^ count) (left right : List UInt8) :
    continuationBytes count code ++ left < continuationBytes count other ++ right := by
  induction count with
  | zero => exact absurd hlt (by simp [Nat.mod_one])
  | succ count ih =>
    rw [continuationBytes, continuationBytes, List.cons_append, List.cons_append,
      List.cons_lt_cons_iff]
    rw [Nat.mod_pow_succ, Nat.mod_pow_succ] at hlt
    rcases Nat.lt_trichotomy (code / 64 ^ count % 64) (other / 64 ^ count % 64) with
      hdigit | hdigit | hdigit
    · exact .inl (ofNat_lt_ofNat (by omega) (by omega))
    · rw [hdigit] at hlt ⊢
      exact .inr ⟨rfl, ih (Nat.lt_of_add_lt_add_right hlt)⟩
    · have hbound := Nat.mod_lt other (Nat.pow_pos (a := 64) (n := count) (by decide))
      have hstep := Nat.mul_le_mul_left (64 ^ count) (Nat.succ_le_of_lt hdigit)
      rw [Nat.mul_succ] at hstep
      omega

theorem utf8EncodeChar_append_lt {char other : Char} (hlt : char < other)
    (left right : List UInt8) :
    String.utf8EncodeChar char ++ left < String.utf8EncodeChar other ++ right := by
  rw [utf8EncodeChar_eq, utf8EncodeChar_eq, List.cons_append, List.cons_append,
    List.cons_lt_cons_iff]
  rcases leadingByte_lt (UInt32.lt_iff_toNat_lt.mp hlt) (code_lt other) with
    ⟨hleading, hbyte⟩ | ⟨hleading, hcount, hrest⟩
  · exact .inl (ofNat_lt_ofNat hleading hbyte)
  · rw [hleading, hcount] at *
    exact .inr ⟨rfl, continuationBytes_lt _ hrest left right⟩

theorem utf8_eq (text : String) : utf8 text = text.toList.flatMap String.utf8EncodeChar := by
  rw [utf8, String.toUTF8_eq_toByteArray, ← String.utf8Encode_toList, List.utf8Encode,
    List.toList_data_toByteArray]

theorem flatMap_utf8EncodeChar_lt {chars others : List Char} (hlt : chars < others) :
    chars.flatMap String.utf8EncodeChar < others.flatMap String.utf8EncodeChar := by
  induction hlt with
  | nil =>
    rw [List.flatMap_nil, List.flatMap_cons, utf8EncodeChar_eq, List.cons_append]
    exact List.nil_lt_cons _ _
  | rel hchar =>
    rw [List.flatMap_cons, List.flatMap_cons]
    exact utf8EncodeChar_append_lt hchar _ _
  | cons _ ih =>
    rw [List.flatMap_cons, List.flatMap_cons]
    exact List.append_left_lt ih

/-- The order of the bytes is the order of the code points. -/
theorem utf8_lt_iff {text other : String} : utf8 text < utf8 other ↔ text < other := by
  have hmono {text other : String} (hlt : text < other) : utf8 text < utf8 other := by
    rw [utf8_eq, utf8_eq]
    exact flatMap_utf8EncodeChar_lt (String.lt_iff_toList_lt.mp hlt)
  refine ⟨fun hbytes ↦ ?_, hmono⟩
  rcases lt_trichotomy text other with hlt | rfl | hgt
  · exact hlt
  · exact absurd hbytes (List.lt_irrefl _)
  · exact absurd hbytes (List.lt_asymm (hmono hgt))

end GuestCore.Text
