import GuestCore.Operator

/-!
# Equality Has Keys

Equality tries four things in turn: it compares two native scalars, then the integers that both
sides stand for, then it asks whether both are null, and at last each side may say that it is the
other one.  On receivers that make no claims of their own about identity, and are of one type at
most, all this comes to comparing keys.  So equality is symmetric and transitive there, and
receivers of different types are never equal.
-/

namespace GuestCore

/-- What equality compares. -/
inductive EqualityKey where
  | integer (value : Int)
  | null
  | boolean (value : Bool)
  | text (content : String)
  | function (id : FunctionId)
  | object (id : ObjectId)
deriving DecidableEq, Repr

namespace EqualityKey

def type : EqualityKey → LanguageType
  | integer _ => .number
  | null => .null
  | boolean _ => .boolean
  | text _ => .text
  | function _ => .function
  | object _ => .object

end EqualityKey

/-- The key of a native value that is neither a number nor null; lists have none. -/
def Value.ownKey? : Value → Option EqualityKey
  | boolean value => some (.boolean value)
  | text _ content => some (.text content)
  | function id => some (.function id)
  | object id => some (.object id)
  | null | integer _ | list _ _ => none

/-- The value answers for no other value, makes no claims about identity, and at most one type
recognises it. -/
structure Foreign.IsPlain (value : Foreign) : Prop where
  native?_eq : value.native? = none
  identity_eq : value.identity = fun _ ↦ .unknown
  one_type : (LanguageType.precedence.filter (Receiver.foreign value).isInstance).length ≤ 1

namespace Receiver

/-- A receiver that is or shows anything but a foreign value which is not plain. -/
def IsPlain : Receiver → Prop
  | native _ | descriptor _ | functions _ => True
  | foreign value => value.IsPlain
  | view delegate => delegate.IsPlain

/-- The key of a receiver: the integer that it stands for, null, or the key of the native value
behind it. -/
def key? (receiver : Receiver) : Option EqualityKey :=
  match receiver.integer? with
  | some value => some (.integer value)
  | none => if receiver.isNull then some .null else receiver.native?.bind Value.ownKey?

/-! ## The two kinds of plain receivers -/

/-- The receiver answers like a native value. -/
structure StandsFor (receiver : Receiver) (value : Value) : Prop where
  native?_eq : receiver.native? = some value
  integer?_eq : receiver.integer? = value.integer?
  isNull_eq : receiver.isNull = value.isNull
  type?_eq : receiver.type? = (native value).type?
  identityAnswer_eq : ∀ other : Receiver,
    receiver.identityAnswer other = value.identityAnswer other.native?

/-- There is no native value behind the receiver, which cannot tell who it is. -/
structure IsStrange (receiver : Receiver) : Prop where
  native?_eq : receiver.native? = none
  identityAnswer_eq : ∀ other, receiver.identityAnswer other = .unknown
  number_type : ∀ value, receiver.integer? = some value → receiver.type? = some .number
  null_type : receiver.isNull = true → receiver.type? = some .null

theorem standsFor_native (value : Value) : (native value).StandsFor value where
  native?_eq := rfl
  integer?_eq := by cases value <;> rfl
  isNull_eq := rfl
  type?_eq := rfl
  identityAnswer_eq _ := rfl

theorem StandsFor.view {receiver : Receiver} {value : Value} (hvalue : receiver.StandsFor value) :
    (view receiver).StandsFor value :=
  ⟨hvalue.native?_eq, hvalue.integer?_eq, hvalue.isNull_eq, hvalue.type?_eq,
    hvalue.identityAnswer_eq⟩

theorem IsStrange.view {receiver : Receiver} (hstrange : receiver.IsStrange) :
    (view receiver).IsStrange :=
  ⟨hstrange.native?_eq, hstrange.identityAnswer_eq, hstrange.number_type, hstrange.null_type⟩

/-- A plain foreign value that calls itself a number does not call itself null. -/
theorem isStrange_foreign {value : Foreign} (hplain : value.IsPlain) :
    (foreign value).IsStrange where
  native?_eq := hplain.native?_eq
  identityAnswer_eq other := congrFun hplain.identity_eq other.peer
  number_type number hnumber := by
    have hone := hplain.one_type
    have hclaims : value.isNumber = true := by
      cases hclaims : value.isNumber with
      | true => rfl
      | false => simp [integer?, native?, isNumber, hplain.native?_eq, hclaims] at hnumber
    have hnull : value.isNull = false := by
      cases hnull : value.isNull with
      | false => rfl
      | true => simp [LanguageType.precedence, isInstance, isNull, isNumber, hclaims, hnull] at hone
    simp [type?, LanguageType.precedence, isInstance, isNull, isNumber, hclaims, hnull]
  null_type hnull := by
    have hclaims : value.isNull = true := hnull
    simp [type?, LanguageType.precedence, isInstance, isNull, hclaims]

theorem IsPlain.standsFor_or_isStrange {receiver : Receiver} (hplain : receiver.IsPlain) :
    (∃ value, receiver.StandsFor value) ∨ receiver.IsStrange := by
  induction receiver with
  | native value => exact .inl ⟨value, standsFor_native value⟩
  | descriptor type | functions registry => exact .inr ⟨rfl, fun _ ↦ rfl, nofun, nofun⟩
  | foreign value => exact .inr (isStrange_foreign hplain)
  | view delegate ih =>
    rcases ih hplain with ⟨value, hvalue⟩ | hstrange
    · exact .inl ⟨value, hvalue.view⟩
    · exact .inr hstrange.view

/-! ## Keys -/

/-- Numbers and null have their keys from what a receiver says of itself, not from the native
value. -/
theorem bind_ownKey?_ne (native? : Option Value) :
    (∀ number, native?.bind Value.ownKey? ≠ some (.integer number)) ∧
      native?.bind Value.ownKey? ≠ some .null := by
  cases native? with
  | none => exact ⟨nofun, nofun⟩
  | some value => cases value <;> exact ⟨nofun, nofun⟩

theorem key?_eq_integer_iff (receiver : Receiver) (value : Int) :
    receiver.key? = some (.integer value) ↔ receiver.integer? = some value := by
  have hown := (bind_ownKey?_ne receiver.native?).1 value
  unfold key?
  cases receiver.integer? with
  | some number => simp
  | none => cases receiver.isNull <;> simp [hown]

/-- Without a native value there is only what the receiver says of itself. -/
theorem key_of_native?_eq_none {receiver : Receiver} (hnone : receiver.native? = none)
    {key : EqualityKey} (hkey : receiver.key? = some key) :
    (∃ value, key = .integer value) ∨ key = .null := by
  unfold key? at hkey
  rw [hnone] at hkey
  split at hkey
  · next value _ => exact .inl ⟨value, (Option.some.inj hkey).symm⟩
  · split at hkey
    · exact .inr (Option.some.inj hkey).symm
    · cases hkey

theorem StandsFor.key?_eq {receiver : Receiver} {value : Value}
    (hvalue : receiver.StandsFor value) : receiver.key? = (native value).key? := by
  have hnative := standsFor_native value
  simp only [key?, hvalue.integer?_eq, hvalue.isNull_eq, hvalue.native?_eq, hnative.integer?_eq,
    hnative.isNull_eq, hnative.native?_eq]

theorem IsPlain.isNull_of_integer? {receiver : Receiver} (hplain : receiver.IsPlain) {value : Int}
    (hinteger : receiver.integer? = some value) : receiver.isNull = false := by
  rcases hplain.standsFor_or_isStrange with ⟨native, hnative⟩ | hstrange
  · rw [hnative.integer?_eq] at hinteger
    rw [hnative.isNull_eq]
    cases native with
    | integer => rfl
    | _ => cases hinteger
  · cases hnull : receiver.isNull with
    | false => rfl
    | true => exact absurd ((hstrange.number_type value hinteger).symm.trans
        (hstrange.null_type hnull)) nofun

theorem IsPlain.key?_eq_null_iff {receiver : Receiver} (hplain : receiver.IsPlain) :
    receiver.key? = some .null ↔ receiver.isNull = true := by
  have hown := (bind_ownKey?_ne receiver.native?).2
  unfold key?
  cases hinteger : receiver.integer? with
  | some number => simp [hplain.isNull_of_integer? hinteger]
  | none => cases receiver.isNull <;> simp [hown]

/-- A plain receiver with a key is of the key's type. -/
theorem IsPlain.type?_of_key? {receiver : Receiver} (hplain : receiver.IsPlain)
    {key : EqualityKey} (hkey : receiver.key? = some key) : receiver.type? = some key.type := by
  rcases hplain.standsFor_or_isStrange with ⟨value, hvalue⟩ | hstrange
  · rw [hvalue.key?_eq] at hkey
    rw [hvalue.type?_eq]
    cases value with
    | list => cases hkey
    | _ =>
      obtain rfl := Option.some.inj hkey
      rfl
  · rcases key_of_native?_eq_none hstrange.native?_eq hkey with ⟨value, rfl⟩ | rfl
    · exact hstrange.number_type value ((receiver.key?_eq_integer_iff value).mp hkey)
    · exact hstrange.null_type (hplain.key?_eq_null_iff.mp hkey)

/-- Only a native value says of another native value that it is the one. -/
theorem IsPlain.identityAnswer_ne_yes {receiver other : Receiver} (hplain : receiver.IsPlain)
    (hnone : receiver.native? = none ∨ other.native? = none) :
    receiver.identityAnswer other ≠ .yes := by
  rcases hplain.standsFor_or_isStrange with ⟨value, hvalue⟩ | hstrange
  · have hother : other.native? = none := by simpa [hvalue.native?_eq] using hnone
    rw [hvalue.identityAnswer_eq, hother]
    cases value <;> nofun
  · rw [hstrange.identityAnswer_eq]
    nofun

end Receiver

namespace Operator

open Receiver

variable {left right : Receiver}

theorem equal_natives {leftValue rightValue : Value} (hleft : left.StandsFor leftValue)
    (hright : right.StandsFor rightValue) :
    equal left right = equal (native leftValue) (native rightValue) := by
  have hleftNative := standsFor_native leftValue
  have hrightNative := standsFor_native rightValue
  simp only [equal, integers?, eitherIdentifies, hleft.native?_eq, hright.native?_eq,
    hleft.integer?_eq, hright.integer?_eq, hleft.isNull_eq, hright.isNull_eq,
    hleft.identityAnswer_eq, hright.identityAnswer_eq, hleftNative.native?_eq,
    hrightNative.native?_eq, hleftNative.integer?_eq, hrightNative.integer?_eq,
    hleftNative.isNull_eq, hrightNative.isNull_eq, hleftNative.identityAnswer_eq,
    hrightNative.identityAnswer_eq]

/-- A side that knows the answer decides. -/
theorem eitherIdentifies_of_ofBool {verdict : Bool}
    (hanswer : left.identityAnswer right = .ofBool verdict) :
    eitherIdentifies left right = verdict := by
  rw [eitherIdentifies, hanswer]
  cases verdict <;> rfl

/-- Native values of one kind compare their contents or handles, and others are not equal. -/
theorem equal_native_iff (leftValue rightValue : Value) :
    equal (native leftValue) (native rightValue) = true ↔
      ∃ key, (native leftValue).key? = some key ∧ (native rightValue).key? = some key := by
  have hkey (value : Value) : (native value).key? = match value with
      | .integer number => some (.integer number)
      | .null => some .null
      | value => value.ownKey? := by
    cases value <;> rfl
  rw [hkey, hkey]
  cases leftValue <;> cases rightValue
  case integer.integer left right =>
    simp [equal, equalScalars?, native?, eq_comm (a := left)]
  case boolean.boolean left right =>
    simp [equal, equalScalars?, native?, Value.ownKey?, eq_comm (a := left)]
  case text.text _ left _ right =>
    simp [equal, equalScalars?, native?, Value.ownKey?, eq_comm (a := left)]
  case function.function left right =>
    have hequal : equal (native (.function left)) (native (.function right)) =
      decide (left = right) := eitherIdentifies_of_ofBool rfl
    simp [hequal, Value.ownKey?, eq_comm (a := left)]
  case object.object left right =>
    have hequal : equal (native (.object left)) (native (.object right)) =
      decide (left = right) := eitherIdentifies_of_ofBool rfl
    simp [hequal, Value.ownKey?, eq_comm (a := left)]
  all_goals
    simp [equal, equalScalars?, integers?, eitherIdentifies, Value.ownKey?, integer?, native?,
      isNull, isNumber, identityAnswer, Value.identityAnswer, Value.isNull, Value.integer?]

/-- Unless both sides are native, identity plays no part. -/
theorem equal_of_native?_eq_none (hleft : left.IsPlain) (hright : right.IsPlain)
    (hnone : left.native? = none ∨ right.native? = none) :
    equal left right =
      match left.integer?, right.integer? with
      | some a, some b => a == b
      | _, _ => left.isNull && right.isNull := by
  have hscalars : equalScalars? left.native? right.native? = none := by
    rcases hnone with hnone | hnone <;> rw [hnone]
    · rfl
    · cases left.native? with
      | none => rfl
      | some value => cases value <;> rfl
  have hidentity : eitherIdentifies left right = false := by
    have hright := hright.identityAnswer_ne_yes hnone.symm
    have hleft := hleft.identityAnswer_ne_yes hnone
    unfold eitherIdentifies
    cases hanswer : left.identityAnswer right with
    | yes => exact absurd hanswer hleft
    | no => rfl
    | unknown => exact beq_false_of_ne hright
  unfold equal integers?
  rw [hscalars, hidentity]
  cases left.integer? <;> cases right.integer? <;> cases left.isNull <;> cases right.isNull <;> rfl

/-- Without a native value on both sides, the keys that can be the same are integers and null. -/
theorem exists_key_iff (hleft : left.IsPlain) (hright : right.IsPlain)
    (hnone : left.native? = none ∨ right.native? = none) :
    (∃ key, left.key? = some key ∧ right.key? = some key) ↔
      match left.integer?, right.integer? with
      | some a, some b => a = b
      | _, _ => left.isNull = true ∧ right.isNull = true := by
  constructor
  · rintro ⟨key, hleftKey, hrightKey⟩
    have hclaimed : (∃ value, key = .integer value) ∨ key = .null := by
      rcases hnone with hnone | hnone
      · exact key_of_native?_eq_none hnone hleftKey
      · exact key_of_native?_eq_none hnone hrightKey
    rcases hclaimed with ⟨value, rfl⟩ | rfl
    · rw [key?_eq_integer_iff] at hleftKey hrightKey
      rw [hleftKey, hrightKey]
    · rw [hleft.key?_eq_null_iff] at hleftKey
      rw [hright.key?_eq_null_iff] at hrightKey
      split
      · next hinteger _ => exact absurd (hleft.isNull_of_integer? hinteger) (by simp [hleftKey])
      · exact ⟨hleftKey, hrightKey⟩
  · intro hsame
    split at hsame
    · next a b hleftInteger hrightInteger =>
      subst hsame
      exact ⟨.integer a, (left.key?_eq_integer_iff a).mpr hleftInteger,
        (right.key?_eq_integer_iff a).mpr hrightInteger⟩
    · exact ⟨.null, hleft.key?_eq_null_iff.mpr hsame.1, hright.key?_eq_null_iff.mpr hsame.2⟩

/-- Plain receivers are equal exactly if they have the same key. -/
theorem equal_iff (hleft : left.IsPlain) (hright : right.IsPlain) :
    equal left right = true ↔ ∃ key, left.key? = some key ∧ right.key? = some key := by
  by_cases hnone : left.native? = none ∨ right.native? = none
  · rw [equal_of_native?_eq_none hleft hright hnone, exists_key_iff hleft hright hnone]
    cases left.integer? <;> cases right.integer? <;> simp
  · rcases hleft.standsFor_or_isStrange with ⟨leftValue, hleftValue⟩ | hstrange
    · rcases hright.standsFor_or_isStrange with ⟨rightValue, hrightValue⟩ | hstrange
      · rw [equal_natives hleftValue hrightValue, hleftValue.key?_eq, hrightValue.key?_eq]
        exact equal_native_iff leftValue rightValue
      · exact absurd (.inr hstrange.native?_eq) hnone
    · exact absurd (.inl hstrange.native?_eq) hnone

end Operator

open Operator

/-- On plain receivers equality compares keys: it holds exactly between receivers with the same
key.  So it is symmetric and transitive, and false between receivers of different types. -/
theorem equality_keyed :
    (∀ left right : Receiver, left.IsPlain → right.IsPlain →
      (equal left right = true ↔ ∃ key, left.key? = some key ∧ right.key? = some key)) ∧
    (∀ left right : Receiver, left.IsPlain → right.IsPlain →
      equal left right = equal right left) ∧
    (∀ left middle right : Receiver, left.IsPlain → middle.IsPlain → right.IsPlain →
      equal left middle = true → equal middle right = true → equal left right = true) ∧
    ∀ left right : Receiver, left.IsPlain → right.IsPlain → left.type? ≠ right.type? →
      equal left right = false := by
  refine ⟨fun left right ↦ equal_iff, ?_, ?_, ?_⟩
  · intro left right hleft hright
    rw [Bool.eq_iff_iff, equal_iff hleft hright, equal_iff hright hleft]
    exact exists_congr fun key ↦ and_comm
  · intro left middle right hleft hmiddle hright hfirst hsecond
    obtain ⟨key, hleftKey, hmiddleKey⟩ := (equal_iff hleft hmiddle).mp hfirst
    obtain ⟨other, hother, hrightKey⟩ := (equal_iff hmiddle hright).mp hsecond
    obtain rfl : key = other := Option.some.inj (hmiddleKey.symm.trans hother)
    exact (equal_iff hleft hright).mpr ⟨key, hleftKey, hrightKey⟩
  · intro left right hleft hright htypes
    rw [Bool.eq_false_iff]
    intro hequal
    obtain ⟨key, hleftKey, hrightKey⟩ := (equal_iff hleft hright).mp hequal
    exact htypes ((hleft.type?_of_key? hleftKey).trans (hright.type?_of_key? hrightKey).symm)

/-- A host that is the number two, shown through a view, equals the native two; a host that calls
itself a number but gives none equals nothing, and neither does a list. -/
theorem equality_keyed_hosts :
    let two : Receiver := .view (.foreign { handle := 0, isNumber := true, asInteger := .ok 2 })
    let broken : Receiver := .foreign { handle := 1, isNumber := true }
    let native : Receiver := .native (.integer 2)
    let list : Receiver := .native (.list ⟨0⟩ [])
    two.IsPlain ∧ broken.IsPlain ∧
      equal two native = true ∧ equal native two = equal two native ∧
      (equal native two = true → equal two native = true → equal native native = true) ∧
      equal two broken = false ∧ equal two list = false := by
  intro two broken native list
  have htwo : two.IsPlain := Foreign.IsPlain.mk rfl rfl (by decide)
  have hbroken : broken.IsPlain := Foreign.IsPlain.mk rfl rfl (by decide)
  obtain ⟨hkeyed, hsymmetric, htransitive, htypes⟩ := equality_keyed
  refine ⟨htwo, hbroken, (hkeyed two native htwo trivial).mpr ⟨.integer 2, rfl, rfl⟩,
    hsymmetric native two trivial htwo, htransitive native two native trivial htwo trivial,
    ?_, htypes two list htwo trivial (by decide)⟩
  rw [Bool.eq_false_iff, Ne, hkeyed two broken htwo hbroken]
  rintro ⟨key, -, hbrokenKey⟩
  cases hbrokenKey

end GuestCore
