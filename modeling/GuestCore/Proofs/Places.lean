import GuestCore.Proofs.Equality
import GuestCore.Proofs.Operands
import GuestCore.Session.Run

/-!
# Identity of Places

Whether two places hold the same receiver is asked of the left one, then of the right one, and if
neither can tell, their addresses are compared.  On receivers that leave the messages about
identity out this comes to comparing addresses and identity hashes.  A foreign value that answers
for a native value has no hash itself: it is identical to that value, but not to another foreign
value that answers for the same one.  Everywhere else identity is an equivalence.

Equality says "no" where identity compares addresses.  So it holds between identical values of all
kinds but one: a list is identical to itself, and yet it does not equal itself.
-/

namespace GuestCore

/-- What is kept at every address. -/
def Memory : Type :=
  Nat → Receiver

namespace Memory

def place (memory : Memory) (address : Nat) : Place where
  address := address
  receiver := memory address

@[simp]
theorem place_address (memory : Memory) (address : Nat) :
    (memory.place address).address = address :=
  rfl

@[simp]
theorem place_receiver (memory : Memory) (address : Nat) :
    (memory.place address).receiver = memory address :=
  rfl

/-- The places at two addresses hold the same receiver. -/
def Identical (memory : Memory) (left right : Nat) : Prop :=
  (memory.place left).identical (memory.place right) = true

instance (memory : Memory) (left right : Nat) : Decidable (memory.Identical left right) :=
  inferInstanceAs (Decidable (_ = true))

end Memory

/-! ## Hashes -/

/-- The value leaves the messages about identity out. -/
structure Foreign.HasDefaultIdentity (value : Foreign) : Prop where
  identity_eq : value.identity = fun _ ↦ .unknown
  identityHash_eq : value.identityHash = .error (.unsupportedMessage "identity_hash")

namespace Receiver

/-- The foreign value behind the receiver, if there is one, leaves the messages about identity
out. -/
def HasDefaultIdentity (receiver : Receiver) : Prop :=
  ∀ value, receiver.foreign? = some value → value.HasDefaultIdentity

/-- The identity hash, if the receiver has one. -/
def hash? (receiver : Receiver) : Option IdentityHash :=
  receiver.identityHash.toOption

/-- The identity hash of the native value that the receiver answers for. -/
def nativeHash? (receiver : Receiver) : Option IdentityHash :=
  receiver.native?.bind fun value ↦ value.identityHash.toOption

/-- The receiver is or shows a foreign value that answers for a native value with a hash. -/
def Borrows (receiver : Receiver) : Prop :=
  ∃ value native, receiver.foreign? = some value ∧ value.native? = some native ∧
    native.identityHash.toOption.isSome = true

/-- The receiver has the hash of the value that the other one answers for. -/
def Claims (receiver other : Receiver) : Prop :=
  ∃ hash, receiver.hash? = some hash ∧ other.nativeHash? = some hash

/-- Both receivers answer for values with one hash, which one of them has itself. -/
def Meets (receiver other : Receiver) : Prop :=
  ∃ hash, receiver.nativeHash? = some hash ∧ other.nativeHash? = some hash ∧
    (receiver.hash? = some hash ∨ other.hash? = some hash)

variable {receiver middle other : Receiver} {hash : IdentityHash}

/-- Only native values have hashes. -/
theorem HasDefaultIdentity.nativeHash?_eq (hdefault : receiver.HasDefaultIdentity)
    (hhash : receiver.hash? = some hash) : receiver.nativeHash? = some hash := by
  induction receiver with
  | native value => exact hhash
  | descriptor | functions => cases hhash
  | foreign value =>
    rw [hash?, identityHash, (hdefault value rfl).identityHash_eq] at hhash
    cases hhash
  | view delegate ih => exact ih hdefault hhash

/-- A receiver that answers for a value with a hash has the hash itself, or borrows it. -/
theorem HasDefaultIdentity.hash?_eq_none_iff (hdefault : receiver.HasDefaultIdentity)
    (hhash : receiver.nativeHash? = some hash) : receiver.hash? = none ↔ receiver.Borrows := by
  induction receiver with
  | native value =>
    have hown : (native value).hash? = some hash := hhash
    rw [hown]
    exact ⟨nofun, fun ⟨_, _, hforeign, _⟩ ↦ nomatch hforeign⟩
  | descriptor | functions => cases hhash
  | foreign value =>
    have hnone : (foreign value).hash? = none := by
      rw [hash?, identityHash, (hdefault value rfl).identityHash_eq]
      rfl
    obtain ⟨native, hnative, hhash⟩ := Option.bind_eq_some_iff.mp hhash
    exact iff_of_true hnone ⟨value, native, rfl, hnative, Option.isSome_of_eq_some hhash⟩
  | view delegate ih => exact ih hdefault hhash

theorem HasDefaultIdentity.claims_self (hdefault : receiver.HasDefaultIdentity)
    (hsome : receiver.hash?.isSome = true) : receiver.Claims receiver := by
  obtain ⟨hash, hhash⟩ := Option.isSome_iff_exists.mp hsome
  exact ⟨hash, hhash, hdefault.nativeHash?_eq hhash⟩

theorem Meets.symm (hmeets : receiver.Meets other) : other.Meets receiver := by
  obtain ⟨hash, hreceiver, hother, hown⟩ := hmeets
  exact ⟨hash, hother, hreceiver, hown.symm⟩

theorem Claims.meets (hclaims : receiver.Claims other) (hdefault : receiver.HasDefaultIdentity) :
    receiver.Meets other := by
  obtain ⟨hash, hhash, hother⟩ := hclaims
  exact ⟨hash, hdefault.nativeHash?_eq hhash, hother, .inl hhash⟩

/-- Of two receivers that meet, one that has a hash claims the other. -/
theorem Meets.claims (hmeets : receiver.Meets other) (hdefault : receiver.HasDefaultIdentity)
    (hsome : receiver.hash?.isSome = true) : receiver.Claims other := by
  obtain ⟨hash, hreceiver, hother, -⟩ := hmeets
  obtain ⟨own, hown⟩ := Option.isSome_iff_exists.mp hsome
  obtain rfl : own = hash :=
    Option.some.inj ((hdefault.nativeHash?_eq hown).symm.trans hreceiver)
  exact ⟨own, hown, hother⟩

theorem Meets.claims_or_claims (hmeets : receiver.Meets other)
    (hreceiver : receiver.HasDefaultIdentity) (hother : other.HasDefaultIdentity) :
    receiver.Claims other ∨ other.Claims receiver := by
  have ⟨hash, _, _, hown⟩ := hmeets
  rcases hown with hown | hown
  · exact .inl (hmeets.claims hreceiver (Option.isSome_of_eq_some hown))
  · exact .inr (hmeets.symm.claims hother (Option.isSome_of_eq_some hown))

/-- What meets one receiver has one hash, so two of them meet unless both have only borrowed it. -/
theorem Meets.trans (hfirst : receiver.Meets middle) (hsecond : middle.Meets other)
    (hreceiver : receiver.HasDefaultIdentity) (hother : other.HasDefaultIdentity)
    (hborrows : ¬ (receiver.Borrows ∧ other.Borrows)) : receiver.Meets other := by
  obtain ⟨hash, hreceiverHash, hmiddleHash, -⟩ := hfirst
  obtain ⟨same, hsameHash, hotherHash, -⟩ := hsecond
  obtain rfl : hash = same := Option.some.inj (hmiddleHash.symm.trans hsameHash)
  refine ⟨hash, hreceiverHash, hotherHash, ?_⟩
  rw [← hreceiver.hash?_eq_none_iff hreceiverHash, ← hother.hash?_eq_none_iff hotherHash]
    at hborrows
  cases hown : receiver.hash? with
  | some own => exact .inl ((hreceiver.nativeHash?_eq hown).symm.trans hreceiverHash)
  | none =>
    cases hotherOwn : other.hash? with
    | some own => exact .inr ((hother.nativeHash?_eq hotherOwn).symm.trans hotherHash)
    | none => exact absurd ⟨hown, hotherOwn⟩ hborrows

theorem native_identityAnswer_eq_yes_iff (value : Value) (other : Receiver) :
    (native value).identityAnswer other = .yes ↔ (native value).Claims other := by
  change value.identityAnswer other.native? = .yes ↔
    ∃ hash, value.identityHash.toOption = some hash ∧
      (other.native?.bind fun value ↦ value.identityHash.toOption) = some hash
  cases value with
  | null | function | object =>
    cases other.native? with
    | none => simp [Value.identityAnswer, Value.identityHash, Except.toOption]
    | some otherValue =>
      cases otherValue <;>
        simp [Value.identityAnswer, Value.identityHash, Except.toOption, IdentityAnswer.ofBool,
          IdentityHash.ofNull, eq_comm]
  | integer | boolean | text | list =>
    simp [Value.identityAnswer, Value.identityHash, Except.toOption]

/-- A receiver says that it is another one exactly if it has the hash of the value behind it. -/
theorem HasDefaultIdentity.identityAnswer_eq_yes_iff (hdefault : receiver.HasDefaultIdentity)
    (other : Receiver) : receiver.identityAnswer other = .yes ↔ receiver.Claims other := by
  induction receiver with
  | native value => exact native_identityAnswer_eq_yes_iff value other
  | descriptor | functions => exact ⟨nofun, fun ⟨_, hhash, _⟩ ↦ nomatch hhash⟩
  | foreign value =>
    obtain ⟨hidentity, hhash⟩ := hdefault value rfl
    simp [identityAnswer, hidentity, Claims, hash?, identityHash, hhash, Except.toOption]
  | view delegate ih => exact ih hdefault

/-- Only a receiver with a hash denies that it is another one. -/
theorem HasDefaultIdentity.isSome_hash? (hdefault : receiver.HasDefaultIdentity)
    (hanswer : receiver.identityAnswer other = .no) : receiver.hash?.isSome = true := by
  induction receiver with
  | native value =>
    cases value with
    | null | function | object => rfl
    | integer | boolean | text | list => cases hanswer
  | descriptor | functions => cases hanswer
  | foreign value =>
    rw [identityAnswer, (hdefault value rfl).identity_eq] at hanswer
    cases hanswer
  | view delegate ih => exact ih hdefault hanswer

/-- A receiver that denies to be another one is right. -/
theorem HasDefaultIdentity.not_meets_of_no (hdefault : receiver.HasDefaultIdentity)
    (hanswer : receiver.identityAnswer other = .no) :
    receiver ≠ other ∧ ¬ receiver.Meets other := by
  have hsome := hdefault.isSome_hash? hanswer
  have hnot : ¬ receiver.Claims other := by
    rw [← hdefault.identityAnswer_eq_yes_iff, hanswer]
    nofun
  refine ⟨?_, fun hmeets ↦ hnot (hmeets.claims hdefault hsome)⟩
  rintro rfl
  exact hnot (hdefault.claims_self hsome)

end Receiver

/-! ## Identity -/

namespace Memory

open Receiver

variable {memory : Memory} {left middle right : Nat}

/-- Two places are identical if they are the same place, or if their receivers meet. -/
theorem identical_iff (hleft : (memory left).HasDefaultIdentity)
    (hright : (memory right).HasDefaultIdentity) :
    memory.Identical left right ↔ left = right ∨ (memory left).Meets (memory right) := by
  have hyesLeft := hleft.identityAnswer_eq_yes_iff (memory right)
  have hyesRight := hright.identityAnswer_eq_yes_iff (memory left)
  simp only [Identical, Place.identical, place_address, place_receiver]
  cases hanswer : (memory left).identityAnswer (memory right) with
  | yes => simp [(hyesLeft.mp hanswer).meets hleft]
  | no =>
    obtain ⟨hne, hnot⟩ := hleft.not_meets_of_no hanswer
    have haddress : left ≠ right := fun heq ↦ hne (congrArg memory heq)
    simp [haddress, hnot]
  | unknown =>
    cases hback : (memory right).identityAnswer (memory left) with
    | yes => simp [((hyesRight.mp hback).meets hright).symm]
    | no =>
      obtain ⟨hne, hnot⟩ := hright.not_meets_of_no hback
      have haddress : left ≠ right := fun heq ↦ hne (congrArg memory heq.symm)
      have hnotBack : ¬ (memory left).Meets (memory right) := fun hmeets ↦ hnot hmeets.symm
      simp [haddress, hnotBack]
    | unknown =>
      -- If the two met, one of them would have said so.
      have hnot : ¬ (memory left).Meets (memory right) := by
        intro hmeets
        rcases hmeets.claims_or_claims hleft hright with hclaims | hclaims
        · exact nomatch hanswer.symm.trans (hyesLeft.mpr hclaims)
        · exact nomatch hback.symm.trans (hyesRight.mpr hclaims)
      simp [hnot]

/-- All foreign values that are kept leave the messages about identity out. -/
def HasDefaultIdentity (memory : Memory) : Prop :=
  ∀ address, (memory address).HasDefaultIdentity

end Memory

/-! ## Equality of identical values -/

namespace Value

/-- A value with a hash is determined by it. -/
theorem eq_of_hash_eq {value other : Value} {hash : IdentityHash}
    (hvalue : value.identityHash.toOption = some hash)
    (hother : other.identityHash.toOption = some hash) : value = other := by
  cases value with
  | integer | boolean | text | list => cases hvalue
  | null | function | object =>
    obtain rfl := Option.some.inj hvalue
    cases other with
    | integer | boolean | text | list => cases hother
    | null | function | object => cases hother <;> rfl

end Value

theorem Receiver.HasDefaultIdentity.native (value : Value) :
    (Receiver.native value).HasDefaultIdentity :=
  fun _ hforeign ↦ nomatch hforeign

namespace Memory

variable {memory : Memory} {left right : Nat} {leftValue rightValue : Value}

/-- Two places with native values are identical if they are the same place, or if the values have
the same hash. -/
theorem identical_iff_of_native (hleft : memory left = .native leftValue)
    (hright : memory right = .native rightValue) :
    memory.Identical left right ↔ left = right ∨
      ∃ hash, leftValue.identityHash.toOption = some hash ∧
        rightValue.identityHash.toOption = some hash := by
  have hleftDefault : (memory left).HasDefaultIdentity := hleft ▸ .native leftValue
  have hrightDefault : (memory right).HasDefaultIdentity := hright ▸ .native rightValue
  rw [identical_iff hleftDefault hrightDefault, hleft, hright]
  refine or_congr Iff.rfl (exists_congr fun hash ↦ ?_)
  exact ⟨fun ⟨hfirst, hsecond, _⟩ ↦ ⟨hfirst, hsecond⟩,
    fun ⟨hfirst, hsecond⟩ ↦ ⟨hfirst, hsecond, .inl hfirst⟩⟩

/-- Identical places with native values have the same value. -/
theorem eq_of_identical (hleft : memory left = .native leftValue)
    (hright : memory right = .native rightValue) (hidentical : memory.Identical left right) :
    leftValue = rightValue := by
  rcases (identical_iff_of_native hleft hright).mp hidentical with rfl | ⟨hash, hfirst, hsecond⟩
  · exact Receiver.native.inj (hleft.symm.trans hright)
  · exact Value.eq_of_hash_eq hfirst hsecond

end Memory

namespace Operator

/-- Every value but a list equals itself. -/
theorem equal_self_iff (value : Value) :
    equal (.native value) (.native value) = true ↔ value.list? = none := by
  rw [equal_native_iff]
  cases value with
  | list cell items => exact iff_of_false (fun ⟨_, hkey, _⟩ ↦ nomatch hkey) nofun
  | _ => exact iff_of_true ⟨_, rfl, rfl⟩ rfl

/-- A value with a hash equals no other value with a hash. -/
theorem equal_iff_eq_of_hash {leftValue rightValue : Value} {leftHash rightHash : IdentityHash}
    (hleft : leftValue.identityHash.toOption = some leftHash)
    (hright : rightValue.identityHash.toOption = some rightHash) :
    equal (.native leftValue) (.native rightValue) = true ↔ leftValue = rightValue := by
  constructor
  · intro hequal
    obtain ⟨key, hleftKey, hrightKey⟩ := (equal_native_iff leftValue rightValue).mp hequal
    cases leftValue with
    | integer | boolean | text | list => cases hleft
    | null | function | object =>
      obtain rfl := Option.some.inj hleftKey
      cases rightValue with
      | integer | boolean | text | list => cases hright
      | null | function | object => cases hrightKey <;> rfl
  · rintro rfl
    rw [equal_self_iff]
    cases leftValue with
    | list => cases hleft
    | _ => rfl

end Operator

open Operator

/-- Identical values are one value, which equals itself unless it is a list.  Null, functions and
objects are equal exactly if they are identical. -/
theorem identical_values_equal_but_lists (memory : Memory) (left right : Nat)
    (leftValue rightValue : Value) (hleft : memory left = .native leftValue)
    (hright : memory right = .native rightValue) :
    (memory.Identical left right → leftValue = rightValue ∧
      (equal (memory left) (memory right) = true ↔ leftValue.list? = none)) ∧
    (equal (memory left) (memory left) = true ↔ leftValue.list? = none) ∧
    (leftValue.identityHash.toOption.isSome = true →
      rightValue.identityHash.toOption.isSome = true →
        (equal (memory left) (memory right) = true ↔ memory.Identical left right)) := by
  refine ⟨fun hidentical ↦ ?_, ?_, fun hleftSome hrightSome ↦ ?_⟩
  · obtain rfl := Memory.eq_of_identical hleft hright hidentical
    rw [hleft, hright]
    exact ⟨rfl, equal_self_iff leftValue⟩
  · rw [hleft]
    exact equal_self_iff leftValue
  · obtain ⟨leftHash, hleftHash⟩ := Option.isSome_iff_exists.mp hleftSome
    obtain ⟨rightHash, hrightHash⟩ := Option.isSome_iff_exists.mp hrightSome
    have hequal : equal (memory left) (memory right) = true ↔ leftValue = rightValue := by
      rw [hleft, hright]
      exact equal_iff_eq_of_hash hleftHash hrightHash
    rw [hequal]
    constructor
    · rintro rfl
      exact (Memory.identical_iff_of_native hleft hright).mpr
        (.inr ⟨leftHash, hleftHash, hleftHash⟩)
    · exact Memory.eq_of_identical hleft hright

/-- A list in its place, and an object in two places. -/
def valuePlaces : Memory
  | 0 => .native (.list ⟨0⟩ [])
  | _ => .native (.object ⟨0⟩)

theorem identical_values_equal_but_lists_valuePlaces :
    equal (valuePlaces 0) (valuePlaces 0) = false ∧ valuePlaces.Identical 0 0 ∧
      equal (valuePlaces 1) (valuePlaces 2) = true ∧
      (equal (valuePlaces 1) (valuePlaces 2) = true ↔ valuePlaces.Identical 1 2) := by
  obtain ⟨-, hlist, -⟩ := identical_values_equal_but_lists valuePlaces 0 0 _ _ rfl rfl
  obtain ⟨hidentical, -, hhashes⟩ := identical_values_equal_but_lists valuePlaces 1 2 _ _ rfl rfl
  have hnot : ¬ equal (valuePlaces 0) (valuePlaces 0) = true := fun hequal ↦
    nomatch hlist.mp hequal
  have hobject : equal (valuePlaces 1) (valuePlaces 2) = true :=
    (hidentical (by decide)).2.mpr rfl
  exact ⟨Bool.eq_false_iff.mpr hnot, by decide, hobject, hhashes rfl rfl⟩

/-- A list that is compared with itself is identical, and not equal. -/
theorem list_not_equal_to_itself :
    let steps : List Session.Step := [.define "list" (.value (.list [])),
      .identical (.slot "list") (.slot "list"),
      .operate .eq { operator := some .eq } (.slot "list") (.slot "list")]
    (Session.execute .cached 0 {} steps).map Prod.fst = .ok [(.text "[]", []),
      (.identity true .unknown .unknown none, []),
      (.result (.ok (.shown (.boolean false))), [])] :=
  rfl

end GuestCore
