import GuestCore.Operator

/-!
# What Operators See

An operator learns little of an operand: the native value behind it, which types recognise it, the
content of a number, a text or a truth value that it claims to be, and what it says of its own
identity and of the other operand's.  Operands that agree on this give the same results, type
errors included.
-/

namespace GuestCore

/-- What operators can learn of one operand.  A content counts only if the operand claims to have
one. -/
structure Profile where
  native? : Option Value
  accepts : LanguageType → Bool
  integer? : Option Int
  text? : Option String
  boolean? : Option Bool

namespace Receiver

def profile (receiver : Receiver) : Profile where
  native? := receiver.native?
  accepts := receiver.isInstance
  integer? := if receiver.isNumber then receiver.asInteger.toOption else none
  text? := if receiver.isText then receiver.asText.toOption else none
  boolean? := if receiver.isBoolean then receiver.asBoolean.toOption else none

theorem isInstance_of_type? {receiver : Receiver} {type : LanguageType}
    (htype : receiver.type? = some type) : receiver.isInstance type = true :=
  List.find?_some htype

/-- The text of a receiver without a native value, in terms of its profile. -/
theorem displayByType_eq (receiver : Receiver) :
    receiver.displayByType =
      match receiver.type? with
      | none => "Unsupported"
      | some .null => "NULL"
      | some .number => (receiver.profile.integer?.map Integer.display).getD "Unsupported"
      | some .text => receiver.profile.text?.getD "Unsupported"
      | some .boolean => (receiver.profile.boolean?.map Text.truth).getD "Unsupported"
      | some .function => LanguageType.function.name
      | some .object => LanguageType.object.name := by
  unfold displayByType
  cases htype : receiver.type? with
  | none => rfl
  | some type =>
    have haccepts := isInstance_of_type? htype
    cases type with
    | null | function | object => rfl
    | number =>
      have hnumber : receiver.isNumber = true := haccepts
      simp only [profile, hnumber, if_true]
      cases receiver.asInteger <;> rfl
    | text =>
      have htext : receiver.isText = true := haccepts
      simp only [profile, htext, if_true]
      cases receiver.asText <;> rfl
    | boolean =>
      have hboolean : receiver.isBoolean = true := haccepts
      simp only [profile, hboolean, if_true]
      cases receiver.asBoolean <;> rfl

section

variable {left right : Receiver} (hprofile : left.profile = right.profile)
include hprofile

theorem native?_eq_of_profile_eq : left.native? = right.native? :=
  congrArg Profile.native? hprofile

theorem isInstance_eq_of_profile_eq : left.isInstance = right.isInstance :=
  congrArg Profile.accepts hprofile

theorem isNull_eq_of_profile_eq : left.isNull = right.isNull :=
  congrFun (isInstance_eq_of_profile_eq hprofile) .null

theorem isText_eq_of_profile_eq : left.isText = right.isText :=
  congrFun (isInstance_eq_of_profile_eq hprofile) .text

theorem type?_eq_of_profile_eq : left.type? = right.type? := by
  rw [type?, type?, isInstance_eq_of_profile_eq hprofile]

theorem integer?_eq_of_profile_eq : left.integer? = right.integer? := by
  have hinteger : (if left.isNumber then left.asInteger.toOption else none) =
      if right.isNumber then right.asInteger.toOption else none :=
    congrArg Profile.integer? hprofile
  rw [integer?, integer?, native?_eq_of_profile_eq hprofile, hinteger]

theorem viewDisplay_eq_of_profile_eq (world : World) :
    left.viewDisplay world = right.viewDisplay world := by
  rw [viewDisplay, viewDisplay, native?_eq_of_profile_eq hprofile, displayByType_eq,
    displayByType_eq, type?_eq_of_profile_eq hprofile, hprofile]

end

/-! ## Identity -/

/-- The foreign value that the receiver is or shows. -/
def foreign? : Receiver → Option Foreign
  | foreign value => some value
  | view delegate => delegate.foreign?
  | native _ | descriptor _ | functions _ => none

/-- A receiver tells others apart only by the values behind them, unless it asks a foreign value
about them. -/
theorem identityAnswer_congr {receiver other other' : Receiver}
    (hnative : other.native? = other'.native?)
    (hforeign : ∀ value, receiver.foreign? = some value →
      value.identity other.peer = value.identity other'.peer) :
    receiver.identityAnswer other = receiver.identityAnswer other' := by
  induction receiver with
  | native value => exact congrArg value.identityAnswer hnative
  | descriptor type | functions registry => rfl
  | foreign value => exact hforeign value rfl
  | view delegate ih => exact ih hforeign

end Receiver

namespace Operator

open Receiver

/-! ## Type errors -/

theorem eq_typeError_of_onIntegers {compute : Int → Int → Scalar} {world : World}
    {operation : Operation} {left right : Receiver} {fault : Fault}
    (hfault : onIntegers compute world operation left right = .error fault) :
    fault = typeError world operation [left, right] := by
  unfold onIntegers at hfault
  split at hfault <;> cases hfault
  rfl

/-- Whatever the operator, it fails with the type error of its operands. -/
theorem eq_typeError_of_apply {world : World} {operator : BinaryOperator} {operation : Operation}
    {left right : Receiver} {fault : Fault}
    (hfault : apply world operator operation left right = .error fault) :
    fault = typeError world operation [left, right] := by
  cases operator with
  | add =>
    simp only [apply, add] at hfault
    split at hfault
    · cases hfault
    · split at hfault <;> cases hfault
      rfl
  | sub | mul | lt | le => exact eq_typeError_of_onIntegers hfault
  | eq => cases hfault

theorem describe_eq_of_profile_eq {left right : Receiver} (world : World)
    (hprofile : left.profile = right.profile) : describe world left = describe world right := by
  rw [describe, describe, type?_eq_of_profile_eq hprofile, isNull_eq_of_profile_eq hprofile,
    isText_eq_of_profile_eq hprofile, viewDisplay_eq_of_profile_eq hprofile]

theorem map_describe_eq_of_profile_eq {operands others : List Receiver} (world : World)
    (hprofiles : operands.map profile = others.map profile) :
    operands.map (describe world) = others.map (describe world) := by
  induction operands generalizing others with
  | nil =>
    obtain rfl := List.map_eq_nil_iff.mp hprofiles.symm
    rfl
  | cons operand rest ih =>
    obtain ⟨other, others, rfl, hother, hrest⟩ := List.map_eq_cons_iff.mp hprofiles.symm
    rw [List.map_cons, List.map_cons, describe_eq_of_profile_eq world hother, ih hrest.symm]

theorem typeError_eq_of_profile_eq {operands others : List Receiver} (world : World)
    (operation : Operation) (hprofiles : operands.map profile = others.map profile) :
    typeError world operation operands = typeError world operation others := by
  have hdescribed := map_describe_eq_of_profile_eq world hprofiles
  cases operands with
  | nil =>
    obtain rfl := List.map_eq_nil_iff.mp hprofiles.symm
    rfl
  | cons operand rest =>
    obtain ⟨other, others, rfl, -, -⟩ := List.map_eq_cons_iff.mp hprofiles.symm
    simp only [typeError, typeErrorMessage, hdescribed]

/-! ## Results -/

theorem joinText_eq_of_profile_eq {left right : Receiver} (world : World)
    (hprofile : left.profile = right.profile) : joinText world left = joinText world right := by
  rw [joinText, joinText, isNull_eq_of_profile_eq hprofile, native?_eq_of_profile_eq hprofile,
    type?_eq_of_profile_eq hprofile, viewDisplay_eq_of_profile_eq hprofile]

/-- Two pairs of operands that an operator cannot tell apart. -/
structure LookAlike (left right left' right' : Receiver) : Prop where
  leftProfile : left.profile = left'.profile
  rightProfile : right.profile = right'.profile
  leftAnswer : left.identityAnswer right = left'.identityAnswer right'
  rightAnswer : right.identityAnswer left = right'.identityAnswer left'

namespace LookAlike

variable {left right left' right' : Receiver}

theorem typeError_eq (halike : LookAlike left right left' right') (world : World)
    (operation : Operation) :
    typeError world operation [left, right] = typeError world operation [left', right'] := by
  apply typeError_eq_of_profile_eq
  simp [halike.leftProfile, halike.rightProfile]

theorem integers?_eq (halike : LookAlike left right left' right') :
    integers? left right = integers? left' right' := by
  rw [integers?, integers?, integer?_eq_of_profile_eq halike.leftProfile,
    integer?_eq_of_profile_eq halike.rightProfile]

theorem equal_eq (halike : LookAlike left right left' right') :
    equal left right = equal left' right' := by
  rw [equal, equal, native?_eq_of_profile_eq halike.leftProfile,
    native?_eq_of_profile_eq halike.rightProfile, halike.integers?_eq,
    isNull_eq_of_profile_eq halike.leftProfile, isNull_eq_of_profile_eq halike.rightProfile,
    eitherIdentifies, eitherIdentifies, halike.leftAnswer, halike.rightAnswer]

theorem onIntegers_eq (halike : LookAlike left right left' right')
    (compute : Int → Int → Scalar) (world : World) (operation : Operation) :
    onIntegers compute world operation left right =
      onIntegers compute world operation left' right' := by
  rw [onIntegers, onIntegers, halike.integers?_eq, halike.typeError_eq]

theorem add_eq (halike : LookAlike left right left' right') (world : World)
    (operation : Operation) :
    add world operation left right = add world operation left' right' := by
  rw [add, add, halike.integers?_eq, isText_eq_of_profile_eq halike.leftProfile,
    isText_eq_of_profile_eq halike.rightProfile, joinText_eq_of_profile_eq world halike.leftProfile,
    joinText_eq_of_profile_eq world halike.rightProfile, halike.typeError_eq]

theorem apply_eq (halike : LookAlike left right left' right') (world : World)
    (operator : BinaryOperator) (operation : Operation) :
    apply world operator operation left right = apply world operator operation left' right' := by
  cases operator with
  | add => exact halike.add_eq world operation
  | sub | mul | lt | le => exact halike.onIntegers_eq _ world operation
  | eq => rw [apply, apply, halike.equal_eq]

/-- An operator does the same to two pairs that it cannot tell apart, in every world. -/
theorem run_eq (halike : LookAlike left right left' right') (operator : BinaryOperator)
    (operation : Operation) :
    run operator operation left right = run operator operation left' right' := by
  funext world
  rw [run, run, halike.apply_eq]

end LookAlike

end Operator

end GuestCore
