import GuestCore.Proofs.Operands
import Mathlib.Data.List.Forall2

/-!
# Foreign Contents Stay Hidden

Views and operators learn nothing of a foreign value beyond its answers to the probes of the types,
the number, text or truth value that it claims to be, and what is said of its identity.  Two values
that agree on this may stand for each other in every operand, whatever their own texts, members,
elements, bodies, hashes and locations are.
-/

namespace GuestCore

/-- Two foreign values that no type of the language tells apart.  A content counts only where the
value claims to have it, and why it cannot be given does not count. -/
structure Foreign.AnswersAlike (first second : Foreign) : Prop where
  isNull : first.isNull = second.isNull
  isNumber : first.isNumber = second.isNumber
  isText : first.isText = second.isText
  isBoolean : first.isBoolean = second.isBoolean
  isExecutable : first.isExecutable = second.isExecutable
  hasMembers : first.hasMembers = second.hasMembers
  asInteger : first.isNumber = true → first.asInteger.toOption = second.asInteger.toOption
  asText : first.isText = true → first.asText.toOption = second.asText.toOption
  asBoolean : first.isBoolean = true → first.asBoolean.toOption = second.asBoolean.toOption

namespace Receiver

variable {first second : Foreign}

/-- The receiver as it was, or with the second foreign value in the place of the first. -/
inductive Replaced (first second : Foreign) : Receiver → Receiver → Prop where
  | kept (receiver : Receiver) : Replaced first second receiver receiver
  | replaced : Replaced first second (foreign first) (foreign second)
  | view {delegate delegate' : Receiver} : Replaced first second delegate delegate' →
      Replaced first second (view delegate) (view delegate')

/-- If the left side asks a foreign value about the right side, the answer is the same for both
pairs. -/
def SameIdentityAnswers (left right left' right' : Receiver) : Prop :=
  ∀ value value', left.foreign? = some value → left'.foreign? = some value' →
    value.identity right.peer = value'.identity right'.peer

theorem profile_foreign_eq (hfirst : first.native? = none) (hsecond : second.native? = none)
    (halike : first.AnswersAlike second) : (foreign first).profile = (foreign second).profile := by
  have haccepts : (foreign first).isInstance = (foreign second).isInstance := by
    funext type
    cases type with
    | null => exact halike.isNull
    | number => exact halike.isNumber
    | text => exact halike.isText
    | boolean => exact halike.isBoolean
    | function => exact halike.isExecutable
    | object => exact halike.hasMembers
  simp only [profile, Profile.mk.injEq, isNumber, isText, isBoolean, ← halike.isNumber,
    ← halike.isText, ← halike.isBoolean]
  exact ⟨hfirst.trans hsecond.symm, haccepts, ite_congr rfl halike.asInteger fun _ ↦ rfl,
    ite_congr rfl halike.asText fun _ ↦ rfl, ite_congr rfl halike.asBoolean fun _ ↦ rfl⟩

namespace Replaced

variable {receiver receiver' left right left' right' : Receiver}

theorem profile_eq (hprofile : (foreign first).profile = (foreign second).profile)
    (hreplaced : Replaced first second receiver receiver') :
    receiver.profile = receiver'.profile := by
  induction hreplaced with
  | kept receiver => rfl
  | replaced => exact hprofile
  | view _ ih => exact ih

theorem map_profile_eq (hprofile : (foreign first).profile = (foreign second).profile)
    {operands operands' : List Receiver}
    (hreplaced : List.Forall₂ (Replaced first second) operands operands') :
    operands.map profile = operands'.map profile := by
  rw [← List.forall₂_eq_eq_eq, List.forall₂_map_left_iff, List.forall₂_map_right_iff]
  exact hreplaced.imp fun _ _ ↦ profile_eq hprofile

/-- Besides foreign values, no receiver is asked that could know of the replacement. -/
theorem identityAnswer_eq (hleft : Replaced first second left left')
    (hnative : right.native? = right'.native?)
    (hanswers : SameIdentityAnswers left right left' right') :
    left.identityAnswer right = left'.identityAnswer right' := by
  induction hleft with
  | kept left =>
    exact identityAnswer_congr hnative fun value hvalue ↦ hanswers value value hvalue hvalue
  | replaced => exact hanswers first second rfl rfl
  | view _ ih => exact ih hanswers

theorem lookAlike (hprofile : (foreign first).profile = (foreign second).profile)
    (hleft : Replaced first second left left') (hright : Replaced first second right right')
    (hleftAnswers : SameIdentityAnswers left right left' right')
    (hrightAnswers : SameIdentityAnswers right left right' left') :
    Operator.LookAlike left right left' right' :=
  have hleftProfile := hleft.profile_eq hprofile
  have hrightProfile := hright.profile_eq hprofile
  { leftProfile := hleftProfile
    rightProfile := hrightProfile
    leftAnswer := hleft.identityAnswer_eq (native?_eq_of_profile_eq hrightProfile) hleftAnswers
    rightAnswer := hright.identityAnswer_eq (native?_eq_of_profile_eq hleftProfile) hrightAnswers }

end Replaced

end Receiver

open Receiver

/-- Two foreign values that answer alike may stand for each other in any place: views show the same,
type errors read the same, and operators have the same results and effects, as long as no foreign
value tells the two apart by identity. -/
theorem foreign_contents_concealed {first second : Foreign} (hfirst : first.native? = none)
    (hsecond : second.native? = none) (halike : first.AnswersAlike second) :
    (∀ receiver receiver' : Receiver, Replaced first second receiver receiver' →
      ∀ world, (view receiver).display world = (view receiver').display world) ∧
    (∀ operands operands' : List Receiver,
      List.Forall₂ (Replaced first second) operands operands' →
      ∀ (world : World) (operation : Operation),
        Operator.typeError world operation operands =
          Operator.typeError world operation operands') ∧
    ∀ left right left' right' : Receiver, Replaced first second left left' →
      Replaced first second right right' → SameIdentityAnswers left right left' right' →
      SameIdentityAnswers right left right' left' →
      ∀ (operator : BinaryOperator) (operation : Operation),
        Operator.run operator operation left right =
          Operator.run operator operation left' right' := by
  have hprofile := profile_foreign_eq hfirst hsecond halike
  refine ⟨?_, ?_, ?_⟩
  · intro receiver receiver' hreplaced world
    exact viewDisplay_eq_of_profile_eq (hreplaced.profile_eq hprofile) world
  · intro operands operands' hreplaced world operation
    exact Operator.typeError_eq_of_profile_eq world operation
      (Replaced.map_profile_eq hprofile hreplaced)
  · intro left right left' right' hleft hright hleftAnswers hrightAnswers operator operation
    exact (hleft.lookAlike hprofile hright hleftAnswers hrightAnswers).run_eq operator operation

/-- Two hosts with members, each of which knows itself only, on both sides of an operator and in a
view. -/
theorem foreign_contents_concealed_hosts :
    let knows (handle : Nat) : Peer → IdentityAnswer
      | .foreign other => .ofBool (handle = other)
      | _ => .unknown
    let first : Foreign :=
      { handle := 0, display := "\x7bsecret: 42\x7d", hasMembers := true,
        members? := some (.object ⟨0⟩), identity := knows 0, identityHash := .ok (.number 42) }
    let second : Foreign :=
      { handle := 1, display := "\x7bpin: 7\x7d", hasMembers := true, hasElements := true,
        members? := some (.object ⟨1⟩), identity := knows 1 }
    first.display ≠ second.display ∧
      (view (.foreign first)).display {} = (view (.foreign second)).display {} ∧
      ∀ operator operation,
        Operator.run operator operation (.foreign first) (.foreign first) =
          Operator.run operator operation (.foreign second) (.foreign second) := by
  intro knows first second
  have halike : first.AnswersAlike second := by
    constructor <;> first | rfl | nofun
  have hanswers :
      SameIdentityAnswers (.foreign first) (.foreign first) (.foreign second) (.foreign second) := by
    rintro value value' ⟨⟩ ⟨⟩
    rfl
  have hconcealed := foreign_contents_concealed rfl rfl halike
  exact ⟨by decide, hconcealed.1 _ _ .replaced {},
    hconcealed.2.2 _ _ _ _ .replaced .replaced hanswers hanswers⟩

end GuestCore
