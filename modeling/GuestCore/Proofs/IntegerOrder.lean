import GuestCore.Proofs.Operands

/-!
# Operators Agree on the Integers

Comparison, subtraction and equality of two operands that stand for integers are those of the
integers: exactly one of "less", "equal" and "greater" holds, and the sign of the difference tells
which.  Equality looks at native values first and the other operators do not, so this needs that no
foreign operand passes for a native value.  On all other operands addition joins texts, and every
operator that is not defined fails with the same type error.
-/

namespace GuestCore

/-- The operators that are defined on integers only. -/
def BinaryOperator.needsIntegers : BinaryOperator → Bool
  | sub | mul | lt | le => true
  | add | eq => false

/-- A type error at the place of an operation. -/
structure Fault.IsTypeErrorOf (fault : Fault) (operation : Operation) : Prop where
  kind_eq : ∃ message, fault.kind = .typeError message
  location_eq : fault.location = operation.location

namespace Receiver

/-- A receiver that is or shows anything but a foreign value which passes for a native one. -/
def AnswersForItself : Receiver → Prop
  | native _ | descriptor _ | functions _ => True
  | foreign value => value.native? = none
  | view delegate => delegate.AnswersForItself

/-- The integer of such a receiver is its native value, or there is none behind it. -/
theorem AnswersForItself.native?_of_integer? {receiver : Receiver}
    (hself : receiver.AnswersForItself) {number : Int} (hnumber : receiver.integer? = some number) :
    receiver.native? = some (.integer number) ∨ receiver.native? = none := by
  induction receiver with
  | native value =>
    cases value with
    | integer value => exact .inl (congrArg (some ∘ Value.integer) (Option.some.inj hnumber))
    | _ => cases hnumber
  | descriptor type | functions registry => exact .inr rfl
  | foreign value => exact .inr hself
  | view delegate ih => exact ih hself hnumber

end Receiver

namespace Operator

open Receiver

variable {left right : Receiver}

/-! ## Operands that stand for integers -/

section Integers

variable {a b : Int}

theorem integers?_of_integer? (hleft : left.integer? = some a) (hright : right.integer? = some b) :
    integers? left right = some (a, b) := by
  rw [integers?, hleft, hright]

theorem onIntegers_of_integer? (hleft : left.integer? = some a) (hright : right.integer? = some b)
    (compute : Int → Int → Scalar) (world : World) (operation : Operation) :
    onIntegers compute world operation left right = .ok (compute a b) := by
  rw [onIntegers, integers?_of_integer? hleft hright]

theorem add_of_integer? (hleft : left.integer? = some a) (hright : right.integer? = some b)
    (world : World) (operation : Operation) :
    add world operation left right = .ok (.integer (a + b)) := by
  rw [add, integers?_of_integer? hleft hright]

/-- The shortcut for native values and the comparison of the integers give the same. -/
theorem equal_of_integer? (hleft : left.integer? = some a) (hright : right.integer? = some b)
    (hleftSelf : left.AnswersForItself) (hrightSelf : right.AnswersForItself) :
    equal left right = (a == b) := by
  rw [equal, integers?_of_integer? hleft hright]
  rcases hleftSelf.native?_of_integer? hleft with hleft | hleft <;>
    rcases hrightSelf.native?_of_integer? hright with hright | hright <;>
    rw [hleft, hright] <;> rfl

/-- All operators on operands that stand for the given integers. -/
structure ActsOnIntegers (world : World) (operation : Operation) (left right : Receiver)
    (a b : Int) : Prop where
  add_eq : add world operation left right = .ok (.integer (a + b))
  sub_eq : sub world operation left right = .ok (.integer (a - b))
  mul_eq : mul world operation left right = .ok (.integer (a * b))
  /-- Exactly one of the three relations holds. -/
  trichotomy : ∃ less greater, lt world operation left right = .ok (.boolean less) ∧
    lt world operation right left = .ok (.boolean greater) ∧
      [less, equal left right, greater].count true = 1
  le_eq : ∃ less, lt world operation left right = .ok (.boolean less) ∧
    le world operation left right = .ok (.boolean (less || equal left right))
  /-- The difference is below zero exactly if the left side is less. -/
  lt_eq_lt_zero : ∀ difference, sub world operation left right = .ok (.integer difference) →
    lt world operation left right =
      lt world operation (.native (.integer difference)) (.native (.integer 0))

theorem actsOnIntegers (hleft : left.integer? = some a) (hright : right.integer? = some b)
    (hleftSelf : left.AnswersForItself) (hrightSelf : right.AnswersForItself) (world : World)
    (operation : Operation) : ActsOnIntegers world operation left right a b := by
  have hequal := equal_of_integer? hleft hright hleftSelf hrightSelf
  have hsub : sub world operation left right = .ok (.integer (a - b)) :=
    onIntegers_of_integer? hleft hright _ world operation
  have hlt : lt world operation left right = .ok (.boolean (a < b)) :=
    onIntegers_of_integer? hleft hright _ world operation
  have hgt : lt world operation right left = .ok (.boolean (b < a)) :=
    onIntegers_of_integer? hright hleft _ world operation
  have hle : le world operation left right = .ok (.boolean (a ≤ b)) :=
    onIntegers_of_integer? hleft hright _ world operation
  refine ⟨add_of_integer? hleft hright world operation, hsub,
    onIntegers_of_integer? hleft hright _ world operation, ⟨_, _, hlt, hgt, ?_⟩, ⟨_, hlt, ?_⟩, ?_⟩
  · rw [hequal]
    rcases Int.lt_trichotomy a b with hless | rfl | hgreater
    · simp [hless, Int.ne_of_lt hless, Int.not_lt.mpr (Int.le_of_lt hless)]
    · simp
    · simp [hgreater, Int.ne_of_gt hgreater, Int.not_lt.mpr (Int.le_of_lt hgreater)]
  · have hor : decide (a ≤ b) = (decide (a < b) || a == b) := by
      rw [Bool.eq_iff_iff]
      simp only [decide_eq_true_eq, Bool.or_eq_true, beq_iff_eq]
      omega
    rw [hle, hequal, hor]
  · intro difference hdifference
    obtain rfl : difference = a - b :=
      Scalar.integer.inj (Except.ok.inj (hdifference.symm.trans hsub))
    have hzero : decide (a - b < 0) = decide (a < b) := by
      rw [decide_eq_decide]
      omega
    rw [hlt, ← hzero]
    rfl

end Integers

/-! ## Other operands -/

/-- The text that an operand adds to a text. -/
inductive JoinsAs (world : World) (operand : Receiver) : String → Prop where
  | null (hnull : operand.isNull = true) : JoinsAs world operand "null"
  | native (hnull : operand.isNull = false) {value : Value}
      (hnative : operand.native? = some value) : JoinsAs world operand (value.display world)
  | scalar (hnull : operand.isNull = false) (hnative : operand.native? = none)
      {type : LanguageType} (htype : operand.type? = some type)
      (hscalar : type ∈ [.number, .text, .boolean]) :
      JoinsAs world operand (operand.viewDisplay world)
  | other (hnull : operand.isNull = false) (hnative : operand.native? = none)
      (htype : ∀ type ∈ [LanguageType.number, .text, .boolean], operand.type? ≠ some type) :
      JoinsAs world operand "[foreign object]"

theorem joinsAs_joinText (world : World) (operand : Receiver) :
    JoinsAs world operand (joinText world operand) := by
  unfold joinText
  cases hnull : operand.isNull with
  | true => exact .null hnull
  | false =>
    cases hnative : operand.native? with
    | some value => exact .native hnull hnative
    | none =>
      rw [if_neg Bool.false_ne_true]
      dsimp only
      split
      · next htype => exact .scalar hnull hnative htype (by decide)
      · next htype => exact .scalar hnull hnative htype (by decide)
      · next htype => exact .scalar hnull hnative htype (by decide)
      · next hnumber htext hboolean => exact .other hnull hnative (by simp_all)

theorem isTypeErrorOf_typeError (world : World) (operation : Operation)
    (operands : List Receiver) : (typeError world operation operands).IsTypeErrorOf operation :=
  ⟨⟨_, rfl⟩, rfl⟩

theorem integers?_eq_none (hnot : ¬ (left.integer?.isSome ∧ right.integer?.isSome)) :
    integers? left right = none := by
  unfold integers?
  cases hleft : left.integer? <;> cases hright : right.integer? <;> simp_all

theorem apply_of_needsIntegers {operator : BinaryOperator}
    (hneeds : operator.needsIntegers = true) :
    ∃ compute, ∀ world operation left right,
      apply world operator operation left right =
        onIntegers compute world operation left right := by
  cases operator with
  | add | eq => cases hneeds
  | sub | mul | lt | le => exact ⟨_, fun _ _ _ _ ↦ rfl⟩

/-- All operators but equality on two operands of which not both stand for integers. -/
structure ActsOnOthers (world : World) (operation : Operation) (left right : Receiver) :
    Prop where
  /-- Addition fails in the same way as the operators that need integers. -/
  fails : ∃ fault : Fault, fault.IsTypeErrorOf operation ∧
    (∀ operator, operator.needsIntegers = true →
      apply world operator operation left right = .error fault) ∧
    (left.isText = false → right.isText = false → add world operation left right = .error fault)
  joins : left.isText = true ∨ right.isText = true → ∃ first second,
    JoinsAs world left first ∧ JoinsAs world right second ∧
      add world operation left right = .ok (.text (first ++ second))

theorem actsOnOthers (hnone : integers? left right = none) (world : World)
    (operation : Operation) : ActsOnOthers world operation left right where
  fails := by
    refine ⟨_, isTypeErrorOf_typeError world operation [left, right], ?_, ?_⟩
    · intro operator hneeds
      obtain ⟨compute, happly⟩ := apply_of_needsIntegers hneeds
      rw [happly, onIntegers, hnone]
    · intro hleft hright
      simp [add, hnone, hleft, hright]
  joins := by
    intro htext
    refine ⟨_, _, joinsAs_joinText world left, joinsAs_joinText world right, ?_⟩
    simp [add, hnone, htext]

/-! ## Any operands -/

/-- The operators that need integers are defined where both operands stand for one. -/
theorem exists_apply_iff {operator : BinaryOperator} (hneeds : operator.needsIntegers = true)
    (world : World) (operation : Operation) (left right : Receiver) :
    (∃ result, apply world operator operation left right = .ok result) ↔
      left.integer?.isSome ∧ right.integer?.isSome := by
  obtain ⟨compute, happly⟩ := apply_of_needsIntegers hneeds
  rw [happly, onIntegers]
  constructor
  · rintro ⟨result, hresult⟩
    refine Decidable.byContradiction fun hnot ↦ ?_
    rw [integers?_eq_none hnot] at hresult
    cases hresult
  · rintro ⟨hleft, hright⟩
    obtain ⟨a, hleft⟩ := Option.isSome_iff_exists.mp hleft
    obtain ⟨b, hright⟩ := Option.isSome_iff_exists.mp hright
    rw [integers?_of_integer? hleft hright]
    exact ⟨compute a b, rfl⟩

theorem isTypeErrorOf_of_apply_eq_error {world : World} {operator : BinaryOperator}
    {operation : Operation} {fault : Fault}
    (hfault : apply world operator operation left right = .error fault) :
    fault.IsTypeErrorOf operation := by
  rw [eq_typeError_of_apply hfault]
  exact isTypeErrorOf_typeError world operation [left, right]

/-- Where operators are defined, what they compute there, and how they fail elsewhere. -/
structure OrdersIntegers (world : World) (operation : Operation) (left right : Receiver) :
    Prop where
  succeeds_iff : ∀ operator : BinaryOperator, operator.needsIntegers = true →
    ((∃ result, apply world operator operation left right = .ok result) ↔
      left.integer?.isSome ∧ right.integer?.isSome)
  swaps : ∀ operator : BinaryOperator, operator.needsIntegers = true →
    (∃ result, apply world operator operation left right = .ok result) →
      ∃ result, apply world operator operation right left = .ok result
  on_integers : ∀ a b, left.integer? = some a → right.integer? = some b →
    ActsOnIntegers world operation left right a b
  on_others : ¬ (left.integer?.isSome ∧ right.integer?.isSome) →
    ActsOnOthers world operation left right
  fails_with : ∀ operator fault, apply world operator operation left right = .error fault →
    fault.IsTypeErrorOf operation

theorem ordersIntegers_of_answersForItself (world : World) (operation : Operation)
    {left right : Receiver} (hleft : left.AnswersForItself) (hright : right.AnswersForItself) :
    OrdersIntegers world operation left right where
  succeeds_iff operator hneeds := exists_apply_iff hneeds world operation left right
  swaps operator hneeds hresult := by
    rw [exists_apply_iff hneeds] at hresult ⊢
    exact hresult.symm
  on_integers a b hleftInteger hrightInteger :=
    actsOnIntegers hleftInteger hrightInteger hleft hright world operation
  on_others hnot := actsOnOthers (integers?_eq_none hnot) world operation
  fails_with operator fault hfault := isTypeErrorOf_of_apply_eq_error hfault

/-- A host that gives the number two, shown through a view, is less than the native five, and the
text that a broken number adds to a text is that of an unsupported value. -/
theorem ordersIntegers_hosts :
    let two : Receiver := .view (.foreign { handle := 0, isNumber := true, asInteger := .ok 2 })
    let five : Receiver := .native (.integer 5)
    let broken : Receiver := .foreign { handle := 1, isNumber := true }
    let text : Receiver := .native (.text ⟨0⟩ "n = ")
    OrdersIntegers {} .unknown two five ∧ two.integer? = some 2 ∧ five.integer? = some 5 ∧
      lt {} .unknown two five = .ok (.boolean true) ∧
      OrdersIntegers {} .unknown text broken ∧ broken.integer? = none ∧
      add {} .unknown text broken = .ok (.text "n = Unsupported") := by
  intro two five broken text
  refine ⟨ordersIntegers_of_answersForItself {} .unknown rfl trivial, rfl, rfl, rfl,
    ordersIntegers_of_answersForItself {} .unknown trivial rfl, rfl, ?_⟩
  cbv

end Operator

end GuestCore
