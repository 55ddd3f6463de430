import GuestCore.Proofs.Operands

/-!
# Type Errors Follow the Types of Operands

A type error shows every operand by its type: null by its text alone, a text in quotes, everything
else by the name of its type and its text.  The quotes are put where the operand is accepted as a
text, not where text is its type.  So an operand that is also accepted as null or as a number gets
quotes that its type does not call for, and the message follows the types exactly if there is no
such operand.
-/

namespace GuestCore

namespace Receiver

/-- The operand as its type calls for. -/
def shownByType (world : World) (operand : Receiver) : String :=
  match operand.type? with
  | none => "ANY"
  | some .null => operand.viewDisplay world
  | some .text => "String \"" ++ operand.viewDisplay world ++ "\""
  | some type => type.name ++ " " ++ operand.viewDisplay world

/-- Whether the operand is accepted as a text although text is not its type. -/
def hidesText (operand : Receiver) : Bool :=
  operand.isText && operand.type? != some .text

variable {operand : Receiver}

theorem isNull_iff : operand.isNull = true ↔ operand.type? = some .null := by
  constructor
  · intro hnull
    simp [type?, LanguageType.precedence, isInstance, hnull]
  · exact isInstance_of_type?

/-- Only null and number are tried before text. -/
theorem type?_of_isText (htext : operand.isText = true) :
    operand.type? = some .null ∨ operand.type? = some .number ∨ operand.type? = some .text := by
  cases hnull : operand.isNull with
  | true => exact .inl (isNull_iff.mp hnull)
  | false =>
    cases hnumber : operand.isNumber with
    | true => simp [type?, LanguageType.precedence, isInstance, hnull, hnumber]
    | false => simp [type?, LanguageType.precedence, isInstance, hnull, hnumber, htext]

theorem hidesText_iff : operand.hidesText = true ↔
    operand.isText = true ∧ (operand.type? = some .null ∨ operand.type? = some .number) := by
  rw [hidesText, Bool.and_eq_true, bne_iff_ne]
  refine and_congr_right fun htext ↦ ?_
  rcases type?_of_isText htext with htype | htype | htype <;> rw [htype] <;> decide

end Receiver

namespace Operator

open Receiver

variable {operand : Receiver}

/-! ## One operand -/

theorem describe_of_not_hidesText (world : World) (hhides : operand.hidesText = false) :
    describe world operand = operand.shownByType world := by
  rw [describe, shownByType]
  cases htype : operand.type? with
  | none => rfl
  | some type =>
    have hnull : operand.isNull = decide (type = .null) := by
      rw [Bool.eq_iff_iff, isNull_iff, htype, decide_eq_true_eq, Option.some_inj]
    have htext : operand.isText = decide (type = .text) := by
      rw [hidesText, htype] at hhides
      cases type with
      | text => exact isInstance_of_type? htype
      | _ => simpa using hhides
    rw [hnull, htext]
    cases type with
    | text => simp [LanguageType.name, ← String.append_assoc]
    | _ => simp [LanguageType.name]

/-- An operand that hides a text is shown like a text, under the name of its type. -/
theorem describe_of_hidesText (world : World) (hhides : operand.hidesText = true) :
    operand.type? = some .null ∧
        describe world operand = "\"" ++ operand.viewDisplay world ++ "\"" ∨
      operand.type? = some .number ∧
        describe world operand = "Number \"" ++ operand.viewDisplay world ++ "\"" := by
  obtain ⟨htext, htype | htype⟩ := hidesText_iff.mp hhides
  · refine .inl ⟨htype, ?_⟩
    simp [describe, htype, isNull_iff.mpr htype, htext]
  · have hnull : operand.isNull = false := by
      rw [Bool.eq_false_iff, Ne, isNull_iff, htype]
      decide
    refine .inr ⟨htype, ?_⟩
    simp [describe, htype, hnull, htext, LanguageType.name, ← String.append_assoc]

/-- Quotes that the type does not call for make the text longer. -/
theorem length_describe (world : World) (operand : Receiver) :
    (describe world operand).length =
      (operand.shownByType world).length + if operand.hidesText then 2 else 0 := by
  cases hhides : operand.hidesText with
  | false => simp [describe_of_not_hidesText world hhides]
  | true =>
    rcases describe_of_hidesText world hhides with ⟨htype, hdescribe⟩ | ⟨htype, hdescribe⟩
    · have hquote : "\"".length = 1 := rfl
      simp only [hdescribe, shownByType, htype, String.length_append, hquote, if_true]
      omega
    · have hname : "Number \"".length = "Number".length + " ".length + 1 := rfl
      have hquote : "\"".length = 1 := rfl
      simp only [hdescribe, shownByType, htype, LanguageType.name, String.length_append, hname,
        hquote, if_true]
      omega

/-! ## All operands -/

/-- Texts behind one another, the first after a blank and every other one after a comma. -/
def listed : List String → String
  | [] => ""
  | first :: rest => " " ++ first ++ String.join (rest.map (", " ++ ·))

/-- What a type error says before the operands. -/
def typeErrorHeading (operation : Operation) : String :=
  let place := (operation.location.map fun location ↦
    " at " ++ location.file ++ ":" ++ location.line.repr ++ ":" ++ location.column.repr).getD ""
  let name := (operation.name.map fun name ↦ " \"" ++ name ++ "\"").getD ""
  "Type error" ++ place ++ ": operation" ++ name ++ " not defined for"

theorem append_join_eq_commaSeparated (first : String) (rest : List String) :
    first ++ String.join (rest.map (", " ++ ·)) = Text.commaSeparated (first :: rest) := by
  induction rest generalizing first with
  | nil => simp [Text.commaSeparated]
  | cons second rest ih =>
    have hrest := ih second
    unfold Text.commaSeparated at hrest ⊢
    rw [String.intercalate_cons_cons, ← hrest, List.map_cons, String.join_cons]
    simp only [String.append_assoc]

theorem typeErrorMessage_eq (world : World) (operation : Operation) (operands : List Receiver) :
    typeErrorMessage world operation operands =
      typeErrorHeading operation ++ listed (operands.map (describe world)) := by
  obtain ⟨name, location⟩ := operation
  unfold typeErrorMessage typeErrorHeading
  cases operands with
  | nil => cases name <;> cases location <;> simp [listed, Location.display, String.append_assoc]
  | cons operand rest =>
    have hlisted : listed ((operand :: rest).map (describe world)) =
        " " ++ Text.commaSeparated ((operand :: rest).map (describe world)) := by
      rw [List.map_cons, listed, String.append_assoc, append_join_eq_commaSeparated]
    rw [hlisted]
    cases name <;> cases location <;> simp [Location.display, String.append_assoc]

theorem length_join_map_describe (world : World) (operands : List Receiver) :
    (String.join ((operands.map (describe world)).map (", " ++ ·))).length =
      (String.join ((operands.map (shownByType world)).map (", " ++ ·))).length +
        2 * operands.countP hidesText := by
  induction operands with
  | nil => rfl
  | cons operand rest ih =>
    simp only [List.map_cons, String.join_cons, String.length_append, length_describe, ih,
      List.countP_cons]
    split <;> omega

/-- The more operands hide a text, the longer the message is. -/
theorem length_listed_describe (world : World) (operands : List Receiver) :
    (listed (operands.map (describe world))).length =
      (listed (operands.map (shownByType world))).length + 2 * operands.countP hidesText := by
  cases operands with
  | nil => rfl
  | cons operand rest =>
    simp only [List.map_cons, listed, String.length_append, length_describe,
      length_join_map_describe, List.countP_cons]
    split <;> omega

theorem listed_describe_eq_iff (world : World) (operands : List Receiver) :
    listed (operands.map (describe world)) = listed (operands.map (shownByType world)) ↔
      ∀ operand ∈ operands, operand.hidesText = false := by
  constructor
  · intro hequal operand hmember
    have hlength := length_listed_describe world operands
    rw [hequal] at hlength
    have hcount : operands.countP hidesText = 0 := by omega
    exact Bool.eq_false_iff.mpr (List.countP_eq_zero.mp hcount operand hmember)
  · intro hhides
    exact congrArg listed (List.map_congr_left fun operand hmember ↦
      describe_of_not_hidesText world (hhides operand hmember))

/-- The text of a type error, for any operation and any operands. -/
structure TellsOperands (world : World) (operation : Operation) (operands : List Receiver)
    (fault : Fault) : Prop where
  location_eq : fault.location = operation.location
  kind_eq : fault.kind =
    .typeError (typeErrorHeading operation ++ listed (operands.map (describe world)))
  /-- Every operand is shown as its type calls for, exactly if none hides a text. -/
  follows_types_iff :
    fault.kind =
        .typeError (typeErrorHeading operation ++ listed (operands.map (shownByType world))) ↔
      ∀ operand ∈ operands, operand.hidesText = false
  shown : ∀ operand ∈ operands, operand.hidesText = false →
    describe world operand = operand.shownByType world
  quoted : ∀ operand ∈ operands, operand.hidesText = true →
    operand.type? = some .null ∧
        describe world operand = "\"" ++ operand.viewDisplay world ++ "\"" ∨
      operand.type? = some .number ∧
        describe world operand = "Number \"" ++ operand.viewDisplay world ++ "\""

/-- A type error follows the types of its operands up to the quotes of hidden texts. -/
theorem type_error_tells_operands (world : World) (operation : Operation)
    (operands : List Receiver) :
    TellsOperands world operation operands (typeError world operation operands) where
  location_eq := rfl
  kind_eq := congrArg FaultKind.typeError (typeErrorMessage_eq world operation operands)
  follows_types_iff := by
    rw [← listed_describe_eq_iff world, typeError, FaultKind.typeError.injEq,
      typeErrorMessage_eq, String.append_right_inj]
  shown operand _ hhides := describe_of_not_hidesText world hhides
  quoted operand _ hhides := describe_of_hidesText world hhides

/-- A null and a number that are also accepted as texts get quotes. -/
theorem type_error_quotes_null_and_number :
    let null : Receiver := .foreign { handle := 0, isNull := true, isText := true }
    let number : Receiver :=
      .foreign { handle := 1, isNumber := true, asInteger := .ok 5, isText := true }
    let operation : Operation := .named "-"
    let calledFor : String :=
      typeErrorHeading operation ++ listed ([null, number].map (shownByType {}))
    null.type? = some .null ∧ number.type? = some .number ∧
      calledFor = "Type error: operation \"-\" not defined for NULL, Number 5" ∧
      (typeError {} operation [null, number]).kind =
        .typeError "Type error: operation \"-\" not defined for \"NULL\", Number \"5\"" ∧
      (typeError {} operation [null, number]).kind ≠ .typeError calledFor := by
  decide +kernel

end Operator

end GuestCore
