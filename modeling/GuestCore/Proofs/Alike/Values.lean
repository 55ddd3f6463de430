import GuestCore.Proofs.Operands
import Mathlib.Data.List.Forall2
import Mathlib.Order.Basic

/-!
# Values That Are Alike

Two runs that differ in when names were first asked for give their functions different handles.
Values of the two runs are alike if they are the same but for the functions in them, which must
have the same name in the same registry.  Which functions these are changes as the runs go on, so
that all relations depend on a stage, and what is alike at one stage is so at all later ones.
-/

namespace GuestCore

/-! ## Stages -/

/-- What is known to both of two runs: which functions are alike, and some objects, registries and
dispatchers, which have the same handles on both sides. -/
structure Stage where
  functions : FunctionId → FunctionId → Prop
  objects : ObjectId → Prop
  registries : RegistryId → Prop
  dispatchers : DispatcherId → Prop

namespace Stage

/-- The later stage knows all that the earlier one knows. -/
structure Below (earlier later : Stage) : Prop where
  functions : ∀ {left right}, earlier.functions left right → later.functions left right
  objects : ∀ {object}, earlier.objects object → later.objects object
  registries : ∀ {registry}, earlier.registries registry → later.registries registry
  dispatchers : ∀ {dispatcher}, earlier.dispatchers dispatcher → later.dispatchers dispatcher

instance : Preorder Stage where
  le := Below
  le_refl _ := ⟨id, id, id, id⟩
  le_trans _ _ _ hfirst hsecond :=
    ⟨fun h ↦ hsecond.functions (hfirst.functions h), fun h ↦ hsecond.objects (hfirst.objects h),
      fun h ↦ hsecond.registries (hfirst.registries h),
      fun h ↦ hsecond.dispatchers (hfirst.dispatchers h)⟩

/-- The stage with more functions. -/
def withFunctions (stage : Stage) (functions : FunctionId → FunctionId → Prop) : Stage :=
  { stage with functions }

theorem le_withFunctions {stage : Stage} {functions : FunctionId → FunctionId → Prop}
    (hmore : ∀ {left right}, stage.functions left right → functions left right) :
    stage ≤ stage.withFunctions functions :=
  ⟨hmore, id, id, id⟩

def withObject (stage : Stage) (object : ObjectId) : Stage :=
  { stage with objects := fun other ↦ stage.objects other ∨ other = object }

def withRegistry (stage : Stage) (registry : RegistryId) : Stage :=
  { stage with registries := fun other ↦ stage.registries other ∨ other = registry }

def withDispatcher (stage : Stage) (dispatcher : DispatcherId) : Stage :=
  { stage with dispatchers := fun other ↦ stage.dispatchers other ∨ other = dispatcher }

theorem le_withObject (stage : Stage) (object : ObjectId) : stage ≤ stage.withObject object :=
  ⟨id, .inl, id, id⟩

theorem le_withRegistry (stage : Stage) (registry : RegistryId) :
    stage ≤ stage.withRegistry registry :=
  ⟨id, id, .inl, id⟩

theorem le_withDispatcher (stage : Stage) (dispatcher : DispatcherId) :
    stage ≤ stage.withDispatcher dispatcher :=
  ⟨id, id, id, .inl⟩

end Stage

variable {stage later : Stage}

/-! ## Values -/

/-- The values are the same but for functions. -/
inductive Value.Alike (stage : Stage) : Value → Value → Prop where
  | null : Alike stage .null .null
  | integer (value : Int) : Alike stage (.integer value) (.integer value)
  | boolean (value : Bool) : Alike stage (.boolean value) (.boolean value)
  | text (cell : CellId) (content : String) : Alike stage (.text cell content) (.text cell content)
  | function {left right : FunctionId} (halike : stage.functions left right) :
    Alike stage (.function left) (.function right)
  | object {object : ObjectId} (hobject : stage.objects object) :
    Alike stage (.object object) (.object object)
  | list (cell : CellId) {items others : List Value}
      (hitems : List.Forall₂ (Alike stage) items others) :
    Alike stage (.list cell items) (.list cell others)

namespace Value

variable {left right : Value}

mutual

theorem Alike.mono (hlater : stage ≤ later) : {left right : Value} → left.Alike stage right →
    left.Alike later right
  | null, _, .null => .null
  | integer _, _, .integer value => .integer value
  | boolean _, _, .boolean value => .boolean value
  | text _ _, _, .text cell content => .text cell content
  | function _, _, .function halike => .function (hlater.functions halike)
  | object _, _, .object hobject => .object (hlater.objects hobject)
  | list _ _, _, .list cell hitems => .list cell (allAlike_mono hlater hitems)

theorem allAlike_mono (hlater : stage ≤ later) : {items others : List Value} →
    List.Forall₂ (Alike stage) items others → List.Forall₂ (Alike later) items others
  | [], _, .nil => .nil
  | _ :: _, _, .cons hfirst hrest => .cons (hfirst.mono hlater) (allAlike_mono hlater hrest)

end

theorem Alike.object?_eq (halike : left.Alike stage right) : left.object? = right.object? := by
  cases halike <;> rfl

theorem Alike.function? (halike : left.Alike stage right) :
    Option.Rel stage.functions left.function? right.function? := by
  cases halike with
  | function halike => exact .some halike
  | _ => exact .none

theorem Alike.objects_of_object? (halike : left.Alike stage right) {object : ObjectId}
    (hobject : left.object? = some object) : stage.objects object := by
  cases halike with
  | object hknown =>
    obtain rfl := Option.some.inj hobject
    exact hknown
  | _ => cases hobject

mutual

theorem Alike.display_eq {leftWorld rightWorld : World}
    (hnames : ∀ {left right}, stage.functions left right →
      (leftWorld.functionState left).name = (rightWorld.functionState right).name) :
    {left right : Value} → left.Alike stage right →
      left.display leftWorld = right.display rightWorld
  | null, _, .null | integer _, _, .integer _ | boolean _, _, .boolean _ | text _ _, _, .text _ _
  | object _, _, .object _ => by simp only [display]
  | function _, _, .function halike => by simp only [display, hnames halike]
  | list _ _, _, .list _ hitems => by simp only [display, displayAll_eq hnames hitems]

theorem displayAll_eq {leftWorld rightWorld : World}
    (hnames : ∀ {left right}, stage.functions left right →
      (leftWorld.functionState left).name = (rightWorld.functionState right).name) :
    {items others : List Value} → List.Forall₂ (Alike stage) items others →
      displayAll leftWorld items = displayAll rightWorld others
  | [], _, .nil => by simp only [displayAll]
  | _ :: _, _, .cons hfirst hrest => by
    simp only [displayAll, hfirst.display_eq hnames, displayAll_eq hnames hrest]

end

end Value

/-! ## Bodies -/

namespace Body

variable {κ μ : Type} {related weaker : κ → μ → Prop}

/-- The bodies are the same but for related constants. -/
inductive Related (related : κ → μ → Prop) : Body κ → Body μ → Prop where
  | constant {value : κ} {other : μ} (hvalue : related value other) :
    Related related (.constant value) (.constant other)
  | argument (index : Nat) : Related related (.argument index) (.argument index)
  | argumentCount : Related related .argumentCount .argumentCount
  | depth : Related related .depth .depth
  | lookup (name : String) : Related related (.lookup name) (.lookup name)
  | list {items : List (Body κ)} {others : List (Body μ)}
      (hitems : List.Forall₂ (Related related) items others) :
    Related related (.list items) (.list others)
  | operator (operator : BinaryOperator) (operation : Operation) {left right : Body κ}
      {left' right' : Body μ} (hleft : Related related left left')
      (hright : Related related right right') :
    Related related (.operator operator operation left right)
      (.operator operator operation left' right')
  | choose {condition thenBranch elseBranch : Body κ} {condition' thenBranch' elseBranch' : Body μ}
      (hcondition : Related related condition condition')
      (hthen : Related related thenBranch thenBranch')
      (helse : Related related elseBranch elseBranch') :
    Related related (.choose condition thenBranch elseBranch)
      (.choose condition' thenBranch' elseBranch')
  | call (name : String) {arguments : List (Body κ)} {others : List (Body μ)}
      (harguments : List.Forall₂ (Related related) arguments others) :
    Related related (.call name arguments) (.call name others)
  | execute {callee : Body κ} {callee' : Body μ} {arguments : List (Body κ)}
      {others : List (Body μ)} (hcallee : Related related callee callee')
      (harguments : List.Forall₂ (Related related) arguments others) :
    Related related (.execute callee arguments) (.execute callee' others)
  | callAt (site name : String) {arguments : List (Body κ)} {others : List (Body μ)}
      (harguments : List.Forall₂ (Related related) arguments others) :
    Related related (.callAt site name arguments) (.callAt site name others)
  | executeAt (site : String) {callee : Body κ} {callee' : Body μ} {arguments : List (Body κ)}
      {others : List (Body μ)} (hcallee : Related related callee callee')
      (harguments : List.Forall₂ (Related related) arguments others) :
    Related related (.executeAt site callee arguments) (.executeAt site callee' others)
  | sequence {items : List (Body κ)} {others : List (Body μ)}
      (hitems : List.Forall₂ (Related related) items others) :
    Related related (.sequence items) (.sequence others)
  | register (name : String) {body : Body κ} {other : Body μ} (location : Option Location)
      (hbody : Related related body other) :
    Related related (.register name body location) (.register name other location)
  | registerBatch (identity : Nat) (names : List (String × Option Location))
      {bodies : List (Body κ)} {others : List (Body μ)}
      (hbodies : List.Forall₂ (Related related) bodies others) :
    Related related (.registerBatch identity names bodies) (.registerBatch identity names others)
  | readMember {object : Body κ} {other : Body μ} (member : String)
      (hobject : Related related object other) :
    Related related (.readMember object member) (.readMember other member)
  | writeMember {object value : Body κ} {object' value' : Body μ} (member : String)
      (hobject : Related related object object') (hvalue : Related related value value') :
    Related related (.writeMember object member value) (.writeMember object' member value')
  | removeMember {object : Body κ} {other : Body μ} (member : String)
      (hobject : Related related object other) :
    Related related (.removeMember object member) (.removeMember other member)
  | fail (member : String) : Related related (.fail member) (.fail member)
  | attempt {body fallback : Body κ} {body' fallback' : Body μ}
      (hbody : Related related body body') (hfallback : Related related fallback fallback') :
    Related related (.attempt body fallback) (.attempt body' fallback')

mutual

theorem Related.mono (hweaker : ∀ {value other}, related value other → weaker value other) :
    {body : Body κ} → {other : Body μ} → Related related body other → Related weaker body other
  | constant _, _, .constant hvalue => .constant (hweaker hvalue)
  | argument _, _, .argument index => .argument index
  | argumentCount, _, .argumentCount => .argumentCount
  | depth, _, .depth => .depth
  | lookup _, _, .lookup name => .lookup name
  | list _, _, .list hitems => .list (allRelated_mono hweaker hitems)
  | operator _ _ _ _, _, .operator op operation hleft hright =>
    .operator op operation (hleft.mono hweaker) (hright.mono hweaker)
  | choose _ _ _, _, .choose hcondition hthen helse =>
    .choose (hcondition.mono hweaker) (hthen.mono hweaker) (helse.mono hweaker)
  | call _ _, _, .call name harguments => .call name (allRelated_mono hweaker harguments)
  | execute _ _, _, .execute hcallee harguments =>
    .execute (hcallee.mono hweaker) (allRelated_mono hweaker harguments)
  | callAt _ _ _, _, .callAt site name harguments =>
    .callAt site name (allRelated_mono hweaker harguments)
  | executeAt _ _ _, _, .executeAt site hcallee harguments =>
    .executeAt site (hcallee.mono hweaker) (allRelated_mono hweaker harguments)
  | sequence _, _, .sequence hitems => .sequence (allRelated_mono hweaker hitems)
  | register _ _ _, _, .register name location hbody =>
    .register name location (hbody.mono hweaker)
  | registerBatch _ _ _, _, .registerBatch identity names hbodies =>
    .registerBatch identity names (allRelated_mono hweaker hbodies)
  | readMember _ _, _, .readMember member hobject => .readMember member (hobject.mono hweaker)
  | writeMember _ _ _, _, .writeMember member hobject hvalue =>
    .writeMember member (hobject.mono hweaker) (hvalue.mono hweaker)
  | removeMember _ _, _, .removeMember member hobject => .removeMember member (hobject.mono hweaker)
  | fail _, _, .fail member => .fail member
  | attempt _ _, _, .attempt hbody hfallback =>
    .attempt (hbody.mono hweaker) (hfallback.mono hweaker)

theorem allRelated_mono (hweaker : ∀ {value other}, related value other → weaker value other) :
    {bodies : List (Body κ)} → {others : List (Body μ)} →
      List.Forall₂ (Related related) bodies others → List.Forall₂ (Related weaker) bodies others
  | [], _, .nil => .nil
  | _ :: _, _, .cons hfirst hrest => .cons (hfirst.mono hweaker) (allRelated_mono hweaker hrest)

end

/-- The bodies are the same but for functions in their constants. -/
abbrev Alike (stage : Stage) : Body Value → Body Value → Prop :=
  Related (Value.Alike stage)

theorem Alike.mono {left right : Body Value} (halike : left.Alike stage right)
    (hlater : stage ≤ later) : left.Alike later right :=
  Related.mono (fun hvalue ↦ hvalue.mono hlater) halike

theorem allAlike_mono (hlater : stage ≤ later) {bodies others : List (Body Value)}
    (halike : List.Forall₂ (Alike stage) bodies others) :
    List.Forall₂ (Alike later) bodies others :=
  allRelated_mono (fun hvalue ↦ hvalue.mono hlater) halike

end Body

structure Definition.Alike (stage : Stage) (left right : Definition) : Prop where
  body : left.body.Alike stage right.body
  location_eq : left.location = right.location

theorem Definition.Alike.mono {left right : Definition} (halike : left.Alike stage right)
    (hlater : stage ≤ later) : left.Alike later right :=
  ⟨halike.body.mono hlater, halike.location_eq⟩

theorem optionRel_mono {α β : Type} {related weaker : α → β → Prop} {left : Option α}
    {right : Option β} (hrel : Option.Rel related left right)
    (hweaker : ∀ {left right}, related left right → weaker left right) :
    Option.Rel weaker left right := by
  cases hrel with
  | some hrelated => exact .some (hweaker hrelated)
  | none => exact .none

/-! ## Member tables -/

namespace Members

variable {α β : Type} {related weaker : α → β → Prop} {left : Members α} {right : Members β}

/-- The same names in the same order, with related contents. -/
def Related (related : α → β → Prop) (left : Members α) (right : Members β) : Prop :=
  List.Forall₂ (fun entry other ↦ entry.1 = other.1 ∧ related entry.2 other.2) left.entries
    right.entries

namespace Related

theorem empty : Related related (Members.empty : Members α) (Members.empty : Members β) :=
  .nil

theorem mono (hrelated : Related related left right)
    (hweaker : ∀ {value other}, related value other → weaker value other) :
    Related weaker left right :=
  hrelated.imp fun _ _ hentry ↦ ⟨hentry.1, hweaker hentry.2⟩

theorem keys_eq (hrelated : Related related left right) : left.keys = right.keys := by
  unfold Related at hrelated
  unfold keys
  generalize left.entries = entries, right.entries = others at *
  induction hrelated with
  | nil => rfl
  | cons hentry _ ih => simp only [List.map_cons, hentry.1, ih]

theorem get? (hrelated : Related related left right) (key : String) :
    Option.Rel related (left.get? key) (right.get? key) := by
  unfold Related at hrelated
  unfold Members.get?
  generalize left.entries = entries, right.entries = others at *
  induction hrelated with
  | nil => exact .none
  | @cons entry other _ _ hentry _ ih =>
    rw [List.lookup_cons, List.lookup_cons, ← hentry.1]
    cases key == entry.1 with
    | true => exact .some hentry.2
    | false => exact ih

theorem insert (hrelated : Related related left right) (key : String) {value : α} {other : β}
    (hvalue : related value other) :
    Related related (left.insert key value) (right.insert key other) := by
  unfold Related at hrelated
  change List.Forall₂ _ (insertEntry key value left.entries) (insertEntry key other right.entries)
  generalize left.entries = entries, right.entries = others at *
  induction hrelated with
  | nil => exact .cons ⟨rfl, hvalue⟩ .nil
  | @cons entry entry' _ _ hentry hrest ih =>
    rw [insertEntry, insertEntry, ← hentry.1]
    split
    · exact .cons ⟨rfl, hvalue⟩ hrest
    · exact .cons hentry ih

theorem erase (hrelated : Related related left right) (key : String) :
    Related related (left.erase key) (right.erase key) := by
  unfold Related at hrelated
  change List.Forall₂ _ (left.entries.filter _) (right.entries.filter _)
  generalize left.entries = entries, right.entries = others at *
  induction hrelated with
  | nil => exact .nil
  | @cons entry entry' _ _ hentry hrest ih =>
    rw [List.filter_cons, List.filter_cons, ← hentry.1]
    split
    · exact .cons hentry ih
    · exact ih

end Related

end Members

/-! ## Receivers -/

/-- Foreign values that differ at most in the functions among what they hold.  What such a value
says of its identity does not depend on whom it is asked about. -/
structure Foreign.Alike (stage : Stage) (left right : Foreign) : Prop where
  native : Option.Rel (Value.Alike stage) left.native? right.native?
  members : Option.Rel (Value.Alike stage) left.members? right.members?
  elements : Option.Rel (Value.Alike stage) left.elements? right.elements?
  body : Option.Rel (Body.Alike stage) left.body? right.body?
  rest_eq : right =
    { left with
      native? := right.native?
      members? := right.members?
      elements? := right.elements?
      body? := right.body? }
  steady : ∀ peer other, left.identity peer = left.identity other

theorem Foreign.Alike.mono {left right : Foreign} (halike : left.Alike stage right)
    (hlater : stage ≤ later) : left.Alike later right :=
  { halike with
    native := optionRel_mono halike.native fun hvalue ↦ hvalue.mono hlater
    members := optionRel_mono halike.members fun hvalue ↦ hvalue.mono hlater
    elements := optionRel_mono halike.elements fun hvalue ↦ hvalue.mono hlater
    body := optionRel_mono halike.body fun hbody ↦ hbody.mono hlater }

inductive Receiver.Alike (stage : Stage) : Receiver → Receiver → Prop where
  | native {left right : Value} (hvalue : left.Alike stage right) :
    Alike stage (.native left) (.native right)
  | descriptor (type : LanguageType) : Alike stage (.descriptor type) (.descriptor type)
  | functions (registry : RegistryId) : Alike stage (.functions registry) (.functions registry)
  | foreign {left right : Foreign} (hvalue : left.Alike stage right) :
    Alike stage (.foreign left) (.foreign right)
  | view {left right : Receiver} (hdelegate : Alike stage left right) :
    Alike stage (.view left) (.view right)

namespace Receiver

variable {left right : Receiver}

theorem Alike.mono (halike : left.Alike stage right) (hlater : stage ≤ later) :
    left.Alike later right := by
  induction halike with
  | native hvalue => exact .native (hvalue.mono hlater)
  | descriptor type => exact .descriptor type
  | functions registry => exact .functions registry
  | foreign hvalue => exact .foreign (hvalue.mono hlater)
  | view _ ih => exact .view ih

theorem Alike.native? (halike : left.Alike stage right) :
    Option.Rel (Value.Alike stage) left.native? right.native? := by
  induction halike with
  | native hvalue => exact .some hvalue
  | descriptor | functions => exact .none
  | foreign hvalue => exact hvalue.native
  | view _ ih => exact ih

/-- Operators see the same of both but for the values behind them. -/
theorem Alike.profile_eq (halike : left.Alike stage right) :
    { left.profile with native? := none } = { right.profile with native? := none } := by
  induction halike with
  | native hvalue => cases hvalue <;> rfl
  | descriptor | functions => rfl
  | foreign hvalue =>
    rw [hvalue.rest_eq]
    rfl
  | view _ ih => exact ih

theorem Alike.isInstance_eq (halike : left.Alike stage right) :
    left.isInstance = right.isInstance :=
  (congrArg Profile.accepts halike.profile_eq :)

theorem Alike.type?_eq (halike : left.Alike stage right) : left.type? = right.type? := by
  rw [type?, type?, halike.isInstance_eq]

theorem Alike.displayByType_eq (halike : left.Alike stage right) :
    left.displayByType = right.displayByType := by
  have hinteger : left.profile.integer? = right.profile.integer? :=
    (congrArg Profile.integer? halike.profile_eq :)
  have htext : left.profile.text? = right.profile.text? :=
    (congrArg Profile.text? halike.profile_eq :)
  have hboolean : left.profile.boolean? = right.profile.boolean? :=
    (congrArg Profile.boolean? halike.profile_eq :)
  rw [Receiver.displayByType_eq, Receiver.displayByType_eq, halike.type?_eq, hinteger, htext,
    hboolean]

theorem Alike.integer?_eq (halike : left.Alike stage right) : left.integer? = right.integer? := by
  have hinteger : (if left.isNumber then left.asInteger.toOption else none) =
      if right.isNumber then right.asInteger.toOption else none :=
    (congrArg Profile.integer? halike.profile_eq :)
  have hnative := halike.native?
  rw [integer?, integer?, hinteger]
  generalize left.native? = value, right.native? = other at hnative
  cases hnative with
  | none => rfl
  | some hvalue => cases hvalue <;> rfl

end Receiver

end GuestCore
