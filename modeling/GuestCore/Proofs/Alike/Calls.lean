import GuestCore.Proofs.Alike.Functions
import GuestCore.Proofs.Interpretation

/-!
# Calls in Worlds That Are Alike

Alike operands give the same results, whatever an operator shows of them.  So whatever bodies do by
themselves ends alike in alike worlds: with the same fault, or with alike values, and in worlds that
are still alike.  The same holds of calls if it holds of what they run.
-/

namespace GuestCore

variable {loose : RegistryId → String → Bool} {stage later : Stage}

/-! ## Operators -/

namespace World.Alike

variable {leftWorld rightWorld : World} {left right left' right' : Receiver}

theorem viewDisplay_eq (hworlds : World.Alike loose stage leftWorld rightWorld)
    (halike : left.Alike stage left') :
    left.viewDisplay leftWorld = left'.viewDisplay rightWorld := by
  have hnative := halike.native?
  rw [Receiver.viewDisplay, Receiver.viewDisplay, halike.displayByType_eq]
  generalize left.native? = value, left'.native? = other at hnative
  cases hnative with
  | none => rfl
  | some hvalue => exact hvalue.display_eq hworlds.name_eq

theorem describe_eq (hworlds : World.Alike loose stage leftWorld rightWorld)
    (halike : left.Alike stage left') :
    Operator.describe leftWorld left = Operator.describe rightWorld left' := by
  have hnull : left.isNull = left'.isNull := congrFun halike.isInstance_eq .null
  have htext : left.isText = left'.isText := congrFun halike.isInstance_eq .text
  rw [Operator.describe, Operator.describe, halike.type?_eq, hworlds.viewDisplay_eq halike, hnull,
    htext]

theorem joinText_eq (hworlds : World.Alike loose stage leftWorld rightWorld)
    (halike : left.Alike stage left') :
    Operator.joinText leftWorld left = Operator.joinText rightWorld left' := by
  have hnative := halike.native?
  have hnull : left.isNull = left'.isNull := congrFun halike.isInstance_eq .null
  rw [Operator.joinText, Operator.joinText, halike.type?_eq, hworlds.viewDisplay_eq halike, hnull]
  generalize left.native? = value, left'.native? = other at hnative
  cases hnative with
  | none => rfl
  | some hvalue => dsimp only; rw [hvalue.display_eq hworlds.name_eq]

/-- Functions that are alike are identical to each other on both sides or on none. -/
theorem identityAnswer_eq (hworlds : World.Alike loose stage leftWorld rightWorld)
    (hleft : left.Alike stage left') (hright : right.Alike stage right') :
    left.identityAnswer right = left'.identityAnswer right' := by
  induction hleft with
  | native hvalue =>
    have hnative := hright.native?
    rw [Receiver.identityAnswer, Receiver.identityAnswer]
    generalize right.native? = known, right'.native? = known' at hnative
    cases hnative with
    | none => cases hvalue <;> rfl
    | some hother =>
      cases hvalue with
      | function halike =>
        cases hother with
        | function halike' =>
          simp only [Value.identityAnswer, hworlds.function_eq_iff halike halike']
        | _ => rfl
      | _ => cases hother <;> rfl
  | descriptor | functions => rfl
  | foreign hvalue =>
    rw [Receiver.identityAnswer, Receiver.identityAnswer, hvalue.rest_eq]
    exact hvalue.steady _ _
  | view _ ih => exact ih

theorem equal_eq (hworlds : World.Alike loose stage leftWorld rightWorld)
    (hleft : left.Alike stage left') (hright : right.Alike stage right') :
    Operator.equal left right = Operator.equal left' right' := by
  have hscalars : Operator.equalScalars? left.native? right.native? =
      Operator.equalScalars? left'.native? right'.native? := by
    have hnative := hleft.native?
    have hnative' := hright.native?
    generalize left.native? = first, left'.native? = first', right.native? = second,
      right'.native? = second' at hnative hnative'
    cases hnative with
    | none => cases hnative' <;> rfl
    | some hvalue =>
      cases hnative' with
      | none => cases hvalue <;> rfl
      | some hother => cases hvalue <;> cases hother <;> rfl
  have hleftNull : left.isNull = left'.isNull := congrFun hleft.isInstance_eq .null
  have hrightNull : right.isNull = right'.isNull := congrFun hright.isInstance_eq .null
  rw [Operator.equal, Operator.equal, hscalars, Operator.integers?, Operator.integers?,
    hleft.integer?_eq, hright.integer?_eq, hleftNull, hrightNull, Operator.eitherIdentifies,
    Operator.eitherIdentifies, hworlds.identityAnswer_eq hleft hright,
    hworlds.identityAnswer_eq hright hleft]

theorem typeError_eq (hworlds : World.Alike loose stage leftWorld rightWorld)
    (operation : Operation) {operands others : List Receiver}
    (hoperands : List.Forall₂ (Receiver.Alike stage) operands others) :
    Operator.typeError leftWorld operation operands =
      Operator.typeError rightWorld operation others := by
  have hdescribed : operands.map (Operator.describe leftWorld) =
      others.map (Operator.describe rightWorld) := by
    induction hoperands with
    | nil => rfl
    | cons hfirst _ ih => rw [List.map_cons, List.map_cons, hworlds.describe_eq hfirst, ih]
  have hmessage : Operator.typeErrorMessage leftWorld operation operands =
      Operator.typeErrorMessage rightWorld operation others := by
    unfold Operator.typeErrorMessage
    rw [hdescribed]
    cases hoperands <;> rfl
  rw [Operator.typeError, Operator.typeError, hmessage]

/-- Operators have the same result on both sides. -/
theorem apply_eq (hworlds : World.Alike loose stage leftWorld rightWorld)
    (operator : BinaryOperator) (operation : Operation) (hleft : left.Alike stage left')
    (hright : right.Alike stage right') :
    Operator.apply leftWorld operator operation left right =
      Operator.apply rightWorld operator operation left' right' := by
  have herror := hworlds.typeError_eq operation (.cons hleft (.cons hright .nil))
  have hintegers : Operator.integers? left right = Operator.integers? left' right' := by
    rw [Operator.integers?, Operator.integers?, hleft.integer?_eq, hright.integer?_eq]
  have hleftText : left.isText = left'.isText := congrFun hleft.isInstance_eq .text
  have hrightText : right.isText = right'.isText := congrFun hright.isInstance_eq .text
  cases operator with
  | add =>
    simp only [Operator.apply, Operator.add, hintegers, herror, hleftText, hrightText,
      hworlds.joinText_eq hleft, hworlds.joinText_eq hright]
  | sub | mul | lt | le =>
    simp only [Operator.apply, Operator.sub, Operator.mul, Operator.lt, Operator.le,
      Operator.onIntegers, hintegers, herror]
  | eq => simp only [Operator.apply, hworlds.equal_eq hleft hright]

end World.Alike

/-! ## Outcomes -/

section

variable {α β : Type} {values : Stage → α → β → Prop}

/-- The same fault, or related values, in worlds that are alike with perhaps more functions. -/
inductive Outcome.Alike (loose : RegistryId → String → Bool) (stage : Stage)
    (values : Stage → α → β → Prop) : Outcome α → Outcome β → Prop where
  | returned {functions : FunctionId → FunctionId → Prop} {value : α} {other : β}
      {left right : World} (hmore : stage ≤ stage.withFunctions functions)
      (hvalues : values (stage.withFunctions functions) value other)
      (hworlds : World.Alike loose (stage.withFunctions functions) left right) :
    Alike loose stage values (.returned value left) (.returned other right)
  | raised {functions : FunctionId → FunctionId → Prop} {fault : Fault} {left right : World}
      (hmore : stage ≤ stage.withFunctions functions)
      (hworlds : World.Alike loose (stage.withFunctions functions) left right) :
    Alike loose stage values (.raised fault left) (.raised fault right)
  | exhausted : Alike loose stage values .exhausted .exhausted

namespace Outcome.Alike

variable {left right : World}

theorem return_now {value : α} {other : β} (hworlds : World.Alike loose stage left right)
    (hvalues : values stage value other) :
    Outcome.Alike loose stage values (.returned value left) (.returned other right) :=
  have hsame : stage ≤ stage.withFunctions stage.functions := le_rfl
  .returned hsame hvalues hworlds

theorem raise_now (fault : Fault) (hworlds : World.Alike loose stage left right) :
    Outcome.Alike loose stage values (.raised fault left) (.raised fault right) :=
  have hsame : stage ≤ stage.withFunctions stage.functions := le_rfl
  .raised hsame hworlds

theorem of_later {functions : FunctionId → FunctionId → Prop} {outcome : Outcome α}
    {other : Outcome β}
    (halike : Outcome.Alike loose (stage.withFunctions functions) values outcome other)
    (hmore : stage ≤ stage.withFunctions functions) :
    Outcome.Alike loose stage values outcome other := by
  cases halike with
  | returned hlater hvalues hworlds => exact .returned (hmore.trans hlater) hvalues hworlds
  | raised hlater hworlds => exact .raised (hmore.trans hlater) hworlds
  | exhausted => exact .exhausted

end Outcome.Alike

/-- From alike worlds the two actions end alike. -/
def Action.Alike (loose : RegistryId → String → Bool) (stage : Stage)
    (values : Stage → α → β → Prop) (left : Action α) (right : Action β) : Prop :=
  ∀ ⦃later : Stage⦄, stage ≤ later → ∀ ⦃leftWorld rightWorld : World⦄,
    World.Alike loose later leftWorld rightWorld →
      Outcome.Alike loose later values (left leftWorld) (right rightWorld)

theorem Action.Alike.raise (fault : Fault) :
    Action.Alike loose stage values (Action.raise fault) (Action.raise fault) :=
  fun _ _ _ _ hworlds ↦ .raise_now fault hworlds

end

/-! ## What bodies do by themselves -/

namespace World.Alike

variable {leftWorld rightWorld : World} {value other : Value}

theorem newList (hworlds : World.Alike loose stage leftWorld rightWorld) {items others : List Value}
    (hitems : List.Forall₂ (Value.Alike stage) items others) :
    (leftWorld.newList items).1.Alike stage (rightWorld.newList others).1 ∧
      World.Alike loose stage (leftWorld.newList items).2 (rightWorld.newList others).2 := by
  refine ⟨?_, hworlds.freshIdentity⟩
  change (Value.list ⟨leftWorld.nextIdentity⟩ items).Alike stage
    (Value.list ⟨rightWorld.nextIdentity⟩ others)
  rw [hworlds.nextIdentity_eq]
  exact .list _ hitems

theorem newText (hworlds : World.Alike loose stage leftWorld rightWorld) (content : String) :
    (leftWorld.newText content).1.Alike stage (rightWorld.newText content).1 ∧
      World.Alike loose stage (leftWorld.newText content).2 (rightWorld.newText content).2 := by
  refine ⟨?_, hworlds.freshIdentity⟩
  change (Value.text ⟨leftWorld.nextIdentity⟩ content).Alike stage
    (Value.text ⟨rightWorld.nextIdentity⟩ content)
  rw [hworlds.nextIdentity_eq]
  exact .text _ content

/-- A member is there on both sides or on none. -/
theorem readMember (hworlds : World.Alike loose stage leftWorld rightWorld)
    (hvalue : value.Alike stage other) (member : String) :
    (∃ content content', value.readMember leftWorld member = .ok content ∧
      other.readMember rightWorld member = .ok content' ∧ content.Alike stage content') ∨
    ∃ fault, value.readMember leftWorld member = .error fault ∧
      other.readMember rightWorld member = .error fault := by
  unfold Value.readMember
  rw [← hvalue.object?_eq]
  cases hobject : value.object? with
  | none => exact .inr ⟨_, rfl, rfl⟩
  | some object =>
    have hcontent := (hworlds.members object (hvalue.objects_of_object? hobject)).get? member
    unfold Members.read
    dsimp only
    generalize (leftWorld.members object).get? member = content,
      (rightWorld.members object).get? member = content' at hcontent
    cases hcontent with
    | none => exact .inr ⟨_, rfl, rfl⟩
    | some halike => exact .inl ⟨_, _, rfl, rfl, halike⟩

end World.Alike

theorem Value.Alike.writeMember {value other content content' : Value}
    (hvalue : value.Alike stage other) (member : String) (hcontent : content.Alike stage content') :
    Action.Alike loose stage (fun _ _ _ ↦ True) (value.writeMember member content)
      (other.writeMember member content') := by
  intro later hlater leftWorld rightWorld hworlds
  unfold Value.writeMember
  rw [← hvalue.object?_eq]
  cases hobject : value.object? with
  | none => exact .raise_now _ hworlds
  | some object =>
    have hknown := hlater.objects (hvalue.objects_of_object? hobject)
    refine .return_now (hworlds.modifyMembers ?_) trivial
    exact (hworlds.members object hknown).insert member (hcontent.mono hlater)

theorem Value.Alike.removeMember {value other : Value} (hvalue : value.Alike stage other)
    (member : String) :
    Action.Alike loose stage (fun _ _ _ ↦ True) (value.removeMember member)
      (other.removeMember member) := by
  intro later hlater leftWorld rightWorld hworlds
  unfold Value.removeMember Members.remove
  rw [← hvalue.object?_eq]
  cases hobject : value.object? with
  | none => exact .raise_now _ hworlds
  | some object =>
    have hknown := hlater.objects (hvalue.objects_of_object? hobject)
    have hmembers := hworlds.members object hknown
    have hcontent := hmembers.get? member
    dsimp only
    generalize (leftWorld.members object).get? member = content,
      (rightWorld.members object).get? member = content' at hcontent
    cases hcontent with
    | none => exact .raise_now _ hworlds
    | some _ => exact .return_now (hworlds.modifyMembers (hmembers.erase member)) trivial

theorem Operator.run_alike (operator : BinaryOperator) (operation : Operation)
    {left right left' right' : Receiver} (hleft : left.Alike stage left')
    (hright : right.Alike stage right') :
    Action.Alike loose stage Value.Alike (Operator.run operator operation left right)
      (Operator.run operator operation left' right') := by
  intro later hlater leftWorld rightWorld hworlds
  unfold Operator.run
  rw [← hworlds.apply_eq operator operation (hleft.mono hlater) (hright.mono hlater)]
  cases Operator.apply leftWorld operator operation left right with
  | error fault => exact .raise_now fault hworlds
  | ok scalar =>
    cases scalar with
    | integer value => exact .return_now hworlds (.integer value)
    | boolean value => exact .return_now hworlds (.boolean value)
    | text content =>
      obtain ⟨hvalue, hafter⟩ := hworlds.newText content
      exact .return_now hafter hvalue

namespace Body

variable {α : Type}

/-- The same thing is done with alike values. -/
inductive Leaf.Alike (stage : Stage) : {α : Type} → Leaf α → Leaf α → Prop where
  | depth : Alike stage .depth .depth
  | newList {items others : List Value} (hitems : List.Forall₂ (Value.Alike stage) items others) :
    Alike stage (.newList items) (.newList others)
  | operator (operator : BinaryOperator) (operation : Operation)
      {left right left' right' : Value} (hleft : left.Alike stage left')
      (hright : right.Alike stage right') :
    Alike stage (.operator operator operation left right)
      (.operator operator operation left' right')
  | findOrCreate (name : String) : Alike stage (.findOrCreate name) (.findOrCreate name)
  | register (name : String) {definition definition' : Definition}
      (hdefinition : definition.Alike stage definition') :
    Alike stage (.register name definition) (.register name definition')
  | registerBatch {batch other : Batch} (hbatch : batch.Alike stage other) :
    Alike stage (.registerBatch batch) (.registerBatch other)
  | readMember {value other : Value} (hvalue : value.Alike stage other) (member : String) :
    Alike stage (.readMember value member) (.readMember other member)
  | writeMember {value other content content' : Value} (hvalue : value.Alike stage other)
      (member : String) (hcontent : content.Alike stage content') :
    Alike stage (.writeMember value member content) (.writeMember other member content')
  | removeMember {value other : Value} (hvalue : value.Alike stage other) (member : String) :
    Alike stage (.removeMember value member) (.removeMember other member)
  | fail (member : String) : Alike stage (.fail member) (.fail member)
  | notExecutable : Alike stage .notExecutable .notExecutable

/-- How the results of a part are related. -/
def Leaf.Results (stage : Stage) : {α : Type} → Leaf α → α → α → Prop
  | _, .findOrCreate _ => stage.functions
  | _, .registerBatch _ | _, .writeMember .. | _, .removeMember .. => fun _ _ ↦ True
  | _, .depth | _, .newList _ | _, .operator .. | _, .register .. | _, .readMember ..
  | _, .fail _ | _, .notExecutable => Value.Alike stage

theorem Leaf.Alike.perform {part other : Leaf α} (hpart : part.Alike stage other)
    {dispatcher : DispatcherId} (hdispatcher : stage.dispatchers dispatcher) :
    Action.Alike loose stage (fun later ↦ part.Results later) (part.perform dispatcher)
      (other.perform dispatcher) := by
  intro later hlater leftWorld rightWorld hworlds
  have hhome := hworlds.hasHome (hlater.dispatchers hdispatcher)
  have hregistry : (rightWorld.dispatcher dispatcher).registry =
      (leftWorld.dispatcher dispatcher).registry := by rw [hworlds.dispatcher_eq]
  cases hpart with
  | depth =>
    refine .return_now hworlds ?_
    dsimp only
    rw [hworlds.depth_eq]
    exact .integer _
  | newList hitems =>
    obtain ⟨hvalue, hafter⟩ := hworlds.newList (Value.allAlike_mono hlater hitems)
    exact .return_now hafter hvalue
  | operator op operation hleft hright =>
    exact Operator.run_alike op operation (.native hleft) (.native hright) hlater hworlds
  | findOrCreate name =>
    simp only [Leaf.perform, Action.state, hregistry]
    obtain ⟨hpaired, hmore, hafter⟩ := hworlds.findOrCreate hhome name
    exact .returned hmore hpaired hafter
  | register name hdefinition =>
    simp only [Leaf.perform, Action.state, hregistry]
    obtain ⟨hpaired, hmore, hafter⟩ := hworlds.register hhome name (hdefinition.mono hlater)
    exact .returned hmore (.function hpaired) hafter
  | registerBatch hbatch =>
    simp only [Leaf.perform, Action.update, hregistry]
    obtain ⟨_, hmore, hafter⟩ := hworlds.registerBatch hhome (hbatch.mono hlater)
    exact .returned hmore trivial hafter
  | readMember hvalue member =>
    simp only [Leaf.perform]
    obtain ⟨_, _, hleft, hright, hcontent⟩ | ⟨fault, hleft, hright⟩ :=
      hworlds.readMember (hvalue.mono hlater) member
    · rw [hleft, hright]
      exact .return_now hworlds hcontent
    · rw [hleft, hright]
      exact .raise_now fault hworlds
  | writeMember hvalue member hcontent => exact hvalue.writeMember member hcontent hlater hworlds
  | removeMember hvalue member => exact hvalue.removeMember member hlater hworlds
  | fail | notExecutable => exact .raise_now _ hworlds

end Body

/-! ## Calls -/

/-- Alike functions are called in the same way. -/
inductive Route.Alike (stage : Stage) : Route → Route → Prop where
  | direct {callee other : FunctionId} (halike : stage.functions callee other) :
    Alike stage (.direct callee) (.direct other)
  | named (name : String) : Alike stage (.named name) (.named name)
  | executed {callee other : FunctionId} (halike : stage.functions callee other) :
    Alike stage (.executed callee) (.executed other)
  | throughSite (site : String) {callee other : FunctionId}
      (halike : stage.functions callee other) :
    Alike stage (.throughSite site callee) (.throughSite site other)

theorem Route.Alike.mono {route other : Route} (hroute : route.Alike stage other)
    (hlater : stage ≤ later) : route.Alike later other := by
  cases hroute with
  | direct halike => exact .direct (hlater.functions halike)
  | named name => exact .named name
  | executed halike => exact .executed (hlater.functions halike)
  | throughSite site halike => exact .throughSite site (hlater.functions halike)

/-- The two runners run alike definitions with alike arguments alike. -/
def RunnersAlike (loose : RegistryId → String → Bool) (stage : Stage) (dispatcher : DispatcherId)
    (run run' : Runner) : Prop :=
  ∀ ⦃later : Stage⦄, stage ≤ later → ∀ ⦃definition definition' : Definition⦄,
    definition.Alike later definition' → ∀ ⦃arguments others : List Value⦄,
      List.Forall₂ (Value.Alike later) arguments others →
        Action.Alike loose later Value.Alike (run dispatcher definition arguments)
          (run' dispatcher definition' others)

namespace Dispatch

variable {dispatcher : DispatcherId} {run run' : Runner} {arguments others : List Value}

theorem activate_alike (hrun : RunnersAlike loose stage dispatcher run run') (name name' : String)
    {definition definition' : Definition} (hdefinition : definition.Alike stage definition')
    (harguments : List.Forall₂ (Value.Alike stage) arguments others) :
    Action.Alike loose stage Value.Alike (activate run dispatcher name definition arguments)
      (activate run' dispatcher name' definition' others) := by
  intro later hlater left right hworlds
  unfold activate
  rw [← hworlds.depth_eq, ← hworlds.configOf_eq]
  dsimp only
  cases (left.configOf dispatcher).reachedLimit? (left.depth dispatcher) with
  | some limit => exact .raise_now _ (hworlds.log _ _)
  | none =>
    have hends := hrun hlater (hdefinition.mono hlater) (Value.allAlike_mono hlater harguments)
      le_rfl (hworlds.setDepth dispatcher (left.depth dispatcher + 1))
    dsimp only [Action.restoring]
    generalize run dispatcher definition arguments _ = outcome,
      run' dispatcher definition' others _ = outcome' at hends
    cases hends with
    | returned hmore hvalue hafter => exact .returned hmore hvalue (hafter.setDepth _ _)
    | raised hmore hafter => exact .raised hmore (hafter.setDepth _ _)
    | exhausted => exact .exhausted

theorem call_alike (hrun : RunnersAlike loose stage dispatcher run run')
    {function other : FunctionId} (hfunction : stage.functions function other)
    (harguments : List.Forall₂ (Value.Alike stage) arguments others) :
    Action.Alike loose stage Value.Alike (call run dispatcher function arguments)
      (call run' dispatcher other others) := by
  intro later hlater left right hworlds
  have hdefinition := hworlds.definition (hlater.functions hfunction)
  unfold call
  dsimp only
  rw [← hworlds.name_eq (hlater.functions hfunction)]
  generalize (left.functionState function).definition = known,
    (right.functionState other).definition = known' at hdefinition
  cases hdefinition with
  | none => exact .raise_now _ hworlds
  | some hdefinition =>
    have hlaterRun : RunnersAlike loose later dispatcher run run' :=
      fun _ hmore ↦ hrun (hlater.trans hmore)
    exact activate_alike hlaterRun _ _ hdefinition (Value.allAlike_mono hlater harguments) le_rfl
      hworlds

/-- Whether a name is absent or has no definition makes no difference to a call. -/
theorem callNamed_alike (hrun : RunnersAlike loose stage dispatcher run run') (name : String)
    (harguments : List.Forall₂ (Value.Alike stage) arguments others) :
    Action.Alike loose stage Value.Alike (callNamed run dispatcher name arguments)
      (callNamed run' dispatcher name others) := by
  intro later hlater left right hworlds
  have hlaterRun : RunnersAlike loose later dispatcher run run' :=
    fun _ hmore ↦ hrun (hlater.trans hmore)
  have hlogged := hworlds.log (.lookup name false) (.lookup name false)
  unfold callNamed World.find
  rw [← hworlds.dispatcher_eq]
  have hnamed := hworlds.named (left.dispatcher dispatcher).registry name
  unfold World.stateNamed? at hnamed
  cases hleft : left.functionNamed? (left.dispatcher dispatcher).registry name with
  | none =>
    cases hright : right.functionNamed? (left.dispatcher dispatcher).registry name with
    | none => exact .raise_now _ hlogged
    | some other =>
      rw [hleft, hright] at hnamed
      cases hnamed with
      | extra _ hundefined =>
        have hname := hworlds.soundRight.canonical.name_eq hright
        have hstate (record : TraceRecord) :
            (right.log record).functionState other = right.functionState other := rfl
        dsimp only [call]
        rw [hstate, hundefined, hname]
        exact .raise_now _ hlogged
  | some function =>
    cases hright : right.functionNamed? (left.dispatcher dispatcher).registry name with
    | none =>
      rw [hleft, hright] at hnamed
      cases hnamed
    | some other =>
      have hfunction := hworlds.functions_iff.mpr ⟨_, name, hleft, hright⟩
      exact call_alike hlaterRun hfunction (Value.allAlike_mono hlater harguments) le_rfl hlogged

theorem callAt_alike (routing : Routing) (hrun : RunnersAlike loose stage dispatcher run run')
    (site : String) {function other : FunctionId} (hfunction : stage.functions function other)
    (harguments : List.Forall₂ (Value.Alike stage) arguments others) :
    Action.Alike loose stage Value.Alike (callAt routing run dispatcher site function arguments)
      (callAt routing run' dispatcher site other others) := by
  cases routing with
  | generic => exact call_alike hrun hfunction harguments
  | cached =>
    intro later hlater left right hworlds
    have hnoted := hworlds.noteCall dispatcher site (hlater.functions hfunction)
    unfold callAt
    dsimp only
    rw [hworlds.soundLeft.coherent.callThroughCache_eq_call,
      hworlds.soundRight.coherent.callThroughCache_eq_call]
    exact call_alike hrun hfunction harguments hlater hnoted

end Dispatch

theorem Route.Alike.call (routing : Routing) {dispatcher : DispatcherId} {run run' : Runner}
    (hrun : RunnersAlike loose stage dispatcher run run') {route other : Route}
    (hroute : route.Alike stage other) {arguments others : List Value}
    (harguments : List.Forall₂ (Value.Alike stage) arguments others) :
    Action.Alike loose stage Value.Alike (route.call routing run dispatcher arguments)
      (other.call routing run' dispatcher others) := by
  cases hroute with
  | direct halike | executed halike => exact Dispatch.call_alike hrun halike harguments
  | named name => exact Dispatch.callNamed_alike hrun name harguments
  | throughSite site halike => exact Dispatch.callAt_alike routing hrun site halike harguments

end GuestCore
