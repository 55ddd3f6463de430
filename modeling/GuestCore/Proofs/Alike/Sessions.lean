import GuestCore.Proofs.Alike.Scripts
import GuestCore.Proofs.SessionEvents

/-!
# Sessions That Are Alike

From states that are alike, every step of a session leads to states that are alike.  A step that
calls something tells the same on both sides: the same fault, or values that are shown alike, the
same depth, and the same of the call site.  Other steps may tell of generations and of the names
that a registry lists, so that nothing is said about their answers.
-/

namespace GuestCore

open Session

variable {loose : RegistryId → String → Bool} {stage later : Stage}

/-! ## Answers -/

namespace Session

/-- Values that are shown alike: only functions with a loose name may differ in generation. -/
inductive Shown.Alike (loose : RegistryId → String → Bool) : Shown → Shown → Prop where
  | null : Alike loose .null .null
  | boolean (value : Bool) : Alike loose (.boolean value) (.boolean value)
  | integer (value : Int) : Alike loose (.integer value) (.integer value)
  | text (content : String) : Alike loose (.text content) (.text content)
  | function (name : String) {generation other : Nat}
      (hgeneration : (∀ registry, loose registry name = false) → generation = other) :
    Alike loose (.function name generation) (.function name other)
  | object (members : List String) : Alike loose (.object members) (.object members)
  | list {items others : List Shown} (hitems : List.Forall₂ (Alike loose) items others) :
    Alike loose (.list items) (.list others)

/-- A function that is alike on both sides is shown with the same generation, unless its name is
loose. -/
theorem generation_eq_of_alike {leftWorld rightWorld : World}
    (hworlds : World.Alike loose stage leftWorld rightWorld) {function other : FunctionId}
    (hfunctions : stage.functions function other)
    (hstrict : ∀ registry, loose registry (leftWorld.functionState function).name = false) :
    (leftWorld.functionState function).published = (rightWorld.functionState other).published := by
  obtain ⟨registry, name, hleft, hright⟩ := hworlds.functions_iff.mp hfunctions
  have hnamed := hworlds.named registry name
  rw [World.stateNamed?, World.stateNamed?, hleft, hright] at hnamed
  cases hnamed with
  | both _ hgeneration =>
    rw [hworlds.soundLeft.canonical.name_eq hleft] at hstrict
    rw [hworlds.soundLeft.coherent.published_eq, hworlds.soundRight.coherent.published_eq,
      hgeneration (hstrict registry)]

mutual

theorem Shown.ofValue_alike {leftWorld rightWorld : World}
    (hworlds : World.Alike loose stage leftWorld rightWorld) : {value other : Value} →
    value.Alike stage other →
      (Shown.ofValue leftWorld value).Alike loose (Shown.ofValue rightWorld other)
  | .null, _, .null => by
    rw [ofValue, ofValue]
    exact .null
  | .integer _, _, .integer value => by
    rw [ofValue, ofValue]
    exact .integer value
  | .boolean _, _, .boolean value => by
    rw [ofValue, ofValue]
    exact .boolean value
  | .text _ _, _, .text _ content => by
    rw [ofValue, ofValue]
    exact .text content
  | .function _, _, .function halike => by
    rw [ofValue, ofValue, ← hworlds.name_eq halike]
    exact .function _ (generation_eq_of_alike hworlds halike)
  | .object id, _, .object hobject => by
    rw [ofValue, ofValue, (hworlds.members id hobject).keys_eq]
    exact .object _
  | .list _ _, _, .list _ hitems => by
    rw [ofValue, ofValue]
    exact .list (Shown.ofValues_alike hworlds hitems)

theorem Shown.ofValues_alike {leftWorld rightWorld : World}
    (hworlds : World.Alike loose stage leftWorld rightWorld) : {values others : List Value} →
    List.Forall₂ (Value.Alike stage) values others →
      List.Forall₂ (Shown.Alike loose) (Shown.ofValues leftWorld values)
        (Shown.ofValues rightWorld others)
  | [], _, .nil => by
    rw [ofValues, ofValues]
    exact .nil
  | _ :: _, _, .cons hfirst hrest => by
    rw [ofValues, ofValues]
    exact .cons (Shown.ofValue_alike hworlds hfirst) (Shown.ofValues_alike hworlds hrest)

end

/-- Answers of calls that tell the same. -/
inductive Answer.CallAlike (loose : RegistryId → String → Bool) : Answer → Answer → Prop where
  | call {result other : Except Fault Shown}
      (hresult : ExceptAlike (Shown.Alike loose) result other) (depth : Nat)
      (site : Option SiteInfo) :
    CallAlike loose (.call result depth site) (.call other depth site)
  | result {result other : Except Fault Shown}
      (hresult : ExceptAlike (Shown.Alike loose) result other) :
    CallAlike loose (.result (result.map .shown)) (.result (other.map .shown))

theorem siteInfo?_eq {leftWorld rightWorld : World}
    (hworlds : World.Alike loose stage leftWorld rightWorld) (callee : Callee) :
    siteInfo? leftWorld callee = siteInfo? rightWorld callee := by
  cases callee with
  | named | function => rfl
  | throughSite site =>
    have hsite := hworlds.sites site
    simp only [siteInfo?, SiteInfo.ofSite, hsite.fastHits_eq, hsite.slowCalls_eq,
      hsite.megamorphic_eq, hsite.targets.length_eq]

theorem PreparedCall.Alike.answer {call other : PreparedCall} (hcall : call.Alike stage other)
    {leftWorld rightWorld : World} (hworlds : World.Alike loose later leftWorld rightWorld)
    {result result' : Except Fault Value}
    (hresult : ExceptAlike (Value.Alike later) result result') :
    (call.answer result leftWorld).CallAlike loose (other.answer result' rightWorld) := by
  have hshown : ExceptAlike (Shown.Alike loose) (shownResult leftWorld result)
      (shownResult rightWorld result') := by
    cases hresult with
    | ok hvalue => exact .ok (Shown.ofValue_alike hworlds hvalue)
    | error fault => exact .error fault
  unfold PreparedCall.answer
  rw [← hcall.reply_eq, ← hcall.dispatcher_eq]
  cases call.reply with
  | call callee =>
    dsimp only
    rw [hworlds.depth_eq, siteInfo?_eq hworlds]
    exact .call hshown _ _
  | result =>
    have hpayload (world : World) (result : Except Fault Value) :
        payload (fun value ↦ .shown (.ofValue world value)) result =
          .result ((shownResult world result).map .shown) := by
      cases result <;> rfl
    dsimp only
    rw [hpayload, hpayload]
    exact .result hshown

/-! ## Calls -/

theorem calleeRoute_alike (callee : Callee) :
    Script.AlikeAt loose stage Route.Alike (calleeRoute callee) (calleeRoute callee) := by
  cases callee with
  | named name => exact .pure fun _ _ ↦ .named name
  | function function =>
    apply (ValueSpec.build_alike function).bind
    intro _ _ _ _ hvalue
    apply (functionOf_alike hvalue).bind
    intro _ _ _ _ hfunction
    exact .pure fun _ hlast ↦ .direct (hlast.functions hfunction)
  | throughSite site function =>
    apply (ValueSpec.build_alike function).bind
    intro _ _ _ _ hvalue
    apply (functionOf_alike hvalue).bind
    intro _ _ _ _ hfunction
    exact .pure fun _ hlast ↦ .throughSite site (hlast.functions hfunction)

theorem prepareCall_alike {step : Step} {prepare : Script PreparedCall}
    (hprepare : prepareCall? step = some prepare) :
    Script.AlikeAt loose stage PreparedCall.Alike prepare prepare := by
  cases step with
  | call callee arguments registry =>
    obtain rfl := Option.some.inj hprepare
    apply (ValueSpec.buildAll_alike arguments).bind
    intro _ _ _ _ harguments
    apply Script.AlikeAt.onRegistry registry
    intro _ hmore _ dispatcher _ hdispatcher
    apply (calleeRoute_alike callee).bind
    intro _ hmore' _ _ hroute
    refine .pure fun last hlast ↦ ?_
    exact
      { callable := .route (hroute.mono hlast)
        arguments := Value.allAlike_mono (hmore.trans (hmore'.trans hlast)) harguments
        dispatcher_eq := rfl
        reply_eq := rfl
        dispatcher := (hmore'.trans hlast).dispatchers hdispatcher }
  | message receiver message =>
    cases message with
    | execute arguments registry =>
      obtain rfl := Option.some.inj hprepare
      apply (ReceiverSpec.build_alike receiver).bind
      intro _ _ _ _ hreceiver
      apply (ValueSpec.buildAll_alike arguments).bind
      intro _ hmore _ _ harguments
      apply Script.AlikeAt.onRegistry registry
      intro _ hmore' _ dispatcher _ hdispatcher
      refine .pure fun last hlast ↦ ?_
      exact
        { callable := .receiver (hreceiver.mono (hmore.trans (hmore'.trans hlast)))
          arguments := Value.allAlike_mono (hmore'.trans hlast) harguments
          dispatcher_eq := rfl
          reply_eq := rfl
          dispatcher := hlast.dispatchers hdispatcher }
    | _ => cases hprepare
  | _ => cases hprepare

/-- A step ends alike if its call does. -/
theorem PreparedCall.Alike.conclude {call other : PreparedCall} (hcall : call.Alike stage other)
    {left right : State} (hstates : State.AlikeAt loose stage left right)
    {outcome outcome' : Outcome Value}
    (hends : Outcome.Alike loose stage Value.Alike outcome outcome') :
    ResultsAlike loose stage (fun _ ↦ Answer.CallAlike loose) (call.conclude left outcome)
      (other.conclude right outcome') := by
  cases hends with
  | returned hmore hvalue hworlds =>
    exact .ok hmore (hcall.answer hworlds (.ok hvalue)) (hstates.setWorld hmore hworlds)
  | raised hmore hworlds =>
    exact .ok hmore (hcall.answer hworlds (.error _)) (hstates.setWorld hmore hworlds)
  | exhausted => exact .error _

/-! ## Steps without calls -/

/-- Nothing is said about the answers. -/
abbrev Unrelated {α β : Type} : Stage → α → β → Prop :=
  fun _ _ _ ↦ True

/-- Both sides answer after reading the world. -/
theorem Script.AlikeAt.answer {α : Type} {look look' : World → α} :
    Script.AlikeAt loose stage Unrelated (Script.world >>= fun world ↦ Pure.pure (look world))
      (Script.world >>= fun world ↦ Pure.pure (look' world)) :=
  getWorld fun _ _ _ _ _ ↦ pure fun _ _ ↦ trivial

theorem Script.AlikeAt.register {registry : RegistryId} (hregistry : stage.registries registry)
    (name : String) {definition definition' : Definition}
    (hdefinition : definition.Alike stage definition') :
    Script.AlikeAt loose stage Unrelated
      (Script.change fun world ↦ world.register registry name definition)
      (Script.change fun world ↦ world.register registry name definition') := by
  refine change fun later hlater leftWorld rightWorld hworlds ↦ ?_
  have hexists := hworlds.hasRegistry (hlater.registries hregistry)
  obtain ⟨-, hmore, hafter⟩ := hworlds.register hexists name (hdefinition.mono hlater)
  exact ⟨_, hmore, trivial, hafter⟩

theorem Script.AlikeAt.registerBatch {registry : RegistryId}
    (hregistry : stage.registries registry) {batch other : Batch}
    (hbatch : batch.Alike stage other) :
    Script.AlikeAt loose stage Unrelated
      (Script.change fun world ↦ ((), world.registerBatch registry batch))
      (Script.change fun world ↦ ((), world.registerBatch registry other)) := by
  refine change fun later hlater leftWorld rightWorld hworlds ↦ ?_
  have hexists := hworlds.hasRegistry (hlater.registries hregistry)
  obtain ⟨_, hlast, hafter⟩ := hworlds.registerBatch hexists (hbatch.mono hlater)
  exact ⟨_, hlast, trivial, hafter⟩

theorem Script.AlikeAt.lookup {registry : RegistryId} (hregistry : stage.registries registry)
    (name : String) (create : Bool) {step : World → Option FunctionId × World}
    (hstep : step = fun world ↦
      if create then
        let (function, world) := world.findOrCreate registry name
        (some function, world)
      else world.find registry name) :
    Script.AlikeAt loose stage Unrelated (Script.change step) (Script.change step) := by
  subst hstep
  refine change fun later hlater leftWorld rightWorld hworlds ↦ ?_
  cases create with
  | true =>
    have hexists := hworlds.hasRegistry (hlater.registries hregistry)
    obtain ⟨-, hmore, hafter⟩ := hworlds.findOrCreate hexists name
    exact ⟨_, hmore, trivial, hafter⟩
  | false => exact ⟨later, le_rfl, trivial, hworlds.log _ _⟩

/-- Both sides write to slots or batches. -/
theorem Script.AlikeAt.modifyNames {write write' : State → State}
    (hwrite : ∀ later, stage ≤ later → ∀ left right, State.AlikeAt loose later left right →
      State.AlikeAt loose later (write left) (write' right)) :
    Script.AlikeAt loose stage Unrelated (modify write) (modify write') :=
  fun later hlater _ _ hstates ↦ .ok le_rfl trivial (hwrite later hlater _ _ hstates)

/-- Both sides change the members of an object in alike ways. -/
theorem Script.AlikeAt.modifyMembers {object : ObjectId} (hobject : stage.objects object)
    {change change' : Members Value → Members Value}
    (hchange : ∀ later, stage ≤ later → ∀ members others,
      Members.Related (Value.Alike later) members others →
        Members.Related (Value.Alike later) (change members) (change' others)) :
    Script.AlikeAt loose stage Unrelated
      (Script.change fun world ↦ ((), world.modifyMembers object change))
      (Script.change fun world ↦ ((), world.modifyMembers object change')) := by
  refine .change fun later hlater leftWorld rightWorld hworlds ↦ ?_
  refine ⟨later, le_rfl, trivial, hworlds.modifyMembers ?_⟩
  exact hchange later hlater _ _ (hworlds.members object (hlater.objects hobject))

theorem answerStore_alike {object : ObjectId} (hobject : stage.objects object) (key : String)
    (request : StoreRequest) :
    Script.AlikeAt loose stage Unrelated (answerStore object key request)
      (answerStore object key request) := by
  cases request with
  | read | contains | get => exact .answer
  | write content =>
    apply (ValueSpec.build_alike content).bind
    intro later hlater value other hvalue
    refine (Script.AlikeAt.modifyMembers (hlater.objects hobject) ?_).bind
      fun _ _ _ _ _ ↦ .pure fun _ _ ↦ trivial
    exact fun last hlast _ _ hmembers ↦ hmembers.insert key (hvalue.mono hlast)
  | remove =>
    refine .getWorld fun later hlater leftWorld rightWorld hworlds ↦ ?_
    have hmembers := hworlds.members object (hlater.objects hobject)
    have hcontent := hmembers.get? key
    unfold Members.remove
    generalize (leftWorld.members object).get? key = content,
      (rightWorld.members object).get? key = content' at hcontent
    cases hcontent with
    | none => exact .pure fun _ _ ↦ trivial
    | some _ =>
      refine (Script.AlikeAt.modifyMembers (hlater.objects hobject) ?_).bind fun _ _ _ _ _ ↦ .answer
      exact fun last hlast _ _ _ ↦ (hmembers.erase key).mono fun hvalue ↦ hvalue.mono hlast
  | getOrInsert content =>
    apply (ValueSpec.build_alike content).bind
    intro first hfirst value other hvalue
    refine .getWorld fun later hlater leftWorld rightWorld hworlds ↦ ?_
    have hknown := hlater.objects (hfirst.objects hobject)
    have hmembers := hworlds.members object hknown
    have hcontent := hmembers.get? key
    unfold Members.getOrInsert
    generalize (leftWorld.members object).get? key = content,
      (rightWorld.members object).get? key = content' at hcontent
    cases hcontent with
    | none =>
      refine (Script.AlikeAt.modifyMembers hknown ?_).bind fun _ _ _ _ _ ↦ .answer
      exact fun last hlast _ _ _ ↦ (hmembers.mono fun hvalue ↦ hvalue.mono hlast).insert key
        (hvalue.mono (hlater.trans hlast))
    | some _ =>
      refine (Script.AlikeAt.modifyMembers hknown ?_).bind fun _ _ _ _ _ ↦ .answer
      exact fun last hlast _ _ _ ↦ hmembers.mono fun hvalue ↦ hvalue.mono hlast

end Session

namespace Receiver

variable {receiver other : Receiver}

theorem Alike.writeMember (hreceiver : receiver.Alike stage other) (member : String)
    {content content' : Value} (hcontent : content.Alike stage content') :
    Action.Alike loose stage Unrelated (receiver.writeMember member content)
      (other.writeMember member content') := by
  induction hreceiver with
  | native hvalue => exact hvalue.writeMember member hcontent
  | descriptor | functions => exact .raise _
  | @foreign value value' hvalue =>
    have hbacking := hvalue.members
    unfold Receiver.writeMember
    generalize value.members? = backing, value'.members? = backing' at hbacking
    cases hbacking with
    | none => exact .raise _
    | some hbacking => exact hbacking.writeMember member hcontent
  | view _ ih => exact ih

theorem Alike.removeMember (hreceiver : receiver.Alike stage other) (member : String) :
    Action.Alike loose stage Unrelated (receiver.removeMember member)
      (other.removeMember member) := by
  induction hreceiver with
  | native hvalue => exact hvalue.removeMember member
  | descriptor | functions => exact .raise _
  | @foreign value value' hvalue =>
    have hbacking := hvalue.members
    unfold Receiver.removeMember
    generalize value.members? = backing, value'.members? = backing' at hbacking
    cases hbacking with
    | none => exact .raise _
    | some hbacking => exact hbacking.removeMember member
  | view _ ih => exact ih

end Receiver

namespace Session

/-- A message other than a call leads to states that are alike. -/
theorem answerMessage_alike {message : Message}
    (hmessage : ∀ arguments registry, message ≠ .execute arguments registry)
    (routing : Routing) (allowance : Nat) {receiver other : Receiver}
    (hreceiver : receiver.Alike stage other) :
    Script.AlikeAt loose stage Unrelated (answerMessage routing allowance receiver message)
      (answerMessage routing allowance other message) := by
  cases message with
  | execute arguments registry => exact absurd rfl (hmessage arguments registry)
  | readMember | memberFlags | memberNames | element | location => exact .answer
  | writeMember member content =>
    apply (ValueSpec.build_alike content).bind
    intro later hlater value value' hvalue
    exact (Script.AlikeAt.perform ((hreceiver.mono hlater).writeMember member hvalue)).bind
      fun _ _ _ _ _ ↦ .pure fun _ _ ↦ trivial
  | removeMember member =>
    exact (Script.AlikeAt.perform (hreceiver.removeMember member)).bind
      fun _ _ _ _ _ ↦ .pure fun _ _ ↦ trivial
  | describes candidate =>
    exact (ReceiverSpec.build_alike candidate).bind
      fun _ _ _ _ _ ↦ .pure fun _ _ ↦ trivial
  | elementCount | identityHash | type | asBoolean | asText | asLong | asInteger | simpleName =>
    exact .pure fun _ _ ↦ trivial

theorem compareCells_alike (leftWorld rightWorld : World) {left right left' right' : Value}
    (hleft : left.Alike stage left') (hright : right.Alike stage right') :
    Script.AlikeAt loose stage Unrelated (compareCells leftWorld left right)
      (compareCells rightWorld left' right') := by
  cases hleft with
  | text =>
    cases hright with
    | text => exact .pure fun _ _ ↦ trivial
    | _ => exact .throw _
  | list =>
    cases hright with
    | list => exact .pure fun _ _ ↦ trivial
    | _ => exact .throw _
  | _ => exact .throw _

/-- A step that calls nothing leads to states that are alike. -/
theorem answerStep_alike {step : Step} (hstep : prepareCall? step = none) (routing : Routing)
    (allowance : Nat) :
    Script.AlikeAt loose stage Unrelated (answerStep routing allowance step)
      (answerStep routing allowance step) := by
  cases step with
  | call => cases hstep
  | define slot receiver =>
    apply (ReceiverSpec.buildPlace_alike receiver).bind
    intro later _ place place' hplace
    refine (Script.AlikeAt.modifyNames fun last hlast _ _ hstates ↦ ?_).bind
      fun _ _ _ _ _ ↦ .answer
    exact { hstates with slots := hstates.slots.insert slot (hplace.mono hlast) }
  | probe receiver | display receiver | debug receiver =>
    exact (ReceiverSpec.build_alike receiver).bind fun _ _ _ _ _ ↦ .answer
  | compareCells left right =>
    apply (ValueSpec.build_alike left).bind
    intro _ _ _ _ hleft
    apply (ValueSpec.build_alike right).bind
    intro _ hmore _ _ hright
    exact .getWorld fun _ hlast leftWorld rightWorld _ ↦ compareCells_alike leftWorld rightWorld
      (hleft.mono (hmore.trans hlast)) (hright.mono hlast)
  | operate operator operation left right =>
    apply (ReceiverSpec.build_alike left).bind
    intro _ _ _ _ hleft
    apply (ReceiverSpec.build_alike right).bind
    intro _ hmore _ _ hright
    refine (Script.AlikeAt.perform (Operator.run_alike operator operation.toOperation
      (hleft.mono hmore) hright)).bind fun _ _ _ _ _ ↦ .answer
  | identical left right =>
    apply (ReceiverSpec.buildPlace_alike left).bind
    intro _ _ _ _ _
    exact (ReceiverSpec.buildPlace_alike right).bind fun _ _ _ _ _ ↦ .pure fun _ _ ↦ trivial
  | classify receiver =>
    exact (ReceiverSpec.build_alike receiver).bind fun _ _ _ _ _ ↦ .pure fun _ _ ↦ trivial
  | message receiver message =>
    apply (ReceiverSpec.build_alike receiver).bind
    intro _ _ _ _ hreceiver
    refine answerMessage_alike ?_ routing allowance hreceiver
    rintro arguments registry rfl
    cases hstep
  | store object key request =>
    apply (ValueSpec.build_alike object).bind
    intro _ _ value other hvalue
    rw [← hvalue.object?_eq]
    cases hobject : value.object? with
    | some object =>
      exact (answerStore_alike (hvalue.objects_of_object? hobject) key request).bind
        fun _ _ _ _ _ ↦ .answer
    | none => exact .throw _
  | operation | location | makeFault => exact .pure fun _ _ ↦ trivial
  | typeError operation operands =>
    exact (buildReceivers_alike operands).bind fun _ _ _ _ _ ↦ .answer
  | register name definition registry =>
    apply (DefinitionSpec.build_alike definition).bind
    intro _ _ _ _ hdefinition
    apply Script.AlikeAt.onRegistry registry
    intro _ hmore registry _ hregistry _
    exact (Script.AlikeAt.register hregistry name (hdefinition.mono hmore)).bind
      fun _ _ _ _ _ ↦ .answer
  | lookup name create registry =>
    apply Script.AlikeAt.onRegistry registry
    intro _ _ registry _ hregistry _
    exact (Script.AlikeAt.lookup hregistry name create rfl).bind fun _ _ _ _ _ ↦ .answer
  | functions registry | dispatcher registry =>
    exact .onRegistry registry fun _ _ _ _ _ _ ↦ .answer
  | sameFunction left right =>
    apply (ValueSpec.build_alike left).bind
    intro _ _ _ _ hleft
    apply (functionOf_alike hleft).bind
    intro _ _ _ _ _
    apply (ValueSpec.build_alike right).bind
    intro _ _ _ _ hright
    exact (functionOf_alike hright).bind fun _ _ _ _ _ ↦ .pure fun _ _ ↦ trivial
  | batch name entries =>
    apply (buildEntries_alike entries).bind
    intro _ _ entries entries' hentries
    apply Script.AlikeAt.freshIdentity.bind
    rintro _ hmore identity _ rfl
    refine (Script.AlikeAt.modifyNames fun last hlast _ _ hstates ↦ ?_).bind
      fun _ _ _ _ _ ↦ .pure fun _ _ ↦ trivial
    have hbatch : Batch.Alike last { identity, entries } { identity, entries := entries' } :=
      ⟨rfl, entriesAlike_mono hentries (hmore.trans hlast)⟩
    exact { hstates with batches := hstates.batches.insert name hbatch }
  | registerBatch name registry =>
    refine .getState fun _ _ left right hstates ↦ ?_
    have hbatch := hstates.batches.get? name
    generalize left.batches.get? name = batch, right.batches.get? name = batch' at hbatch
    cases hbatch with
    | none => exact .throw _
    | some hbatch =>
      apply Script.AlikeAt.onRegistry registry
      intro _ hmore registry _ hregistry _
      exact (Script.AlikeAt.registerBatch hregistry (hbatch.mono hmore)).bind
        fun _ _ _ _ _ ↦ .answer
  | site name => exact .answer

end Session

end GuestCore
