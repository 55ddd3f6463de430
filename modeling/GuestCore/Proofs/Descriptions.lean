import GuestCore.Proofs.Demands

/-!
# Descriptions

Whoever builds what a step describes meets the demands of the step in the order in which they stand.
A step that registers a definition or a batch does so when its demands are met.
-/

namespace GuestCore

open Session

/-! ## Building -/

namespace Body

variable {κ μ : Type} {convert : κ → Script μ} {measure : κ → List Demand}

mutual

/-- Building a body meets what its constants demand. -/
theorem mapConstants_meets (hconvert : ∀ value, (convert value).Meets (measure value)) :
    (body : Body κ) → (body.mapConstants convert).Meets (body.constants.flatMap measure)
  | constant value => by
    rw [mapConstants, constants, List.flatMap_singleton]
    exact (hconvert value).before fun _ ↦ .pure _
  | argument _ | argumentCount | depth | lookup _ | fail _ => by
    rw [mapConstants, constants]
    exact .pure _
  | list items | sequence items | call _ items | callAt _ _ items | registerBatch _ _ items => by
    rw [mapConstants, constants]
    exact (mapConstantsAll_meets hconvert items).before fun _ ↦ .pure _
  | operator _ _ left right | writeMember left _ right | attempt left right => by
    rw [mapConstants, constants, List.flatMap_append]
    exact (mapConstants_meets hconvert left).bind fun _ ↦
      (mapConstants_meets hconvert right).before fun _ ↦ .pure _
  | choose condition thenBranch elseBranch => by
    rw [mapConstants, constants, List.flatMap_append, List.flatMap_append, List.append_assoc]
    exact (mapConstants_meets hconvert condition).bind fun _ ↦
      (mapConstants_meets hconvert thenBranch).bind fun _ ↦
        (mapConstants_meets hconvert elseBranch).before fun _ ↦ .pure _
  | execute callee arguments | executeAt _ callee arguments => by
    rw [mapConstants, constants, List.flatMap_append]
    exact (mapConstants_meets hconvert callee).bind fun _ ↦
      (mapConstantsAll_meets hconvert arguments).before fun _ ↦ .pure _
  | register _ body _ | readMember body _ | removeMember body _ => by
    rw [mapConstants, constants]
    exact (mapConstants_meets hconvert body).before fun _ ↦ .pure _

theorem mapConstantsAll_meets (hconvert : ∀ value, (convert value).Meets (measure value)) :
    (bodies : List (Body κ)) →
      (mapConstantsAll convert bodies).Meets ((constantsAll bodies).flatMap measure)
  | [] => by
    rw [mapConstantsAll, constantsAll]
    exact .pure _
  | body :: rest => by
    rw [mapConstantsAll, constantsAll, List.flatMap_append]
    exact (mapConstants_meets hconvert body).bind fun _ ↦
      (mapConstantsAll_meets hconvert rest).before fun _ ↦ .pure _

end

end Body

namespace Session

namespace ValueSpec

theorem wrap_eq (value : Value) (depth : Nat) (world : World) :
    (wrap value depth world).2 = Effect.applyAll (List.replicate depth .freshIdentity) world := by
  induction depth with
  | zero => rfl
  | succ depth ih =>
    rw [List.replicate_succ', Effect.applyAll_append, ← ih]
    rfl

mutual

theorem build_meets : (spec : ValueSpec) → spec.build.Meets spec.demands
  | null | boolean _ | integer _ => by
    rw [build, demands]
    exact .pure _
  | text content => by
    rw [build, demands]
    exact .freshIdentity fun _ ↦ rfl
  | list items => by
    rw [build, demands]
    exact (buildAll_meets items).before fun _ ↦ .freshIdentity fun _ ↦ rfl
  | slot name => by
    rw [build, demands]
    refine (Script.Meets.place name).after fun place ↦ ?_
    cases place.receiver.native? with
    | some value => exact .pure value
    | none => exact .throw _
  | function name registry => by
    rw [build, demands]
    refine .onRegistry registry fun hknown hrun ↦ ?_
    cases hrun
    exact Script.Meets.findOrCreate hknown
  | object fields => by
    rw [build, demands]
    exact (buildFields_meets {} fields).bind fun members ↦
      (Script.Meets.newObject members).before fun _ ↦ .pure _
  | nested depth item => by
    rw [build, demands]
    refine (build_meets item).before fun value ↦ ?_
    refine .change (fun _ ↦ List.replicate depth .freshIdentity) (fun _ effect heffect ↦ ?_)
      (wrap_eq value depth)
    rw [List.eq_of_mem_replicate heffect]
    rfl

theorem buildAll_meets : (specs : List ValueSpec) → (buildAll specs).Meets (demandsAll specs)
  | [] => by
    rw [buildAll, demandsAll]
    exact .pure _
  | spec :: rest => by
    rw [buildAll, demandsAll]
    exact (build_meets spec).bind fun _ ↦ (buildAll_meets rest).before fun _ ↦ .pure _

theorem buildFields_meets (members : Members Value) : (fields : List (String × ValueSpec)) →
    (buildFields members fields).Meets (demandsFields fields)
  | [] => by
    rw [buildFields, demandsFields]
    exact .pure _
  | (key, spec) :: rest => by
    rw [buildFields, demandsFields]
    exact (build_meets spec).bind fun value ↦ buildFields_meets (members.insert key value) rest

end

end ValueSpec

theorem bodySpec_meets (body : Body ValueSpec) :
    (body.mapConstants ValueSpec.build).Meets (bodyDemands body) :=
  Body.mapConstants_meets ValueSpec.build_meets body

theorem DefinitionSpec.build_meets (spec : DefinitionSpec) : spec.build.Meets spec.demands :=
  (bodySpec_meets spec.body).before fun _ ↦ .pure _

theorem ForeignSpec.build_meets (spec : ForeignSpec) : spec.build.Meets spec.demands := by
  refine (Script.Meets.mapM ValueSpec.build_meets spec.native).bind fun _ ↦ ?_
  refine (Script.Meets.mapM ValueSpec.build_meets spec.members).bind fun _ ↦ ?_
  refine (Script.Meets.mapM ValueSpec.build_meets spec.elements).bind fun _ ↦ ?_
  refine (Script.Meets.mapM bodySpec_meets spec.body).before fun _ ↦ ?_
  exact Script.Meets.after (.freshIdentity fun _ ↦ rfl) fun _ ↦ .pure _

namespace ReceiverSpec

theorem build_meets : (spec : ReceiverSpec) → spec.build.Meets spec.demands
  | slot name => (Script.Meets.place name).after fun _ ↦ .pure _
  | view delegate => (build_meets delegate).before fun _ ↦ .pure _
  | descriptor _ => .pure _
  | functions registry => .registry registry fun _ ↦ .pure _
  | foreign spec => spec.build_meets.before fun _ ↦ .pure _
  | value spec => spec.build_meets.before fun _ ↦ .pure _

theorem buildPlace_meets (spec : ReceiverSpec) : spec.buildPlace.Meets spec.demands := by
  have hnew : Script.Meets spec.demands (do
      let receiver ← spec.build
      let address ← Script.change World.freshIdentity
      return { address, receiver } : Script Place) :=
    spec.build_meets.before fun _ ↦ Script.Meets.after (.freshIdentity fun _ ↦ rfl) fun _ ↦ .pure _
  cases spec with
  | slot name => exact .place name
  | _ => exact hnew

end ReceiverSpec

theorem buildReceivers_meets (specs : List ReceiverSpec) :
    (buildReceivers specs).Meets (specs.flatMap ReceiverSpec.demands) := by
  induction specs with
  | nil => exact .pure _
  | cons spec rest ih =>
    rw [List.flatMap_cons]
    exact spec.build_meets.bind fun _ ↦ ih.before fun _ ↦ .pure _

theorem buildEntries_meets (entries : List (String × DefinitionSpec)) :
    (buildEntries entries).Meets (entries.flatMap fun entry ↦ entry.2.demands) := by
  induction entries with
  | nil => exact .pure _
  | cons entry rest ih =>
    rw [List.flatMap_cons]
    exact entry.2.build_meets.bind fun _ ↦ ih.before fun _ ↦ .pure _

end Session

/-! ## Actions -/

theorem Action.IsQuiet.raise {α : Type} (fault : Fault) :
    (Action.raise fault : Action α).IsQuiet := by
  intro world after hafter
  cases hafter
  exact ⟨[], nofun, rfl⟩

theorem Value.writeMember_isQuiet (value : Value) (member : String) (content : Value) :
    (value.writeMember member content).IsQuiet := by
  unfold writeMember
  cases value.object? with
  | none => exact .raise _
  | some object =>
    intro world after hafter
    cases hafter
    exact ⟨[.writeMember object member content], List.forall_mem_singleton.mpr rfl, rfl⟩

theorem Value.removeMember_isQuiet (value : Value) (member : String) :
    (value.removeMember member).IsQuiet := by
  unfold removeMember
  cases value.object? with
  | none => exact .raise _
  | some object =>
    intro world after hafter
    dsimp only at hafter
    split at hafter
    · next removed rest _ =>
      cases hafter
      exact ⟨[.setMembers object rest], List.forall_mem_singleton.mpr rfl, rfl⟩
    · cases hafter
      exact ⟨[], nofun, rfl⟩

namespace Receiver

theorem writeMember_isQuiet (member : String) (content : Value) (receiver : Receiver) :
    (receiver.writeMember member content).IsQuiet := by
  induction receiver with
  | native value => exact value.writeMember_isQuiet member content
  | descriptor | functions => exact .raise _
  | foreign value =>
    unfold writeMember
    cases value.members? with
    | some backing => exact backing.writeMember_isQuiet member content
    | none => exact .raise _
  | view _ ih => exact ih

theorem removeMember_isQuiet (member : String) (receiver : Receiver) :
    (receiver.removeMember member).IsQuiet := by
  induction receiver with
  | native value => exact value.removeMember_isQuiet member
  | descriptor | functions => exact .raise _
  | foreign value =>
    unfold removeMember
    cases value.members? with
    | some backing => exact backing.removeMember_isQuiet member
    | none => exact .raise _
  | view _ ih => exact ih

end Receiver

theorem Operator.run_isQuiet (operator : BinaryOperator) (operation : Operation)
    (left right : Receiver) : (run operator operation left right).IsQuiet := by
  intro world after hafter
  unfold run at hafter
  cases happly : apply world operator operation left right with
  | error fault =>
    rw [happly] at hafter
    cases hafter
    exact ⟨[], nofun, rfl⟩
  | ok scalar =>
    rw [happly] at hafter
    cases scalar with
    | integer | boolean =>
      cases hafter
      exact ⟨[], nofun, rfl⟩
    | text =>
      cases hafter
      exact ⟨[.freshIdentity], List.forall_mem_singleton.mpr rfl, rfl⟩

namespace Session

/-! ## Steps -/

theorem StoreRequest.build_meets (key : String) (request : StoreRequest) :
    (request.build key).Meets request.demands := by
  cases request with
  | read | remove | get | contains => exact .pure _
  | write content | getOrInsert content => exact content.build_meets.before fun _ ↦ .pure _

theorem answerStore_meets (object : ObjectId) (key : String) (request : StoreRequest) :
    (answerStore object key request).Meets request.demands := by
  rw [answerStore_eq_serve]
  refine (request.build_meets key).before fun request ↦ ?_
  refine Script.Meets.after (.change (fun world ↦
    [.setMembers object (request.serve (world.members object)).2]) (fun _ ↦ ?_) fun _ ↦ rfl)
    fun _ ↦ .answer
  exact List.forall_mem_singleton.mpr rfl

theorem functionOf_meets (value : Value) : (functionOf value).Meets [] := by
  unfold functionOf
  cases value.function? with
  | some function => exact .pure function
  | none => exact .throw _

theorem compareCells_meets (world : World) (left right : Value) :
    (compareCells world left right).Meets [] := by
  unfold compareCells
  split
  · exact .pure _
  · exact .pure _
  · exact .throw _

theorem calleeRoute_meets (callee : Callee) : (calleeRoute callee).Meets callee.demands := by
  cases callee with
  | named name => exact .pure _
  | function function | throughSite _ function =>
    exact function.build_meets.before fun value ↦ (functionOf_meets value).after fun _ ↦ .pure _

/-- A call is prepared by meeting the demands of the step. -/
theorem prepareCall_meets {step : Step} {prepare : Script PreparedCall}
    (hprepare : prepareCall? step = some prepare) : prepare.Meets step.demands := by
  cases step with
  | call callee arguments registry =>
    obtain rfl := Option.some.inj hprepare
    refine (ValueSpec.buildAll_meets arguments).bind fun _ ↦ .registry registry fun _ ↦ ?_
    exact (calleeRoute_meets callee).before fun _ ↦ .pure _
  | message receiver message =>
    cases message with
    | execute arguments registry =>
      obtain rfl := Option.some.inj hprepare
      refine receiver.build_meets.bind fun _ ↦ ?_
      exact (ValueSpec.buildAll_meets arguments).before fun _ ↦ .registry registry fun _ ↦ .pure _
    | _ => cases hprepare
  | _ => cases hprepare

theorem answerMessage_meets {message : Message}
    (hmessage : ∀ arguments registry, message ≠ .execute arguments registry) (routing : Routing)
    (allowance : Nat) (receiver : Receiver) :
    (answerMessage routing allowance receiver message).Meets message.demands := by
  cases message with
  | execute arguments registry => exact absurd rfl (hmessage arguments registry)
  | readMember | memberFlags | memberNames | element | location => exact .answer
  | writeMember member content =>
    refine content.build_meets.before fun value ↦ ?_
    exact (Script.Meets.perform (receiver.writeMember_isQuiet member value)).after fun _ ↦ .pure _
  | removeMember member =>
    exact (Script.Meets.perform (receiver.removeMember_isQuiet member)).after fun _ ↦ .pure _
  | describes candidate => exact candidate.build_meets.before fun _ ↦ .pure _
  | elementCount | identityHash | type | asBoolean | asText | asLong | asInteger | simpleName =>
    exact .pure _

variable {routing : Routing} {allowance : Nat} {state after : State} {answer : Answer}

/-- A definition is registered once it is built. -/
theorem register_completes {name registry : String} {definition : DefinitionSpec}
    (hrun : (answerStep routing allowance (.register name definition registry)).run state =
      .ok (answer, after)) :
    state.Completes (.register name definition registry) after := by
  obtain ⟨built, afterBuilding, hbuilt, hrest⟩ := Script.bind_ok hrun
  obtain ⟨known, middle, hregistry, hlast⟩ := Script.bind_ok hrest
  obtain ⟨effects, htakes, hknown, hnone⟩ := State.Takes.registry hregistry
  have hmeets : state.Meets (definition.demands ++ []) middle :=
    (definition.build_meets hbuilt).trans (.of_takes htakes hnone)
  rw [List.append_nil] at hmeets
  refine ⟨middle, hmeets, ?_⟩
  cases hlast
  rw [Step.ownEffects, hbuilt]
  dsimp only
  rw [hknown]
  exact .applyAll fun hnames ↦ ⟨(hnames _ _ hknown).1, trivial⟩

/-- A batch is registered where its registry has been found. -/
theorem registerBatch_completes {name registry : String}
    (hrun : (answerStep routing allowance (.registerBatch name registry)).run state =
      .ok (answer, after)) :
    state.Completes (.registerBatch name registry) after := by
  obtain ⟨_, _, hstate, hrest⟩ := Script.bind_ok hrun
  cases hstate
  cases hbatch : state.batches.get? name with
  | none =>
    rw [hbatch] at hrest
    cases hrest
  | some batch =>
    rw [hbatch] at hrest
    obtain ⟨known, middle, hregistry, hlast⟩ := Script.bind_ok hrest
    obtain ⟨effects, htakes, hknown, hnone⟩ := State.Takes.registry hregistry
    refine ⟨middle, .of_takes htakes hnone, ?_⟩
    have happlied : (middle.world.registry known.1).applied =
        (state.world.registry known.1).applied := by
      rw [htakes.world_eq]
      refine Effect.applied_applyAll fun effect heffect batch hbegins ↦ hnone effect heffect ?_
      rw [hbegins]
      rfl
    have heffects : state.world.batchEffects known.1 batch =
        middle.world.batchEffects known.1 batch := by
      rw [World.batchEffects, World.batchEffects, happlied]
    cases hlast
    simp only [Step.ownEffects, hbatch, hknown, heffects]
    rw [← World.applyAll_batchEffects]
    exact .applyAll fun hnames ↦ World.allAllowed_batchEffects (hnames _ _ hknown).1 batch

/-- A step that calls nothing meets its demands, and then asks for what it asks in its own right. -/
theorem answerStep_completes {step : Step} (hquiet : prepareCall? step = none)
    (hrun : (answerStep routing allowance step).run state = .ok (answer, after)) :
    state.Completes step after := by
  have hplain (hmeets : (answerStep routing allowance step).Meets step.demands)
      (hown : step.ownEffects state.world.batchEffects state after = []) :
      state.Completes step after :=
    ⟨after, hmeets hrun, hown ▸ .refl after⟩
  cases step with
  | call => cases hquiet
  | register name definition registry => exact register_completes hrun
  | registerBatch name registry => exact registerBatch_completes hrun
  | define slot receiver =>
    refine hplain (receiver.buildPlace_meets.before fun place ↦ ?_) rfl
    exact Script.Meets.after (.of_same fun hrun ↦ by cases hrun; exact ⟨rfl, rfl⟩) fun _ ↦ .answer
  | probe receiver | display receiver | debug receiver =>
    exact hplain (receiver.build_meets.before fun _ ↦ .answer) rfl
  | compareCells left right =>
    refine hplain (left.build_meets.bind fun _ ↦ right.build_meets.before fun _ ↦ ?_) rfl
    exact Script.Meets.world.after fun world ↦ compareCells_meets world _ _
  | operate operator operation left right =>
    refine hplain (left.build_meets.bind fun left ↦ right.build_meets.before fun right ↦ ?_) rfl
    have hoperator := Operator.run_isQuiet operator operation.toOperation left right
    exact (Script.Meets.perform hoperator).after fun _ ↦ .answer
  | identical left right =>
    exact hplain (left.buildPlace_meets.bind fun _ ↦
      right.buildPlace_meets.before fun _ ↦ .pure _) rfl
  | classify receiver => exact hplain (receiver.build_meets.before fun _ ↦ .pure _) rfl
  | message receiver message =>
    refine hplain (receiver.build_meets.bind fun receiver ↦
      answerMessage_meets ?_ routing allowance receiver) rfl
    rintro arguments registry rfl
    cases hquiet
  | store object key request =>
    refine hplain (object.build_meets.bind fun value ↦ ?_) rfl
    cases value.object? with
    | some object => exact (answerStore_meets object key request).before fun _ ↦ .answer
    | none => exact .throw _
  | operation | location | makeFault => exact hplain (.pure _) rfl
  | typeError operation operands =>
    exact hplain ((buildReceivers_meets operands).before fun _ ↦ .answer) rfl
  | lookup name create registry =>
    refine hplain (.onRegistry registry fun hknown hrun ↦ ?_) rfl
    cases create with
    | true =>
      cases hrun
      exact Script.Meets.findOrCreate hknown
    | false =>
      cases hrun
      exact Script.Meets.find hknown
  | functions registry | dispatcher registry =>
    exact hplain (.registry registry fun _ ↦ .answer) rfl
  | sameFunction left right =>
    refine hplain (left.build_meets.bind fun value ↦ (functionOf_meets value).after fun _ ↦ ?_) rfl
    exact right.build_meets.before fun value ↦ (functionOf_meets value).after fun _ ↦ .pure _
  | batch name entries =>
    refine hplain ((buildEntries_meets entries).before fun entries ↦ ?_) rfl
    refine Script.Meets.after (.freshIdentity fun _ ↦ rfl) fun identity ↦ ?_
    exact Script.Meets.after (.of_same fun hrun ↦ by cases hrun; exact ⟨rfl, rfl⟩) fun _ ↦ .pure _
  | site name => exact hplain .answer rfl

end Session

end GuestCore
