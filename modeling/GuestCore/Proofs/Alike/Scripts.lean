import GuestCore.Proofs.Alike.Interruptions

/-!
# Scripts That Are Alike

Two sessions whose states are alike run the same script alike: it ends with the same error, or with
alike results in states that are alike again, at some later stage.  This passes through sequencing,
reading and writing.  Whatever a session builds from a description is alike on both sides.
-/

namespace GuestCore

open Session

variable {loose : RegistryId → String → Bool} {stage later : Stage}

structure Place.Alike (stage : Stage) (left right : Place) : Prop where
  address_eq : left.address = right.address
  receiver : left.receiver.Alike stage right.receiver

theorem Place.Alike.mono {left right : Place} (halike : left.Alike stage right)
    (hlater : stage ≤ later) : left.Alike later right :=
  ⟨halike.address_eq, halike.receiver.mono hlater⟩

namespace Session

/-- The states of two sessions with alike worlds and alike things under the same names. -/
structure State.AlikeAt (loose : RegistryId → String → Bool) (stage : Stage)
    (left right : State) : Prop where
  config_eq : left.config = right.config
  world : World.Alike loose stage left.world right.world
  registries_eq : left.registries = right.registries
  batches : Members.Related (Batch.Alike stage) left.batches right.batches
  slots : Members.Related (Place.Alike stage) left.slots right.slots
  names : ∀ name known, left.registries.get? name = some known →
    stage.registries known.1 ∧ stage.dispatchers known.2

theorem State.AlikeAt.setWorld {left right : State} {leftWorld rightWorld : World}
    (hstates : State.AlikeAt loose stage left right) (hlater : stage ≤ later)
    (hworlds : World.Alike loose later leftWorld rightWorld) :
    State.AlikeAt loose later { left with world := leftWorld }
      { right with world := rightWorld } where
  config_eq := hstates.config_eq
  world := hworlds
  registries_eq := hstates.registries_eq
  batches := hstates.batches.mono fun hbatch ↦ hbatch.mono hlater
  slots := hstates.slots.mono fun hplace ↦ hplace.mono hlater
  names name known hname :=
    have hknown := hstates.names name known hname
    ⟨hlater.registries hknown.1, hlater.dispatchers hknown.2⟩

section

variable {α β : Type}

/-- The same error, or related values in states that are alike at a later stage. -/
inductive ResultsAlike (loose : RegistryId → String → Bool) (stage : Stage)
    (values : Stage → α → β → Prop) :
    Except Malformed (α × State) → Except Malformed (β × State) → Prop where
  | ok {last : Stage} {value : α} {other : β} {left right : State} (hlast : stage ≤ last)
      (hvalues : values last value other) (hstates : State.AlikeAt loose last left right) :
    ResultsAlike loose stage values (.ok (value, left)) (.ok (other, right))
  | error (malformed : Malformed) :
    ResultsAlike loose stage values (.error malformed) (.error malformed)

theorem ResultsAlike.of_later {values : Stage → α → β → Prop}
    {left : Except Malformed (α × State)} {right : Except Malformed (β × State)}
    (hresults : ResultsAlike loose later values left right) (hlater : stage ≤ later) :
    ResultsAlike loose stage values left right := by
  cases hresults with
  | ok hlast hvalues hstates => exact .ok (hlater.trans hlast) hvalues hstates
  | error malformed => exact .error malformed

theorem ResultsAlike.imp {values weaker : Stage → α → β → Prop}
    {left : Except Malformed (α × State)} {right : Except Malformed (β × State)}
    (hresults : ResultsAlike loose stage values left right)
    (hweaker : ∀ {last value other}, values last value other → weaker last value other) :
    ResultsAlike loose stage weaker left right := by
  cases hresults with
  | ok hlast hvalues hstates => exact .ok hlast (hweaker hvalues) hstates
  | error malformed => exact .error malformed

/-- From states that are alike the two scripts end alike. -/
def Script.AlikeAt (loose : RegistryId → String → Bool) (stage : Stage)
    (values : Stage → α → β → Prop) (left : Script α) (right : Script β) : Prop :=
  ∀ ⦃later : Stage⦄, stage ≤ later → ∀ ⦃leftState rightState : State⦄,
    State.AlikeAt loose later leftState rightState →
      ResultsAlike loose later values (left.run leftState) (right.run rightState)

/-- The same fault, or related results. -/
inductive ExceptAlike (related : α → β → Prop) : Except Fault α → Except Fault β → Prop where
  | ok {value : α} {other : β} (hrelated : related value other) :
    ExceptAlike related (.ok value) (.ok other)
  | error (fault : Fault) : ExceptAlike related (.error fault) (.error fault)

end

namespace Script.AlikeAt

variable {α β γ δ : Type} {values : Stage → α → β → Prop} {others : Stage → γ → δ → Prop}
  {left : Script α} {right : Script β}

theorem pure {value : α} {other : β}
    (hvalues : ∀ later, stage ≤ later → values later value other) :
    Script.AlikeAt loose stage values (Pure.pure value) (Pure.pure other) :=
  fun later hlater _ _ hstates ↦ .ok le_rfl (hvalues later hlater) hstates

theorem throw (malformed : Malformed) :
    Script.AlikeAt loose stage values (MonadExcept.throw malformed)
      (MonadExcept.throw malformed) :=
  fun _ _ _ _ _ ↦ .error malformed

theorem bind {next : α → Script γ} {following : β → Script δ}
    (hfirst : Script.AlikeAt loose stage values left right)
    (hnext : ∀ later, stage ≤ later → ∀ value other, values later value other →
      Script.AlikeAt loose later others (next value) (following other)) :
    Script.AlikeAt loose stage others (left >>= next) (right >>= following) := by
  intro later hlater leftState rightState hstates
  have hends := hfirst hlater hstates
  rw [StateT.run_bind, StateT.run_bind]
  generalize left.run leftState = leftResult, right.run rightState = rightResult at hends
  cases hends with
  | error malformed => exact .error malformed
  | ok hlast hvalues hmiddle =>
    exact (hnext _ (hlater.trans hlast) _ _ hvalues le_rfl hmiddle).of_later hlast

/-- Both sides read the state. -/
theorem getState {next : State → Script γ} {following : State → Script δ}
    (hnext : ∀ later, stage ≤ later → ∀ leftState rightState,
      State.AlikeAt loose later leftState rightState →
        Script.AlikeAt loose later others (next leftState) (following rightState)) :
    Script.AlikeAt loose stage others (get >>= next) (get >>= following) :=
  fun _ hlater _ _ hstates ↦ hnext _ hlater _ _ hstates le_rfl hstates

/-- Both sides read the world. -/
theorem getWorld {next : World → Script γ} {following : World → Script δ}
    (hnext : ∀ later, stage ≤ later → ∀ leftWorld rightWorld,
      World.Alike loose later leftWorld rightWorld →
        Script.AlikeAt loose later others (next leftWorld) (following rightWorld)) :
    Script.AlikeAt loose stage others (Script.world >>= next) (Script.world >>= following) :=
  fun _ hlater _ _ hstates ↦ hnext _ hlater _ _ hstates.world le_rfl hstates

/-- Both sides change the world. -/
theorem change {leftStep : World → α × World} {rightStep : World → β × World}
    (hstep : ∀ later, stage ≤ later → ∀ leftWorld rightWorld,
      World.Alike loose later leftWorld rightWorld →
        ∃ last, later ≤ last ∧ values last (leftStep leftWorld).1 (rightStep rightWorld).1 ∧
          World.Alike loose last (leftStep leftWorld).2 (rightStep rightWorld).2) :
    Script.AlikeAt loose stage values (Script.change leftStep) (Script.change rightStep) := by
  intro later hlater leftState rightState hstates
  obtain ⟨last, hlast, hvalues, hworlds⟩ := hstep later hlater _ _ hstates.world
  exact .ok hlast hvalues (hstates.setWorld hlast hworlds)

/-- Both sides perform an action. -/
theorem perform {leftAction : Action α} {rightAction : Action β}
    (haction : Action.Alike loose stage values leftAction rightAction) :
    Script.AlikeAt loose stage (fun later ↦ ExceptAlike (values later))
      (Script.perform leftAction) (Script.perform rightAction) := by
  intro later hlater leftState rightState hstates
  have hends := haction hlater hstates.world
  rw [Script.run_perform, Script.run_perform]
  generalize leftAction leftState.world = outcome, rightAction rightState.world = other at hends
  cases hends with
  | returned hmore hvalues hworlds =>
    exact .ok hmore (.ok hvalues) (hstates.setWorld hmore hworlds)
  | raised hmore hworlds => exact .ok hmore (.error _) (hstates.setWorld hmore hworlds)
  | exhausted => exact .error _

/-- The registry of a name and its dispatcher are known once they have been asked for. -/
theorem registry (name : String) :
    Script.AlikeAt loose stage
      (fun later known other ↦ known = other ∧ later.registries known.1 ∧
        later.dispatchers known.2)
      (Script.registry name) (Script.registry name) := by
  intro later hlater leftState rightState hstates
  rw [Script.run_registry, Script.run_registry, ← hstates.registries_eq]
  cases hname : leftState.registries.get? name with
  | some known => exact .ok le_rfl ⟨rfl, hstates.names name known hname⟩ hstates
  | none =>
    have hcreated := (hstates.world.newRegistry leftState.config).newDispatcher (.inr rfl)
    have hmore : later ≤
        (later.withRegistry leftState.newNames.1).withDispatcher leftState.newNames.2 :=
      (later.le_withRegistry _).trans (Stage.le_withDispatcher _ _)
    have hsame : leftState.newNames = rightState.newNames := by
      rw [State.newNames, State.newNames, hstates.world.size_registries_eq,
        hstates.world.dispatchers_eq]
    have hstates' := hstates.setWorld hmore hcreated
    refine .ok hmore ⟨hsame, .inr rfl, .inr rfl⟩ ?_
    rw [State.addNames, State.addNames, ← hsame, ← hstates.config_eq]
    refine { hstates' with config_eq := rfl, registries_eq := ?_, names := ?_ }
    · rw [hstates.registries_eq]
    · intro other known hother
      change (leftState.registries.insert name leftState.newNames).get? other = some known
        at hother
      rw [Members.get?_insert] at hother
      split at hother
      · obtain rfl := Option.some.inj hother
        exact ⟨.inr rfl, .inr rfl⟩
      · exact hstates'.names other known hother

/-- Both sides look a registry up; what follows begins where it is known. -/
theorem onRegistry (name : String) {next : RegistryId × DispatcherId → Script γ}
    {following : RegistryId × DispatcherId → Script δ}
    (hnext : ∀ later, stage ≤ later → ∀ registry dispatcher, later.registries registry →
      later.dispatchers dispatcher →
        Script.AlikeAt loose later others (next (registry, dispatcher))
          (following (registry, dispatcher))) :
    Script.AlikeAt loose stage others (Script.registry name >>= next)
      (Script.registry name >>= following) := by
  refine (registry name).bind ?_
  rintro later hlater ⟨registry, dispatcher⟩ _ ⟨rfl, hregistry, hdispatcher⟩
  exact hnext later hlater registry dispatcher hregistry hdispatcher

theorem place (slot : String) :
    Script.AlikeAt loose stage Place.Alike (Script.place slot) (Script.place slot) := by
  refine getState fun later _ leftState rightState hstates ↦ ?_
  have hplace := hstates.slots.get? slot
  generalize leftState.slots.get? slot = place, rightState.slots.get? slot = place' at hplace
  cases hplace with
  | none => exact .throw _
  | some hplace => exact .pure fun _ hlast ↦ hplace.mono hlast

theorem freshIdentity :
    Script.AlikeAt loose stage (fun _ ↦ Eq) (Script.change World.freshIdentity)
      (Script.change World.freshIdentity) :=
  .change fun later _ _ _ hworlds ↦
    ⟨later, le_rfl, hworlds.nextIdentity_eq, hworlds.freshIdentity⟩

theorem findOrCreate {registry : RegistryId} (hregistry : stage.registries registry)
    (name : String) :
    Script.AlikeAt loose stage (fun later ↦ later.functions)
      (Script.change fun world ↦ world.findOrCreate registry name)
      (Script.change fun world ↦ world.findOrCreate registry name) := by
  refine change fun later hlater leftWorld rightWorld hworlds ↦ ?_
  have hexists := hworlds.hasRegistry (hlater.registries hregistry)
  obtain ⟨hpaired, hmore, hafter⟩ := hworlds.findOrCreate hexists name
  exact ⟨_, hmore, hpaired, hafter⟩

end Script.AlikeAt

end Session

/-! ## Building -/

namespace Body

variable {κ : Type} {convert : κ → Script Value}

mutual

/-- A body is built alike if its constants are. -/
theorem mapConstants_alike
    (hconvert : ∀ value stage, Script.AlikeAt loose stage Value.Alike (convert value)
      (convert value)) {stage : Stage} :
    (body : Body κ) → Script.AlikeAt loose stage Body.Alike (body.mapConstants convert)
      (body.mapConstants convert)
  | constant value => by
    rw [mapConstants]
    apply (hconvert value stage).bind
    intro _ _ _ _ hvalue
    exact .pure fun _ hlast ↦ .constant (hvalue.mono hlast)
  | argument index => by
    rw [mapConstants]
    exact .pure fun _ _ ↦ .argument index
  | argumentCount => by
    rw [mapConstants]
    exact .pure fun _ _ ↦ .argumentCount
  | depth => by
    rw [mapConstants]
    exact .pure fun _ _ ↦ .depth
  | lookup name => by
    rw [mapConstants]
    exact .pure fun _ _ ↦ .lookup name
  | fail member => by
    rw [mapConstants]
    exact .pure fun _ _ ↦ .fail member
  | list items => by
    rw [mapConstants]
    apply (mapConstantsAll_alike hconvert items).bind
    intro _ _ _ _ hitems
    exact .pure fun _ hlast ↦ .list (allAlike_mono hlast hitems)
  | sequence items => by
    rw [mapConstants]
    apply (mapConstantsAll_alike hconvert items).bind
    intro _ _ _ _ hitems
    exact .pure fun _ hlast ↦ .sequence (allAlike_mono hlast hitems)
  | call name items => by
    rw [mapConstants]
    apply (mapConstantsAll_alike hconvert items).bind
    intro _ _ _ _ hitems
    exact .pure fun _ hlast ↦ .call name (allAlike_mono hlast hitems)
  | callAt site name items => by
    rw [mapConstants]
    apply (mapConstantsAll_alike hconvert items).bind
    intro _ _ _ _ hitems
    exact .pure fun _ hlast ↦ .callAt site name (allAlike_mono hlast hitems)
  | registerBatch identity names items => by
    rw [mapConstants]
    apply (mapConstantsAll_alike hconvert items).bind
    intro _ _ _ _ hitems
    exact .pure fun _ hlast ↦ .registerBatch identity names (allAlike_mono hlast hitems)
  | operator op operation left right => by
    rw [mapConstants]
    apply (mapConstants_alike hconvert left).bind
    intro _ _ _ _ hleft
    apply (mapConstants_alike hconvert right).bind
    intro _ hmore _ _ hright
    exact .pure fun _ hlast ↦
      .operator op operation (hleft.mono (hmore.trans hlast)) (hright.mono hlast)
  | writeMember object member content => by
    rw [mapConstants]
    apply (mapConstants_alike hconvert object).bind
    intro _ _ _ _ hobject
    apply (mapConstants_alike hconvert content).bind
    intro _ hmore _ _ hcontent
    exact .pure fun _ hlast ↦
      .writeMember member (hobject.mono (hmore.trans hlast)) (hcontent.mono hlast)
  | attempt body fallback => by
    rw [mapConstants]
    apply (mapConstants_alike hconvert body).bind
    intro _ _ _ _ hbody
    apply (mapConstants_alike hconvert fallback).bind
    intro _ hmore _ _ hfallback
    exact .pure fun _ hlast ↦ .attempt (hbody.mono (hmore.trans hlast)) (hfallback.mono hlast)
  | choose condition thenBranch elseBranch => by
    rw [mapConstants]
    apply (mapConstants_alike hconvert condition).bind
    intro _ _ _ _ hcondition
    apply (mapConstants_alike hconvert thenBranch).bind
    intro _ hmore _ _ hthen
    apply (mapConstants_alike hconvert elseBranch).bind
    intro _ hmore' _ _ helse
    exact .pure fun _ hlast ↦ .choose (hcondition.mono (hmore.trans (hmore'.trans hlast)))
      (hthen.mono (hmore'.trans hlast)) (helse.mono hlast)
  | execute callee arguments => by
    rw [mapConstants]
    apply (mapConstants_alike hconvert callee).bind
    intro _ _ _ _ hcallee
    apply (mapConstantsAll_alike hconvert arguments).bind
    intro _ hmore _ _ harguments
    exact .pure fun _ hlast ↦
      .execute (hcallee.mono (hmore.trans hlast)) (allAlike_mono hlast harguments)
  | executeAt site callee arguments => by
    rw [mapConstants]
    apply (mapConstants_alike hconvert callee).bind
    intro _ _ _ _ hcallee
    apply (mapConstantsAll_alike hconvert arguments).bind
    intro _ hmore _ _ harguments
    exact .pure fun _ hlast ↦
      .executeAt site (hcallee.mono (hmore.trans hlast)) (allAlike_mono hlast harguments)
  | register name body location => by
    rw [mapConstants]
    apply (mapConstants_alike hconvert body).bind
    intro _ _ _ _ hbody
    exact .pure fun _ hlast ↦ .register name location (hbody.mono hlast)
  | readMember object member => by
    rw [mapConstants]
    apply (mapConstants_alike hconvert object).bind
    intro _ _ _ _ hobject
    exact .pure fun _ hlast ↦ .readMember member (hobject.mono hlast)
  | removeMember object member => by
    rw [mapConstants]
    apply (mapConstants_alike hconvert object).bind
    intro _ _ _ _ hobject
    exact .pure fun _ hlast ↦ .removeMember member (hobject.mono hlast)

theorem mapConstantsAll_alike
    (hconvert : ∀ value stage, Script.AlikeAt loose stage Value.Alike (convert value)
      (convert value)) {stage : Stage} :
    (bodies : List (Body κ)) → Script.AlikeAt loose stage
      (fun later ↦ List.Forall₂ (Body.Alike later)) (mapConstantsAll convert bodies)
      (mapConstantsAll convert bodies)
  | [] => by
    rw [mapConstantsAll]
    exact .pure fun _ _ ↦ .nil
  | body :: rest => by
    rw [mapConstantsAll]
    apply (mapConstants_alike hconvert body).bind
    intro _ _ _ _ hbody
    apply (mapConstantsAll_alike hconvert rest).bind
    intro _ hmore _ _ hrest
    exact .pure fun _ hlast ↦ .cons (hbody.mono (hmore.trans hlast)) (allAlike_mono hlast hrest)

end

end Body

namespace Session

namespace ValueSpec

theorem wrap_alike {value other : Value} {leftWorld rightWorld : World}
    (hworlds : World.Alike loose stage leftWorld rightWorld) (hvalue : value.Alike stage other) :
    (depth : Nat) → (wrap value depth leftWorld).1.Alike stage (wrap other depth rightWorld).1 ∧
      World.Alike loose stage (wrap value depth leftWorld).2 (wrap other depth rightWorld).2
  | 0 => ⟨hvalue, hworlds⟩
  | depth + 1 => by
    obtain ⟨hinner, hwrapped⟩ := wrap_alike hworlds hvalue depth
    exact hwrapped.newList (.cons hinner .nil)

mutual

theorem build_alike {stage : Stage} : (spec : ValueSpec) →
    Script.AlikeAt loose stage Value.Alike spec.build spec.build
  | null => by
    rw [build]
    exact .pure fun _ _ ↦ .null
  | boolean value => by
    rw [build]
    exact .pure fun _ _ ↦ .boolean value
  | integer value => by
    rw [build]
    exact .pure fun _ _ ↦ .integer value
  | text content => by
    rw [build]
    exact .change fun later _ _ _ hworlds ↦ ⟨later, le_rfl, hworlds.newText content⟩
  | list items => by
    rw [build]
    apply (buildAll_alike items).bind
    intro _ _ values others hvalues
    exact .change fun later hlater _ _ hworlds ↦
      ⟨later, le_rfl, hworlds.newList (Value.allAlike_mono hlater hvalues)⟩
  | slot name => by
    rw [build]
    apply (Script.AlikeAt.place name).bind
    intro _ _ place place' hplace
    have hnative := hplace.receiver.native?
    generalize place.receiver.native? = value, place'.receiver.native? = value' at hnative
    cases hnative with
    | none => exact .throw _
    | some hvalue => exact .pure fun _ hlast ↦ hvalue.mono hlast
  | function name registry => by
    rw [build]
    apply Script.AlikeAt.onRegistry registry
    intro _ _ registry _ hregistry _
    apply (Script.AlikeAt.findOrCreate hregistry name).bind
    intro _ _ _ _ hfunction
    exact .pure fun _ hlast ↦ .function (hlast.functions hfunction)
  | object fields => by
    rw [build]
    apply (buildFields_alike .empty fields).bind
    intro later _ members others hmembers
    have hcreated : Script.AlikeAt loose later
        (fun last object other ↦ object = other ∧ last.objects object)
        (Script.change fun world ↦ world.newObject members)
        (Script.change fun world ↦ world.newObject others) := by
      refine .change fun last hlast leftWorld rightWorld hworlds ↦ ?_
      have hafter := hworlds.newObject (hmembers.mono fun hvalue ↦ hvalue.mono hlast)
      refine ⟨_, last.le_withObject _, ⟨?_, .inr rfl⟩, hafter⟩
      exact congrArg ObjectId.mk hworlds.size_objects_eq
    apply hcreated.bind
    rintro _ _ object _ ⟨rfl, hobject⟩
    exact .pure fun _ hlast ↦ .object (hlast.objects hobject)
  | nested depth item => by
    rw [build]
    apply (build_alike item).bind
    intro _ _ _ _ hvalue
    exact .change fun later hlater _ _ hworlds ↦
      ⟨later, le_rfl, wrap_alike hworlds (hvalue.mono hlater) depth⟩

theorem buildAll_alike {stage : Stage} : (specs : List ValueSpec) →
    Script.AlikeAt loose stage (fun later ↦ List.Forall₂ (Value.Alike later)) (buildAll specs)
      (buildAll specs)
  | [] => by
    rw [buildAll]
    exact .pure fun _ _ ↦ .nil
  | spec :: rest => by
    rw [buildAll]
    apply (build_alike spec).bind
    intro _ _ _ _ hvalue
    apply (buildAll_alike rest).bind
    intro _ hmore _ _ hvalues
    exact .pure fun _ hlast ↦
      .cons (hvalue.mono (hmore.trans hlast)) (Value.allAlike_mono hlast hvalues)

theorem buildFields_alike {stage : Stage} {members others : Members Value}
    (hmembers : Members.Related (Value.Alike stage) members others) :
    (fields : List (String × ValueSpec)) → Script.AlikeAt loose stage
      (fun later ↦ Members.Related (Value.Alike later)) (buildFields members fields)
      (buildFields others fields)
  | [] => by
    rw [buildFields, buildFields]
    exact .pure fun _ hlast ↦ hmembers.mono fun hvalue ↦ hvalue.mono hlast
  | (key, spec) :: rest => by
    rw [buildFields, buildFields]
    apply (build_alike spec).bind
    intro _ hmore _ _ hvalue
    refine buildFields_alike ?_ rest
    exact (hmembers.mono fun hvalue ↦ hvalue.mono hmore).insert key hvalue

end

end ValueSpec

theorem DefinitionSpec.build_alike (spec : DefinitionSpec) :
    Script.AlikeAt loose stage Definition.Alike spec.build spec.build := by
  apply (Body.mapConstants_alike (fun spec _ ↦ spec.build_alike) spec.body).bind
  intro _ _ _ _ hbody
  exact .pure fun _ hlast ↦ ⟨hbody.mono hlast, rfl⟩

/-- An optional part is built alike if the part is. -/
theorem Script.mapM_alike {σ τ : Type} {build : σ → Script τ} {values : Stage → τ → τ → Prop}
    (hbuild : ∀ spec stage, Script.AlikeAt loose stage values (build spec) (build spec))
    (hmono : ∀ {stage later left right}, stage ≤ later → values stage left right →
      values later left right) (spec? : Option σ) :
    Script.AlikeAt loose stage (fun later ↦ Option.Rel (values later)) (spec?.mapM build)
      (spec?.mapM build) := by
  cases spec? with
  | none => exact .pure fun _ _ ↦ .none
  | some spec =>
    have hmap : (some spec).mapM build = build spec >>= fun value ↦ Pure.pure (some value) := rfl
    rw [hmap]
    apply (hbuild spec stage).bind
    intro _ _ _ _ hvalue
    exact .pure fun _ hlast ↦ .some (hmono hlast hvalue)

theorem ForeignSpec.build_alike (spec : ForeignSpec) :
    Script.AlikeAt loose stage Foreign.Alike spec.build spec.build := by
  have hvalue (stage : Stage) (spec? : Option ValueSpec) : Script.AlikeAt loose stage
      (fun later ↦ Option.Rel (Value.Alike later)) (spec?.mapM ValueSpec.build)
      (spec?.mapM ValueSpec.build) :=
    Script.mapM_alike (fun spec _ ↦ spec.build_alike) (fun hlater h ↦ h.mono hlater) spec?
  apply (hvalue stage spec.native).bind
  intro first _ _ _ hnative
  apply (hvalue first spec.members).bind
  intro second hsecond _ _ hmembers
  apply (hvalue second spec.elements).bind
  intro third hthird _ _ helements
  refine (Script.mapM_alike (fun body _ ↦ Body.mapConstants_alike
    (fun spec _ ↦ spec.build_alike) body) (fun hlater h ↦ h.mono hlater) spec.body).bind ?_
  intro fourth hfourth _ _ hbody
  refine Script.AlikeAt.freshIdentity.bind ?_
  rintro fifth hfifth handle _ rfl
  refine .pure fun last hlast ↦ ?_
  have hfromFourth := hfifth.trans hlast
  have hfromThird := hfourth.trans hfromFourth
  have hfromSecond := hthird.trans hfromThird
  exact
    { native := optionRel_mono hnative fun h ↦ h.mono (hsecond.trans hfromSecond)
      members := optionRel_mono hmembers fun h ↦ h.mono hfromSecond
      elements := optionRel_mono helements fun h ↦ h.mono hfromThird
      body := optionRel_mono hbody fun h ↦ h.mono hfromFourth
      rest_eq := rfl
      steady := fun _ _ ↦ rfl }

namespace ReceiverSpec

theorem build_alike {stage : Stage} (spec : ReceiverSpec) :
    Script.AlikeAt loose stage Receiver.Alike spec.build spec.build := by
  induction spec with
  | slot name =>
    apply (Script.AlikeAt.place name).bind
    intro _ _ _ _ hplace
    exact .pure fun _ hlast ↦ hplace.receiver.mono hlast
  | view delegate ih =>
    apply ih.bind
    intro _ _ _ _ hdelegate
    exact .pure fun _ hlast ↦ .view (hdelegate.mono hlast)
  | descriptor type => exact .pure fun _ _ ↦ .descriptor type
  | functions registry =>
    exact .onRegistry registry fun _ _ registry _ _ _ ↦ .pure fun _ _ ↦ .functions registry
  | foreign spec =>
    apply (ForeignSpec.build_alike spec).bind
    intro _ _ _ _ hvalue
    exact .pure fun _ hlast ↦ .foreign (hvalue.mono hlast)
  | value spec =>
    apply (ValueSpec.build_alike spec).bind
    intro _ _ _ _ hvalue
    exact .pure fun _ hlast ↦ .native (hvalue.mono hlast)

theorem buildPlace_alike (spec : ReceiverSpec) :
    Script.AlikeAt loose stage Place.Alike spec.buildPlace spec.buildPlace := by
  cases spec with
  | slot name => exact .place name
  | view | descriptor | functions | foreign | value =>
    apply (build_alike _).bind
    intro _ _ _ _ hreceiver
    apply Script.AlikeAt.freshIdentity.bind
    rintro _ hmore _ _ rfl
    exact .pure fun _ hlast ↦ ⟨rfl, hreceiver.mono (hmore.trans hlast)⟩

end ReceiverSpec

theorem buildEntries_alike {stage : Stage} : (entries : List (String × DefinitionSpec)) →
    Script.AlikeAt loose stage EntriesAlike (buildEntries entries) (buildEntries entries)
  | [] => .pure fun _ _ ↦ .nil
  | (name, spec) :: rest => by
    apply (DefinitionSpec.build_alike spec).bind
    intro _ _ _ _ hdefinition
    apply (buildEntries_alike rest).bind
    intro _ hmore _ _ hrest
    exact .pure fun _ hlast ↦
      .cons ⟨rfl, hdefinition.mono (hmore.trans hlast)⟩ (entriesAlike_mono hrest hlast)

theorem buildReceivers_alike {stage : Stage} : (specs : List ReceiverSpec) →
    Script.AlikeAt loose stage (fun later ↦ List.Forall₂ (Receiver.Alike later))
      (buildReceivers specs) (buildReceivers specs)
  | [] => .pure fun _ _ ↦ .nil
  | spec :: rest => by
    apply (ReceiverSpec.build_alike spec).bind
    intro _ _ _ _ hreceiver
    apply (buildReceivers_alike rest).bind
    intro _ hmore _ _ hrest
    exact .pure fun _ hlast ↦ .cons (hreceiver.mono (hmore.trans hlast))
      (hrest.imp fun _ _ h ↦ h.mono hlast)

theorem functionOf_alike {value other : Value} (hvalue : value.Alike stage other) :
    Script.AlikeAt loose stage (fun later ↦ later.functions) (functionOf value)
      (functionOf other) := by
  have hfunction := hvalue.function?
  unfold functionOf
  generalize value.function? = function, other.function? = function' at hfunction
  cases hfunction with
  | none => exact .throw _
  | some halike => exact .pure fun _ hlast ↦ hlast.functions halike

end Session

end GuestCore
