import GuestCore.Proofs.Alike.Worlds

/-!
# Functions in Worlds That Are Alike

Lookups and registrations keep worlds alike if both sides make them.  A lookup that creates a loose
name keeps them alike even if only the right side makes it.
-/

namespace GuestCore

variable {stage later : Stage}

namespace World

variable {world : World} {registry : RegistryId} {name : String}

/-- Nothing but functions and their names differs. -/
structure SameElsewhere (world after : World) : Prop
    extends world.SameBesidesFunctions after where
  nextIdentity : after.nextIdentity = world.nextIdentity
  applied : ∀ registry, (after.registry registry).applied = (world.registry registry).applied

theorem sameElsewhere_findOrCreate (world : World) (registry : RegistryId) (name : String) :
    world.SameElsewhere (world.findOrCreate registry name).2 := by
  have hsame := world.sameBesidesFunctions_findOrCreate registry name
  cases hname : world.functionNamed? registry name with
  | some function =>
    rw [findOrCreate_of_some hname] at hsame ⊢
    exact ⟨hsame, rfl, fun _ ↦ rfl⟩
  | none =>
    rw [findOrCreate_of_none hname] at hsame ⊢
    refine ⟨hsame, rfl, fun other ↦ ?_⟩
    refine (congrArg Registry.applied (registry_modifyRegistry _ registry other _)).trans ?_
    split <;> rfl

theorem sameElsewhere_register (world : World) (registry : RegistryId) (name : String)
    (definition : Definition) :
    world.SameElsewhere (world.register registry name definition).2 := by
  refine ⟨world.sameBesidesFunctions_register registry name definition, ?_,
    fun other ↦ world.applied_register registry other name definition⟩
  cases hname : world.functionNamed? registry name with
  | some function =>
    rw [register_of_some definition hname]
    rfl
  | none =>
    rw [register_of_none definition hname]
    rfl

theorem stateNamed?_addFunction (hcanonical : world.Canonical)
    (hregistry : world.HasRegistry registry) (definition : Option Definition)
    (other : RegistryId) (asked : String) :
    (world.addFunction registry name definition).2.stateNamed? other asked =
      if other = registry ∧ asked = name then some { name, definition }
      else world.stateNamed? other asked := by
  have hnamed := functionNamed?_of_created
    (world.registry_addFunction registry · name definition hregistry) other asked
  have hstate (function : FunctionId) :
      (world.addFunction registry name definition).2.functionState function =
        if function.index = world.functions.size then { name, definition }
        else world.functionState function :=
    functionState_of_push rfl
  rw [stateNamed?, hnamed]
  split
  · rw [Option.map_some, hstate, if_pos rfl]
  · rw [stateNamed?]
    cases hknown : world.functionNamed? other asked with
    | none => rfl
    | some function =>
      rw [Option.map_some, Option.map_some, hstate, if_neg (hcanonical.ne_new hknown)]

theorem stateNamed?_findOrCreate (hcanonical : world.Canonical)
    (hregistry : world.HasRegistry registry) (name : String) (other : RegistryId)
    (asked : String) :
    (world.findOrCreate registry name).2.stateNamed? other asked =
      if other = registry ∧ asked = name then
        some ((world.stateNamed? registry name).getD { name, definition := none })
      else world.stateNamed? other asked := by
  cases hname : world.functionNamed? registry name with
  | some function =>
    rw [findOrCreate_of_some hname]
    split
    · next hsame =>
      obtain ⟨rfl, rfl⟩ := hsame
      change world.stateNamed? other asked = _
      simp only [stateNamed?, hname, Option.map_some, Option.getD_some]
    · rfl
  | none =>
    have hnone : world.stateNamed? registry name = none := by rw [stateNamed?, hname]; rfl
    have hlogged : (world.log (.lookup name true)).Canonical :=
      hcanonical.congr (fun _ _ ↦ rfl) rfl fun _ ↦ rfl
    rw [findOrCreate_of_none hname, hnone]
    exact stateNamed?_addFunction hlogged hregistry none other asked

theorem stateNamed?_register (hcanonical : world.Canonical)
    (hregistry : world.HasRegistry registry) (name : String) (definition : Definition)
    (other : RegistryId) (asked : String) :
    (world.register registry name definition).2.stateNamed? other asked =
      if other = registry ∧ asked = name then
        some (((world.stateNamed? registry name).map (·.redefine definition)).getD
          { name, definition := some definition })
      else world.stateNamed? other asked := by
  cases hname : world.functionNamed? registry name with
  | none =>
    have hnone : world.stateNamed? registry name = none := by rw [stateNamed?, hname]; rfl
    have hlogged : (world.log (.register name)).Canonical :=
      hcanonical.congr (fun _ _ ↦ rfl) rfl fun _ ↦ rfl
    rw [register_of_none definition hname, hnone]
    exact stateNamed?_addFunction hlogged hregistry (some definition) other asked
  | some function =>
    have hfunctions : (world.register registry name definition).2.functions =
        world.functions.modify function.index fun state ↦ state.redefine definition := by
      rw [register_of_some definition hname]
      rfl
    have hstate := functionState_of_redefine hfunctions
    have hnamed : (world.register registry name definition).2.functionNamed? other asked =
        world.functionNamed? other asked := by
      rw [register_of_some definition hname]
      rfl
    rw [stateNamed?, hnamed]
    split
    · next hsame =>
      obtain ⟨rfl, rfl⟩ := hsame
      rw [stateNamed?, hname, Option.map_some, Option.map_some, Option.map_some, Option.getD_some,
        hstate, if_pos ⟨rfl, hcanonical.hasFunction hname⟩]
    · next hother =>
      rw [stateNamed?]
      cases hknown : world.functionNamed? other asked with
      | none => rfl
      | some known =>
        rw [Option.map_some, Option.map_some, hstate, if_neg]
        rintro ⟨rfl, -⟩
        exact hother (hcanonical.injective hknown hname)

/-- Looking a name up leaves all generations as they are. -/
theorem generation_findOrCreate (hcanonical : world.Canonical)
    (hregistry : world.HasRegistry registry) {other : RegistryId} {asked : String}
    {generation : Nat}
    (hknown : (world.stateNamed? other asked).map FunctionState.generation = some generation) :
    ((world.findOrCreate registry name).2.stateNamed? other asked).map FunctionState.generation =
      some generation := by
  rw [stateNamed?_findOrCreate hcanonical hregistry]
  split
  · next hsame =>
    obtain ⟨rfl, rfl⟩ := hsame
    obtain ⟨state, hstate, rfl⟩ := Option.map_eq_some_iff.mp hknown
    rw [hstate]
    rfl
  · exact hknown

/-- A registration moves the name on to the next generation. -/
theorem generation_register (hcanonical : world.Canonical)
    (hregistry : world.HasRegistry registry) (definition : Definition) {other : RegistryId}
    {asked : String} {generation : Nat}
    (hknown : (world.stateNamed? other asked).map FunctionState.generation = some generation) :
    ((world.register registry name definition).2.stateNamed? other asked).map
        FunctionState.generation =
      some (generation + if other = registry ∧ asked = name then 1 else 0) := by
  rw [stateNamed?_register hcanonical hregistry]
  split
  · next hsame =>
    obtain ⟨rfl, rfl⟩ := hsame
    obtain ⟨state, hstate, rfl⟩ := Option.map_eq_some_iff.mp hknown
    rw [hstate]
    rfl
  · exact hknown

theorem SameElsewhere.refl (world : World) : world.SameElsewhere world :=
  ⟨⟨rfl, rfl, rfl, rfl, fun _ ↦ rfl⟩, rfl, fun _ ↦ rfl⟩

/-- What is asked of a name of a registry, as a change of the names that are listed. -/
theorem listed_functionChange {after : World} {effect : Effect}
    (hchange : effect.FunctionChange world after) (loose : RegistryId → String → Bool)
    (other : RegistryId) :
    (after.registry other).functions.keys.filter (fun name ↦ !loose other name) =
      (world.registry other).functions.keys.filter (fun name ↦ !loose other name) ++
        (effect.mentioned? other).toList.filter fun name ↦
          !loose other name && !(world.stateNamed? other name).isSome := by
  rw [keys_functionChange hchange, List.filter_append, List.filter_filter]
  congr 2
  funext asked
  have hlisted : (world.stateNamed? other asked).isSome = true ↔
      asked ∈ (world.registry other).functions.keys := by
    rw [stateNamed?, Option.isSome_map]
    exact world.isSome_functionNamed? other asked
  by_cases hmem : asked ∈ (world.registry other).functions.keys
  · simp [hmem, hlisted.mpr hmem]
  · have hnone : (world.stateNamed? other asked).isSome = false := by
      simpa using fun h ↦ hmem (hlisted.mp h)
    simp [hmem, hnone]

namespace Alike

variable {loose : RegistryId → String → Bool} {left right leftAfter rightAfter : World}

theorem paired_mono (hleft : left.KeepsNames leftAfter) (hright : right.KeepsNames rightAfter)
    {function other : FunctionId} (hpaired : left.Paired right function other) :
    leftAfter.Paired rightAfter function other := by
  obtain ⟨registry, name, hnamed, hnamed'⟩ := hpaired
  exact ⟨registry, name, hleft.function hnamed, hright.function hnamed'⟩

theorem generationOf_eq {world : World} {registry : RegistryId} {name : String}
    {function : FunctionId} (hname : world.functionNamed? registry name = some function) :
    (world.stateNamed? registry name).map FunctionState.generation =
      some (world.generationOf function) := by
  rw [stateNamed?, hname]
  rfl

/-- Both sides change functions, or one side does: it is enough to compare what the names have. -/
theorem changeFunctions (halike : Alike loose stage left right)
    (hleft : left.SameElsewhere leftAfter) (hright : right.SameElsewhere rightAfter)
    (hsoundLeft : leftAfter.Sound) (hsoundRight : rightAfter.Sound)
    (hkeepsLeft : left.KeepsNames leftAfter) (hkeepsRight : right.KeepsNames rightAfter)
    (hnamed : ∀ later, stage ≤ later → ∀ registry name,
      NamedAlike (loose registry name) later (leftAfter.stateNamed? registry name)
        (rightAfter.stateNamed? registry name))
    (hlisted : ∀ registry,
      (leftAfter.registry registry).functions.keys.filter (fun name ↦ !loose registry name) =
        (rightAfter.registry registry).functions.keys.filter fun name ↦ !loose registry name)
    (hgrowth : ∀ {registry name before before' after after'},
      (left.stateNamed? registry name).map FunctionState.generation = some before →
        (right.stateNamed? registry name).map FunctionState.generation = some before' →
          (leftAfter.stateNamed? registry name).map FunctionState.generation = some after →
            (rightAfter.stateNamed? registry name).map FunctionState.generation = some after' →
              after + before' = after' + before) :
    stage ≤ stage.withFunctions (leftAfter.Paired rightAfter) ∧
      Alike loose (stage.withFunctions (leftAfter.Paired rightAfter)) leftAfter rightAfter := by
  have hlater : stage ≤ stage.withFunctions (leftAfter.Paired rightAfter) :=
    Stage.le_withFunctions fun hfunctions ↦
      paired_mono hkeepsLeft hkeepsRight (halike.functions_iff.mp hfunctions)
  have hsite (name : String) : leftAfter.site name = left.site name ∧
      rightAfter.site name = right.site name :=
    ⟨site_eq_of_sites_eq hleft.sites name, site_eq_of_sites_eq hright.sites name⟩
  have hmembers (object : ObjectId) : leftAfter.members object = left.members object ∧
      rightAfter.members object = right.members object :=
    ⟨congrArg (Table.get · object.index) hleft.objects,
      congrArg (Table.get · object.index) hright.objects⟩
  exact ⟨hlater,
    { soundLeft := hsoundLeft
      soundRight := hsoundRight
      functions_iff := Iff.rfl
      named := hnamed _ hlater
      listed_eq := hlisted
      size_registries_eq := by
        rw [hleft.size_registries, hright.size_registries, halike.size_registries_eq]
      config_eq := fun registry ↦ by rw [hleft.config, hright.config, halike.config_eq]
      applied_eq := fun registry ↦ by rw [hleft.applied, hright.applied, halike.applied_eq]
      dispatchers_eq := by rw [hleft.dispatchers, hright.dispatchers, halike.dispatchers_eq]
      objects_iff := by
        intro object
        rw [HasObject, hleft.objects]
        exact halike.objects_iff
      size_objects_eq := by rw [hleft.objects, hright.objects, halike.size_objects_eq]
      members := fun object hobject ↦ by
        rw [(hmembers object).1, (hmembers object).2]
        exact (halike.members object hobject).mono fun hvalue ↦ hvalue.mono hlater
      sites := fun name ↦ by
        rw [(hsite name).1, (hsite name).2]
        refine (halike.sites name).mono hlater fun {function other} hfunctions ↦ ?_
        obtain ⟨registry, name, hnamed, hnamed'⟩ := halike.functions_iff.mp hfunctions
        exact hgrowth (generationOf_eq hnamed) (generationOf_eq hnamed')
          (generationOf_eq (hkeepsLeft.function hnamed))
          (generationOf_eq (hkeepsRight.function hnamed'))
      nextIdentity_eq := by rw [hleft.nextIdentity, hright.nextIdentity, halike.nextIdentity_eq]
      hasRegistry := fun hknown ↦ by
        rw [HasRegistry, hleft.size_registries]
        exact halike.hasRegistry hknown
      hasDispatcher := fun hknown ↦ by
        rw [HasDispatcher, hleft.dispatchers]
        exact halike.hasDispatcher hknown }⟩

/-- Names that are not loose are known on both sides or on none. -/
theorem isSome_stateNamed?_eq (halike : Alike loose stage left right) {registry : RegistryId}
    {name : String} (hstrict : loose registry name = false) :
    (left.stateNamed? registry name).isSome = (right.stateNamed? registry name).isSome := by
  have hnamed := halike.named registry name
  generalize left.stateNamed? registry name = known, right.stateNamed? registry name = known'
    at hnamed
  cases hnamed with
  | absent | both => rfl
  | extra hloose => exact absurd (hloose.symm.trans hstrict) nofun

/-- Both sides are asked for the same names. -/
theorem listed_eq_of_changes (halike : Alike loose stage left right) {effect other : Effect}
    (hleft : effect.FunctionChange left leftAfter) (hright : other.FunctionChange right rightAfter)
    (hmentioned : ∀ registry, effect.mentioned? registry = other.mentioned? registry)
    (registry : RegistryId) :
    (leftAfter.registry registry).functions.keys.filter (fun name ↦ !loose registry name) =
      (rightAfter.registry registry).functions.keys.filter fun name ↦ !loose registry name := by
  rw [listed_functionChange hleft, listed_functionChange hright, halike.listed_eq, hmentioned]
  congr 2
  funext name
  cases hloose : loose registry name with
  | true => rfl
  | false => rw [halike.isSome_stateNamed?_eq hloose]

/-- Both sides look a name up and create it if it is new. -/
theorem findOrCreate (halike : Alike loose stage left right) {registry : RegistryId}
    (hregistry : left.HasRegistry registry) (name : String) :
    let leftAfter := left.findOrCreate registry name
    let rightAfter := right.findOrCreate registry name
    leftAfter.2.Paired rightAfter.2 leftAfter.1 rightAfter.1 ∧
      stage ≤ stage.withFunctions (leftAfter.2.Paired rightAfter.2) ∧
        Alike loose (stage.withFunctions (leftAfter.2.Paired rightAfter.2)) leftAfter.2
          rightAfter.2 := by
  intro leftAfter rightAfter
  let effect : Effect := .findOrCreate registry name
  have hallowed : effect.Allowed left := hregistry
  have hallowed' : effect.Allowed right := halike.hasRegistry_right hregistry
  have hstate := stateNamed?_findOrCreate halike.soundLeft.canonical hallowed name
  have hstate' := stateNamed?_findOrCreate halike.soundRight.canonical hallowed' name
  refine ⟨⟨registry, name, functionNamed?_findOrCreate hallowed name,
    functionNamed?_findOrCreate hallowed' name⟩, ?_⟩
  refine halike.changeFunctions (left.sameElsewhere_findOrCreate registry name)
    (right.sameElsewhere_findOrCreate registry name) (halike.soundLeft.effect _ hallowed)
    (halike.soundRight.effect _ hallowed') (.functionChange (effect.functionChange hallowed))
    (.functionChange (effect.functionChange hallowed')) ?_
    (halike.listed_eq_of_changes (effect.functionChange hallowed)
      (effect.functionChange hallowed') fun _ ↦ rfl) ?_
  · intro later hlater other asked
    rw [hstate, hstate']
    split
    · next hsame =>
      obtain ⟨rfl, rfl⟩ := hsame
      have hnamed := (halike.named other asked).mono hlater
      generalize left.stateNamed? other asked = known, right.stateNamed? other asked = known'
        at hnamed
      cases hnamed with
      | absent => exact .both .none fun _ ↦ rfl
      | extra hloose hundefined =>
        refine .both ?_ fun hstrict ↦ absurd (hloose.symm.trans hstrict) nofun
        rw [Option.getD_some, hundefined]
        exact .none
      | both hdefinition hgeneration => exact .both hdefinition hgeneration
    · exact (halike.named other asked).mono hlater
  · intro other asked before before' after after' hbefore hbefore' hafter hafter'
    rw [generation_findOrCreate halike.soundLeft.canonical hallowed hbefore] at hafter
    rw [generation_findOrCreate halike.soundRight.canonical hallowed' hbefore'] at hafter'
    obtain rfl := Option.some.inj hafter
    obtain rfl := Option.some.inj hafter'
    exact Nat.add_comm _ _

/-- The right side alone looks a loose name up, and creates it if it is new. -/
theorem findOrCreate_right (halike : Alike loose stage left right) {registry : RegistryId}
    (hregistry : left.HasRegistry registry) {name : String} (hloose : loose registry name = true) :
    Alike loose stage left (right.findOrCreate registry name).2 := by
  let effect : Effect := .findOrCreate registry name
  have hallowed : effect.Allowed right := halike.hasRegistry_right hregistry
  have hstate := stateNamed?_findOrCreate halike.soundRight.canonical hallowed name
  have hkeeps : right.KeepsNames (right.findOrCreate registry name).2 :=
    .functionChange (effect.functionChange hallowed)
  obtain ⟨-, hafter⟩ : stage ≤ _ ∧ Alike loose
      (stage.withFunctions (left.Paired (right.findOrCreate registry name).2)) left
      (right.findOrCreate registry name).2 := by
    refine halike.changeFunctions (.refl left) (right.sameElsewhere_findOrCreate registry name)
      halike.soundLeft (halike.soundRight.effect _ hallowed) (.refl left) hkeeps ?_ ?_ ?_
    · intro later hlater other asked
      rw [hstate]
      have hnamed := (halike.named other asked).mono hlater
      split
      · next hsame =>
        obtain ⟨rfl, rfl⟩ := hsame
        generalize left.stateNamed? other asked = known, right.stateNamed? other asked = known'
          at hnamed
        cases hnamed with
        | absent => exact .extra hloose rfl
        | extra hloose hundefined => exact .extra hloose hundefined
        | both hdefinition hgeneration => exact .both hdefinition hgeneration
      · exact hnamed
    · intro other
      have hlisted := listed_functionChange (effect.functionChange hallowed) loose other
      rw [← halike.listed_eq] at hlisted
      refine ((hlisted.trans (congrArg _ (List.filter_eq_nil_iff.mpr ?_))).trans
        (List.append_nil _)).symm
      intro asked hasked
      obtain ⟨rfl, rfl⟩ : registry = other ∧ name = asked := by
        simpa [effect, Effect.mentioned?] using hasked
      simp [hloose]
    · intro other asked before before' after after' hbefore hbefore' hafter hafter'
      rw [hbefore] at hafter
      rw [generation_findOrCreate halike.soundRight.canonical hallowed hbefore'] at hafter'
      obtain rfl := Option.some.inj hafter
      obtain rfl := Option.some.inj hafter'
      exact Nat.add_comm _ _
  -- What is paired afterwards was paired before: the left side has no new names.
  have hpaired : left.Paired (right.findOrCreate registry name).2 = stage.functions := by
    funext function other
    refine propext ⟨?_, fun hfunctions ↦
      paired_mono (.refl left) hkeeps (halike.functions_iff.mp hfunctions)⟩
    rintro ⟨asked, askedName, hleft, hright⟩
    have hnamed := halike.named asked askedName
    have hsome : left.stateNamed? asked askedName = some (left.functionState function) := by
      rw [stateNamed?, hleft]
      rfl
    obtain ⟨known, hknown⟩ : ∃ known, right.functionNamed? asked askedName = some known := by
      rw [hsome] at hnamed
      generalize hstate : right.stateNamed? asked askedName = state at hnamed
      cases hnamed with
      | both => exact (Option.map_eq_some_iff.mp hstate).imp fun _ h ↦ h.1
    rw [hkeeps.function hknown] at hright
    obtain rfl := Option.some.inj hright
    exact halike.functions_iff.mpr ⟨asked, askedName, hleft, hknown⟩
  rw [hpaired] at hafter
  exact hafter

/-- Both sides bind alike definitions to a name. -/
theorem register (halike : Alike loose stage left right) {registry : RegistryId}
    (hregistry : left.HasRegistry registry) (name : String) {definition definition' : Definition}
    (hdefinition : definition.Alike stage definition') :
    let leftAfter := left.register registry name definition
    let rightAfter := right.register registry name definition'
    leftAfter.2.Paired rightAfter.2 leftAfter.1 rightAfter.1 ∧
      stage ≤ stage.withFunctions (leftAfter.2.Paired rightAfter.2) ∧
        Alike loose (stage.withFunctions (leftAfter.2.Paired rightAfter.2)) leftAfter.2
          rightAfter.2 := by
  intro leftAfter rightAfter
  have hallowed : (Effect.register registry name definition).Allowed left := hregistry
  have hallowed' : (Effect.register registry name definition').Allowed right :=
    halike.hasRegistry_right hregistry
  have hstate := stateNamed?_register halike.soundLeft.canonical hallowed name definition
  have hstate' := stateNamed?_register halike.soundRight.canonical hallowed' name definition'
  refine ⟨⟨registry, name, functionNamed?_register hallowed name definition,
    functionNamed?_register hallowed' name definition'⟩, ?_⟩
  refine halike.changeFunctions (left.sameElsewhere_register registry name definition)
    (right.sameElsewhere_register registry name definition') (halike.soundLeft.effect _ hallowed)
    (halike.soundRight.effect _ hallowed') (.functionChange (Effect.functionChange hallowed))
    (.functionChange (Effect.functionChange hallowed')) ?_
    (halike.listed_eq_of_changes (Effect.functionChange hallowed)
      (Effect.functionChange hallowed') fun _ ↦ rfl) ?_
  · intro later hlater other asked
    rw [hstate, hstate']
    split
    · next hsame =>
      obtain ⟨rfl, rfl⟩ := hsame
      have hnamed := (halike.named other asked).mono hlater
      generalize left.stateNamed? other asked = known, right.stateNamed? other asked = known'
        at hnamed
      cases hnamed with
      | absent => exact .both (.some (hdefinition.mono hlater)) fun _ ↦ rfl
      | extra hloose _ =>
        exact .both (.some (hdefinition.mono hlater)) fun hstrict ↦
          absurd (hloose.symm.trans hstrict) nofun
      | both _ hgeneration =>
        exact .both (.some (hdefinition.mono hlater)) fun hstrict ↦
          congrArg (· + 1) (hgeneration hstrict)
    · exact (halike.named other asked).mono hlater
  · intro other asked before before' after after' hbefore hbefore' hafter hafter'
    rw [generation_register halike.soundLeft.canonical hallowed definition hbefore] at hafter
    rw [generation_register halike.soundRight.canonical hallowed' definition' hbefore'] at hafter'
    have hmore := Option.some.inj hafter
    have hmore' := Option.some.inj hafter'
    omega

end Alike

end World

/-! ## Batches -/

/-- The same names with alike definitions. -/
abbrev EntriesAlike (stage : Stage) :
    List (String × Definition) → List (String × Definition) → Prop :=
  List.Forall₂ fun entry other ↦ entry.1 = other.1 ∧ entry.2.Alike stage other.2

theorem entriesAlike_mono {entries others : List (String × Definition)}
    (hentries : EntriesAlike stage entries others) (hlater : stage ≤ later) :
    EntriesAlike later entries others :=
  hentries.imp fun _ _ hentry ↦ ⟨hentry.1, hentry.2.mono hlater⟩

structure Batch.Alike (stage : Stage) (left right : Batch) : Prop where
  identity_eq : left.identity = right.identity
  entries : EntriesAlike stage left.entries right.entries

theorem Batch.Alike.mono {left right : Batch} (halike : left.Alike stage right)
    (hlater : stage ≤ later) : left.Alike later right :=
  ⟨halike.identity_eq, entriesAlike_mono halike.entries hlater⟩

theorem Batch.Alike.ofBodies (identity : Nat) (names : List (String × Option Location))
    {bodies others : List (Body Value)} (hbodies : List.Forall₂ (Body.Alike stage) bodies others) :
    (Batch.ofBodies identity names bodies).Alike stage (.ofBodies identity names others) := by
  refine ⟨rfl, ?_⟩
  unfold Batch.ofBodies
  induction hbodies generalizing names with
  | nil =>
    rw [List.zipWith_nil_right]
    exact .nil
  | cons hfirst _ ih =>
    cases names with
    | nil => exact .nil
    | cons header rest => exact .cons ⟨rfl, hfirst, rfl⟩ (ih rest)

namespace World

theorem Sound.markApplied {world : World} (hsound : world.Sound) (registry : RegistryId)
    (identity : Nat) : (world.markApplied registry identity).Sound where
  canonical := hsound.canonical.congr
    (fun other name ↦ world.functionNamed?_markApplied registry other identity name) rfl fun _ ↦ rfl
  coherent := hsound.coherent.congr rfl rfl
  wellFormed dispatcher hdispatcher := by
    rw [HasRegistry, World.markApplied, modifyRegistry, Table.size_modify]
    exact hsound.wellFormed dispatcher hdispatcher

namespace Alike

variable {loose : RegistryId → String → Bool} {left right : World}

theorem markApplied (halike : Alike loose stage left right) (registry : RegistryId)
    (identity : Nat) :
    Alike loose stage (left.markApplied registry identity)
      (right.markApplied registry identity) := by
  have hmarked (world : World) (other : RegistryId) :
      (world.markApplied registry identity).registry other =
        if other = registry ∧ world.HasRegistry registry then
          { world.registry other with applied := identity :: (world.registry other).applied }
        else world.registry other :=
    world.registry_modifyRegistry registry other _
  have hnamed (world : World) (other : RegistryId) (name : String) :
      (world.markApplied registry identity).stateNamed? other name =
        world.stateNamed? other name := by
    rw [stateNamed?, functionNamed?_markApplied]
    rfl
  have hkeys (world : World) (other : RegistryId) :
      ((world.markApplied registry identity).registry other).functions =
        (world.registry other).functions := by
    rw [hmarked]
    split <;> rfl
  have hsize (world : World) :
      (world.markApplied registry identity).registries.size = world.registries.size := by
    rw [World.markApplied, modifyRegistry, Table.size_modify]
  have hexists : left.HasRegistry registry = right.HasRegistry registry :=
    congrArg (registry.index < ·) halike.size_registries_eq
  exact
    { halike with
      soundLeft := halike.soundLeft.markApplied registry identity
      soundRight := halike.soundRight.markApplied registry identity
      functions_iff := by
        simp only [Paired, functionNamed?_markApplied]
        exact halike.functions_iff
      named := fun other name ↦ by
        rw [hnamed, hnamed]
        exact halike.named other name
      listed_eq := fun other ↦ by
        rw [hkeys, hkeys]
        exact halike.listed_eq other
      size_registries_eq := by rw [hsize, hsize, halike.size_registries_eq]
      config_eq := fun other ↦ by
        simp only [hmarked, hexists]
        split <;> exact halike.config_eq other
      applied_eq := fun other ↦ by
        simp only [hmarked, hexists]
        split
        · exact congrArg (identity :: ·) (halike.applied_eq other)
        · exact halike.applied_eq other
      hasRegistry := fun hknown ↦ by
        rw [HasRegistry, hsize]
        exact halike.hasRegistry hknown }

theorem registerAll {registry : RegistryId} {entries others : List (String × Definition)}
    (halike : Alike loose stage left right) (hregistry : left.HasRegistry registry)
    (hentries : EntriesAlike stage entries others) :
    ∃ functions, stage ≤ stage.withFunctions functions ∧
      Alike loose (stage.withFunctions functions) (left.registerAll registry entries)
        (right.registerAll registry others) := by
  induction entries generalizing stage left right others with
  | nil =>
    cases hentries
    exact ⟨stage.functions, le_rfl, halike⟩
  | cons entry rest ih =>
    cases hentries with
    | @cons _ other _ others hentry hrest =>
      obtain ⟨name, definition⟩ := entry
      obtain ⟨_, definition'⟩ := other
      obtain ⟨rfl, hdefinition⟩ := hentry
      obtain ⟨-, hmore, hafter⟩ := halike.register hregistry name hdefinition
      have hstill := Extends.effect (.register registry name definition) left
      obtain ⟨functions, hlater, hends⟩ :=
        ih hafter (hstill.hasRegistry hregistry) (entriesAlike_mono hrest hmore)
      exact ⟨functions, hmore.trans hlater, hends⟩

/-- A batch is applied on both sides or on none. -/
theorem registerBatch {registry : RegistryId} {batch other : Batch}
    (halike : Alike loose stage left right) (hregistry : left.HasRegistry registry)
    (hbatch : batch.Alike stage other) :
    ∃ functions, stage ≤ stage.withFunctions functions ∧
      Alike loose (stage.withFunctions functions) (left.registerBatch registry batch)
        (right.registerBatch registry other) := by
  by_cases happlied : batch.identity ∈ (left.registry registry).applied
  · have happlied' : other.identity ∈ (right.registry registry).applied := by
      rwa [← halike.applied_eq, ← hbatch.identity_eq]
    rw [registerBatch_of_applied happlied, registerBatch_of_applied happlied']
    exact ⟨stage.functions, le_rfl, (halike.log _ _).log _ _⟩
  · have hnew : other.identity ∉ (right.registry registry).applied := by
      rwa [← halike.applied_eq, ← hbatch.identity_eq]
    have hlogged := halike.log (.registerBatch batch.entries.length)
      (.registerBatch other.entries.length)
    obtain ⟨functions, hlater, hafter⟩ := hlogged.registerAll hregistry hbatch.entries
    refine ⟨functions, hlater, ?_⟩
    rw [registerBatch_of_new happlied, registerBatch_of_new hnew, ← hbatch.identity_eq]
    exact hafter.markApplied registry batch.identity

end Alike

end World

end GuestCore
