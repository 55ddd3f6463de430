import GuestCore.Proofs.Recasting
import GuestCore.Proofs.RegistryHistory

/-!
# Batches Are Applied Once

A batch that is new to a registry is noted there, and its entries are registered in order; a batch
that was applied before leaves a record and nothing else.  So the requests that apply a batch once
more can be left out of a session.  What counts is the identity of a batch, and each registry
keeps its own notes.
-/

namespace GuestCore

/-! ## Registering a batch -/

theorem Table.modify_comm {α : Type} (table : Table α) (first second : Nat)
    (change other : α → α) (hcommutes : ∀ cell, change (other cell) = other (change cell)) :
    (table.modify first change).modify second other =
      (table.modify second other).modify first change := by
  simp only [modify, mk.injEq]
  apply Array.ext
  · simp
  · intro position hleft hright
    simp only [Array.getElem_modify]
    split <;> split <;> simp [hcommutes]

namespace World

variable {world : World} {registry other : RegistryId}

/-- The world with a batch noted as applied. -/
def markApplied (world : World) (registry : RegistryId) (identity : Nat) : World :=
  world.modifyRegistry registry fun state ↦ { state with applied := identity :: state.applied }

theorem registry_modifyRegistry (world : World) (registry other : RegistryId)
    (change : Registry → Registry) :
    (world.modifyRegistry registry change).registry other =
      if other = registry ∧ world.HasRegistry registry then change (world.registry other)
      else world.registry other := by
  refine (Table.get_modify world.registries registry.index other.index change).trans ?_
  by_cases hother : other = registry
  · subst hother
    simp [HasRegistry, World.registry]
  · have hindex : registry.index ≠ other.index := fun heq ↦ hother (by
      cases other
      cases registry
      exact congrArg RegistryId.mk heq.symm)
    simp [hother, hindex, World.registry]

theorem registry_modifyRegistry_of_ne (hother : other ≠ registry)
    (change : Registry → Registry) :
    (world.modifyRegistry registry change).registry other = world.registry other := by
  rw [registry_modifyRegistry, if_neg fun hsame ↦ hother hsame.1]

theorem functionNamed?_markApplied (world : World) (registry other : RegistryId) (identity : Nat)
    (name : String) :
    (world.markApplied registry identity).functionNamed? other name =
      world.functionNamed? other name := by
  rw [functionNamed?, markApplied, registry_modifyRegistry]
  split <;> rfl

/-- Notes of batches and registrations do not interfere. -/
theorem register_markApplied (world : World) (registry other : RegistryId) (identity : Nat)
    (name : String) (definition : Definition) :
    ((world.markApplied registry identity).register other name definition).2 =
      (world.register other name definition).2.markApplied registry identity := by
  have hsame := world.functionNamed?_markApplied registry other identity name
  cases hname : world.functionNamed? other name with
  | some function =>
    rw [register_of_some definition hname, register_of_some definition (hsame.trans hname)]
    rfl
  | none =>
    rw [register_of_none definition hname, register_of_none definition (hsame.trans hname)]
    have hcommutes := world.registries.modify_comm registry.index other.index
      (fun state ↦ { state with applied := identity :: state.applied })
      (fun state ↦ { state with functions := state.functions.insert name ⟨world.functions.size⟩ })
      fun _ ↦ rfl
    simp only [addFunction, newFunction, markApplied, modifyRegistry, log, hcommutes]

theorem registerAll_markApplied (world : World) (registry other : RegistryId) (identity : Nat)
    (entries : List (String × Definition)) :
    (world.markApplied registry identity).registerAll other entries =
      (world.registerAll other entries).markApplied registry identity := by
  induction entries generalizing world with
  | nil => rfl
  | cons entry rest ih =>
    simp only [registerAll, List.foldl_cons] at ih ⊢
    rw [register_markApplied, ih]

theorem registerBatch_of_new {batch : Batch}
    (hnew : batch.identity ∉ (world.registry registry).applied) :
    world.registerBatch registry batch =
      ((world.log (.registerBatch batch.entries.length)).registerAll registry
        batch.entries).markApplied registry batch.identity := by
  have hcontains : ¬ (world.registry registry).applied.contains batch.identity = true := by
    simpa using hnew
  have hlog : ¬ ((world.log (.registerBatch batch.entries.length)).registry
      registry).applied.contains batch.identity = true := hcontains
  rw [registerBatch_eq, if_neg hcontains, ← registerAll_markApplied, beginBatch, if_neg hlog]
  rfl

/-- A batch that was applied before leaves nothing but records. -/
theorem registerBatch_of_applied {batch : Batch}
    (happlied : batch.identity ∈ (world.registry registry).applied) :
    world.registerBatch registry batch =
      (world.log (.registerBatch batch.entries.length)).log .repeatedBatch := by
  have hcontains : (world.registry registry).applied.contains batch.identity = true := by
    simpa using happlied
  have hlog : ((world.log (.registerBatch batch.entries.length)).registry
      registry).applied.contains batch.identity = true := hcontains
  rw [registerBatch_eq, if_pos hcontains, beginBatch, if_pos hlog]

theorem recast_registerAll (change : Recast) (world : World) (registry : RegistryId)
    (entries : List (String × Definition)) :
    (world.registerAll registry entries).recast change =
      (world.recast change).registerAll registry entries := by
  induction entries generalizing world with
  | nil => rfl
  | cons entry rest ih =>
    simp only [registerAll, List.foldl_cons] at ih ⊢
    rw [ih, recast_register]

theorem untraced_registerAll_eq {left right : World} (hworlds : left.untraced = right.untraced)
    (registry : RegistryId) (entries : List (String × Definition)) :
    (left.registerAll registry entries).untraced =
      (right.registerAll registry entries).untraced :=
  untraced_eq_of_recast (fun change world ↦ world.recast_registerAll change registry entries)
    hworlds

theorem untraced_markApplied (world : World) (registry : RegistryId) (identity : Nat) :
    (world.markApplied registry identity).untraced =
      world.untraced.markApplied registry identity := rfl

/-- A new batch has the effect of its entries, registered one after the other. -/
theorem untraced_registerBatch {batch : Batch}
    (hnew : batch.identity ∉ (world.registry registry).applied) :
    (world.registerBatch registry batch).untraced =
      ((world.registerAll registry batch.entries).markApplied registry
        batch.identity).untraced := by
  have hlog : (world.log (.registerBatch batch.entries.length)).untraced = world.untraced := rfl
  rw [registerBatch_of_new hnew, untraced_markApplied, untraced_markApplied,
    untraced_registerAll_eq hlog]

theorem registry_register_of_ne (hother : other ≠ registry) (name : String)
    (definition : Definition) :
    (world.register registry name definition).2.registry other = world.registry other := by
  cases hname : world.functionNamed? registry name with
  | some function =>
    rw [register_of_some definition hname]
    rfl
  | none =>
    rw [register_of_none definition hname]
    exact registry_modifyRegistry_of_ne hother _

theorem registry_registerAll_of_ne (hother : other ≠ registry)
    (entries : List (String × Definition)) :
    (world.registerAll registry entries).registry other = world.registry other := by
  induction entries generalizing world with
  | nil => rfl
  | cons entry rest ih => exact ih.trans (registry_register_of_ne hother entry.1 entry.2)

/-- A batch does nothing to other registries. -/
theorem registry_registerBatch_of_ne (hother : other ≠ registry) (batch : Batch) :
    (world.registerBatch registry batch).registry other = world.registry other := by
  by_cases happlied : batch.identity ∈ (world.registry registry).applied
  · rw [registerBatch_of_applied happlied]
    rfl
  · rw [registerBatch_of_new happlied, markApplied, registry_modifyRegistry_of_ne hother,
      registry_registerAll_of_ne hother]
    rfl

theorem applied_register (world : World) (registry other : RegistryId) (name : String)
    (definition : Definition) :
    ((world.register registry name definition).2.registry other).applied =
      (world.registry other).applied := by
  cases hname : world.functionNamed? registry name with
  | some function =>
    rw [register_of_some definition hname]
    rfl
  | none =>
    rw [register_of_none definition hname]
    refine (congrArg Registry.applied (registry_modifyRegistry _ registry other _)).trans ?_
    split <;> rfl

theorem applied_registerAll (world : World) (registry other : RegistryId)
    (entries : List (String × Definition)) :
    ((world.registerAll registry entries).registry other).applied =
      (world.registry other).applied := by
  induction entries generalizing world with
  | nil => rfl
  | cons entry rest ih => exact (ih _).trans (world.applied_register registry other entry.1 entry.2)

/-- Two batches with different identities are applied one after the other, whatever they hold. -/
theorem untraced_registerBatch_twice {first second : Batch}
    (hdistinct : first.identity ≠ second.identity)
    (hfirst : first.identity ∉ (world.registry registry).applied)
    (hsecond : second.identity ∉ (world.registry registry).applied) :
    ((world.registerBatch registry first).registerBatch registry second).untraced =
      ((((world.registerAll registry first.entries).registerAll registry
        second.entries).markApplied registry first.identity).markApplied registry
          second.identity).untraced := by
  have hstill :
      second.identity ∉ ((world.registerBatch registry first).registry registry).applied := by
    rw [registerBatch_of_new hfirst, markApplied, registry_modifyRegistry]
    split
    · simp only [applied_registerAll, List.mem_cons, not_or]
      exact ⟨hdistinct.symm, hsecond⟩
    · rw [applied_registerAll]
      exact hsecond
  rw [untraced_registerBatch hstill, untraced_markApplied, untraced_markApplied,
    untraced_registerAll_eq (untraced_registerBatch hfirst), registerAll_markApplied]

end World

/-! ## Notes of batches -/

namespace Effect

/-- Only the beginning of a batch at the registry adds to its notes. -/
theorem applied_apply {effect : Effect} {registry : RegistryId}
    (hbatch : ∀ batch, effect ≠ .beginBatch registry batch) (world : World) :
    ((effect.apply world).registry registry).applied = (world.registry registry).applied := by
  cases effect with
  | newRegistry config =>
    have hget := Table.get_push world.registries { config } registry.index
    refine (congrArg Registry.applied hget).trans ?_
    split
    · next hnew => rw [World.registry, Table.get_of_le (Nat.le_of_eq hnew.symm)]; rfl
    · rfl
  | findOrCreate other name =>
    cases hname : world.functionNamed? other name with
    | some function =>
      rw [apply, World.findOrCreate_of_some hname]
      rfl
    | none =>
      rw [apply, World.findOrCreate_of_none hname]
      refine (congrArg Registry.applied
        (World.registry_modifyRegistry _ other registry _)).trans ?_
      split <;> rfl
  | register other name definition => exact world.applied_register other registry name definition
  | beginBatch other batch =>
    have hother : registry ≠ other := by
      rintro rfl
      exact hbatch batch rfl
    simp only [apply, World.beginBatch]
    split
    · rfl
    · rw [World.registry_modifyRegistry_of_ne hother]
      rfl
  | noteCall dispatcher site function =>
    have hregistries := World.registries_eq_of_visible_eq
      (world.visible_noteCall dispatcher site function)
    rw [apply, World.registry, hregistries]
    rfl
  | _ => rfl

theorem applied_applyAll {effects : List Effect} {registry : RegistryId} {world : World}
    (hbatch : ∀ effect ∈ effects, ∀ batch, effect ≠ .beginBatch registry batch) :
    ((applyAll effects world).registry registry).applied = (world.registry registry).applied := by
  induction effects generalizing world with
  | nil => rfl
  | cons effect rest ih =>
    obtain ⟨hfirst, hrest⟩ := List.forall_mem_cons.mp hbatch
    exact (ih hrest).trans (applied_apply hfirst world)

theorem mem_applied_beginBatch {world : World} {registry : RegistryId}
    (hregistry : world.HasRegistry registry) (batch : Batch) (identity : Nat) :
    identity ∈ ((world.beginBatch registry batch).registry registry).applied ↔
      identity ∈ (world.registry registry).applied ∨ batch.identity = identity := by
  have hlog : (world.log (.registerBatch batch.entries.length)).registry registry =
      world.registry registry := rfl
  by_cases happlied : batch.identity ∈ (world.registry registry).applied
  · simp only [World.beginBatch, hlog, List.contains_eq_mem, happlied, decide_true, if_true]
    refine (or_iff_left_of_imp ?_).symm
    rintro rfl
    exact happlied
  · have hexists : (world.log (.registerBatch batch.entries.length)).HasRegistry registry :=
      hregistry
    simp [World.beginBatch, hlog, happlied, World.registry_modifyRegistry, hexists, or_comm,
      eq_comm]

end Effect

namespace Moment

variable {moment : Moment}

/-- A registry has a note of exactly those batches that were begun there. -/
theorem Reachable.mem_applied_iff (hreachable : moment.Reachable) (registry : RegistryId)
    (identity : Nat) :
    identity ∈ (moment.world.registry registry).applied ↔
      ∃ batch : Batch, batch.identity = identity ∧
        .beginBatch registry batch ∈ moment.journal := by
  apply hreachable.invariant (motive := fun moment ↦
    identity ∈ (moment.world.registry registry).applied ↔
      ∃ batch : Batch, batch.identity = identity ∧ .beginBatch registry batch ∈ moment.journal)
  · have hempty : Moment.start.world.registries.size ≤ registry.index := Nat.zero_le _
    have hnone : (Moment.start.world.registry registry).applied = [] :=
      congrArg Registry.applied (Table.get_of_le hempty)
    rw [hnone]
    simp [Moment.start]
  · intro before after _ hbefore step
    cases step with
    | enter | leave => exact hbefore
    | effect effect hallowed =>
      by_cases hbatch : ∃ batch, effect = .beginBatch registry batch
      · obtain ⟨batch, rfl⟩ := hbatch
        refine (Effect.mem_applied_beginBatch hallowed batch identity).trans ?_
        rw [hbefore]
        simp only [List.mem_append, List.mem_singleton, Effect.beginBatch.injEq, true_and]
        grind
      · have hother (batch : Batch) : effect ≠ .beginBatch registry batch :=
          fun heq ↦ hbatch ⟨batch, heq⟩
        rw [Effect.applied_apply hother, hbefore]
        simp [(hother _).symm]

theorem journal_after (moment : Moment) (effects : List Effect) :
    (moment.after effects).journal = moment.journal ++ effects := by
  induction effects generalizing moment with
  | nil => exact (List.append_nil _).symm
  | cons effect rest ih => exact (ih _).trans (List.append_assoc moment.journal [effect] rest)

end Moment

/-! ## Names in a batch -/

/-- A name that is mentioned in definitions alone is defined from the beginning. -/
theorem Effect.bornDefined_append_of_defining {registry : RegistryId} {name : String}
    {journal more : List Effect}
    (hnew : ¬ ∃ effect ∈ journal, effect.mentioned? registry = some name)
    (hdefining : ∀ effect ∈ more, effect.mentioned? registry = some name →
      (effect.definition? registry name).isSome = true)
    (hmentioned : ∃ effect ∈ journal ++ more, effect.mentioned? registry = some name) :
    Effect.bornDefined registry name (journal ++ more) = true := by
  have hnone : (journal.find? fun effect ↦ effect.mentioned? registry = some name) = none := by
    simpa [List.find?_eq_none] using hnew
  have hfound : (more.find? fun effect ↦ effect.mentioned? registry = some name).isSome := by
    obtain ⟨effect, heffect, hname⟩ := hmentioned
    rcases List.mem_append.mp heffect with hold | hmore
    · exact absurd ⟨effect, hold, hname⟩ hnew
    · rw [List.find?_isSome]
      exact ⟨effect, hmore, by simpa using hname⟩
  obtain ⟨effect, heffect⟩ := Option.isSome_iff_exists.mp hfound
  have hname : effect.mentioned? registry = some name := by
    simpa using List.find?_some heffect
  rw [bornDefined, List.find?_append, hnone, Option.none_or, heffect]
  exact hdefining effect (List.mem_of_find?_eq_some heffect) hname

namespace Batch

/-- The definitions that a batch has for a name, in order. -/
def definitionsOf (batch : Batch) (name : String) : List Definition :=
  batch.entries.filterMap fun entry ↦ if entry.1 = name then some entry.2 else none

theorem registrations_eq_definitionsOf (registry : RegistryId) (batch : Batch) (name : String) :
    Effect.registrations registry name (batch.registrations registry) =
      batch.definitionsOf name := by
  rw [Effect.registrations, Batch.registrations, List.filterMap_map]
  apply List.filterMap_congr
  intro entry _
  simp [Effect.definition?]

end Batch

namespace Moment

variable {moment : Moment} {registry : RegistryId}

/-- The moment after a batch was registered. -/
def afterBatch (moment : Moment) (registry : RegistryId) (batch : Batch) : Moment :=
  moment.after (moment.world.batchEffects registry batch)

@[simp]
theorem world_afterBatch (moment : Moment) (registry : RegistryId) (batch : Batch) :
    (moment.afterBatch registry batch).world = moment.world.registerBatch registry batch := by
  rw [afterBatch, world_after, World.applyAll_batchEffects]

theorem leads_afterBatch (hregistry : moment.world.HasRegistry registry) (batch : Batch) :
    moment.Leads (moment.afterBatch registry batch) :=
  leads_after _ _ (World.allAllowed_batchEffects hregistry batch)

theorem journal_afterBatch_of_new {batch : Batch}
    (hnew : batch.identity ∉ (moment.world.registry registry).applied) :
    (moment.afterBatch registry batch).journal =
      moment.journal ++ .beginBatch registry batch :: batch.registrations registry := by
  have hcontains : ¬ (moment.world.registry registry).applied.contains batch.identity = true := by
    simpa using hnew
  rw [afterBatch, journal_after, World.batchEffects, if_neg hcontains]

/-- For a name that occurs in a batch, the last definition counts, and every occurrence counts
towards the generation. -/
theorem Reachable.name_in_batch (hreachable : moment.Reachable)
    (hregistry : moment.world.HasRegistry registry) {batch : Batch}
    (hnew : batch.identity ∉ (moment.world.registry registry).applied) {name : String}
    (hoccurs : batch.definitionsOf name ≠ []) :
    let after := moment.world.registerBatch registry batch
    ∃ function, after.functionNamed? registry name = some function ∧
      (after.functionState function).definition = (batch.definitionsOf name).getLast? ∧
      (∀ known, moment.world.functionNamed? registry name = some known →
        function = known ∧ (after.functionState function).generation =
          (moment.world.functionState known).generation + (batch.definitionsOf name).length) ∧
      (moment.world.functionNamed? registry name = none →
        (after.functionState function).generation + 1 = (batch.definitionsOf name).length) := by
  intro after
  have hleads := leads_afterBatch hregistry batch
  have hafter := hreachable.leads hleads
  have hworld : (moment.afterBatch registry batch).world = after := world_afterBatch ..
  have hjournal := journal_afterBatch_of_new hnew
  have hregistrations : Effect.registrations registry name
        (moment.afterBatch registry batch).journal =
      Effect.registrations registry name moment.journal ++ batch.definitionsOf name := by
    rw [hjournal, ← batch.registrations_eq_definitionsOf registry]
    exact List.filterMap_append
  have hmentioned : ∃ effect ∈ (moment.afterBatch registry batch).journal,
      effect.mentioned? registry = some name := by
    by_contra hnone
    rw [Effect.registrations_eq_nil hnone] at hregistrations
    exact hoccurs (List.append_eq_nil_iff.mp hregistrations.symm).2
  obtain ⟨function, hfunction⟩ := Option.isSome_iff_exists.mp
    ((hafter.isSome_functionNamed? registry name).mpr hmentioned)
  obtain ⟨hdefinition, hgeneration, -⟩ := hafter.followsHistory registry name function hfunction
  rw [hregistrations] at hdefinition hgeneration
  rw [hworld] at hfunction hdefinition hgeneration
  refine ⟨function, hfunction, ?_, fun known hknown ↦ ?_, fun hnone ↦ ?_⟩
  · rw [hdefinition, List.getLast?_append_of_ne_nil _ hoccurs]
  · have hkept := hleads.keepsNames.function hknown
    rw [hworld, hfunction] at hkept
    obtain rfl := Option.some.inj hkept
    have hgrowth := hleads.generation_add hreachable hknown
    rw [hregistrations, hworld, List.length_append] at hgrowth
    refine ⟨rfl, ?_⟩
    omega
  · have hbefore := hreachable.not_mentioned hnone
    have hborn : Effect.bornDefined registry name (moment.afterBatch registry batch).journal =
        true := by
      rw [hjournal] at hmentioned ⊢
      refine Effect.bornDefined_append_of_defining hbefore ?_ hmentioned
      intro effect heffect hname
      rcases List.mem_cons.mp heffect with rfl | hentry
      · cases hname
      · obtain ⟨entry, -, rfl⟩ := List.mem_map.mp hentry
        simp only [Effect.mentioned?, if_true, Option.some.injEq] at hname
        simp [Effect.definition?, hname]
    rw [Effect.registrations_eq_nil hbefore, hborn] at hgeneration
    exact hgeneration

end Moment

/-! ## Sessions without repeated batches -/

/-- The list without the elements that are marked. -/
def dropMarked {α : Type} : List Bool → List α → List α
  | mark :: marks, element :: rest =>
    if mark then dropMarked marks rest else element :: dropMarked marks rest
  | _, elements => elements

namespace Session

/-- The step applies a batch to a registry to which it was applied before. -/
def State.repeatsBatch (state : State) : Step → Bool
  | .registerBatch name registry =>
    match state.batches.get? name, state.registries.get? registry with
    | some batch, some known =>
      (state.world.registry known.1).applied.contains batch.identity
    | _, _ => false
  | _ => false

/-- Which steps of a session apply a batch once more. -/
def repeatedBatches (routing : Routing) (allowance : Nat) : List Step → State → List Bool
  | [], _ => []
  | step :: rest, state =>
    state.repeatsBatch step ::
      match (runStep routing allowance step).run state with
      | .ok (_, after) => repeatedBatches routing allowance rest after
      | .error _ => []

variable {routing : Routing} {allowance : Nat} {state : State}

/-- A step that applies a batch once more writes two records, and that is all it does. -/
theorem answerStep_of_repeatsBatch {step : Step} (hrepeats : state.repeatsBatch step = true) :
    ∃ answer entries, (answerStep routing allowance step).run state = .ok (answer,
      { state with world := (state.world.log (.registerBatch entries)).log .repeatedBatch }) := by
  cases step with
  | registerBatch name registry =>
    simp only [State.repeatsBatch] at hrepeats
    split at hrepeats
    · next batch known hbatch hknown =>
      have happlied : batch.identity ∈ (state.world.registry known.1).applied := by
        simpa using hrepeats
      let after : State := { state with world := state.world.registerBatch known.1 batch }
      have hrun : (answerStep routing allowance (.registerBatch name registry)).run state =
          .ok (.registered (functionInfos after.world known.1), after) := by
        rw [answerStep, StateT.run_bind, StateT.run_get, pure_bind]
        dsimp only
        rw [hbatch]
        dsimp only
        rw [StateT.run_bind, Script.run_registry, hknown]
        rfl
      exact ⟨_, batch.entries.length, by
        rw [hrun, ← World.registerBatch_of_applied happlied]⟩
    · cases hrepeats
  | _ => cases hrepeats

/-- A step that applies a batch once more changes nothing but the trace. -/
theorem runStep_of_repeatsBatch {step : Step} (hrepeats : state.repeatsBatch step = true) :
    ∃ answer after, (runStep routing allowance step).run state = .ok (answer, after) ∧
      after.untraced = state.untraced := by
  obtain ⟨answer, entries, hanswer⟩ := answerStep_of_repeatsBatch hrepeats
  have hstep := run_runStep routing allowance step state
  rw [hanswer] at hstep
  exact ⟨_, _, hstep, rfl⟩

/-- What a session ends with, apart from the trace as a whole. -/
def untracedResult (result : List (Answer × List TraceRecord) × State) :
    List (Answer × List TraceRecord) × State :=
  (result.1, result.2.untraced)

theorem runSteps_dropMarked {left right : State} (halike : left.Alike right) (routing : Routing)
    (allowance : Nat) (steps : List Step) :
    ((runSteps routing allowance
        (dropMarked (repeatedBatches routing allowance steps left) steps)).run right).map
          untracedResult =
      ((runSteps routing allowance steps).run left).map fun result ↦
        (dropMarked (repeatedBatches routing allowance steps left) result.1,
          result.2.untraced) := by
  induction steps generalizing left right with
  | nil =>
    refine congrArg Except.ok (Prod.ext rfl ?_)
    exact halike.untraced_eq.symm
  | cons step rest ih =>
    cases hrepeats : left.repeatsBatch step with
    | true =>
      obtain ⟨answer, after, hstep, hsame⟩ := runStep_of_repeatsBatch hrepeats
      have hmarks : repeatedBatches routing allowance (step :: rest) left =
          true :: repeatedBatches routing allowance rest after := by
        rw [repeatedBatches, hrepeats, hstep]
      rw [hmarks, run_runSteps_of_ok hstep]
      refine (ih (halike.of_untraced_eq hsame)).trans ?_
      cases (runSteps routing allowance rest).run after <;> rfl
    | false =>
      rcases runStep_alike halike routing allowance step with
        ⟨malformed, hleft, hright⟩ | ⟨answer, leftAfter, rightAfter, hleft, hright, hafter⟩
      · have hmarks : repeatedBatches routing allowance (step :: rest) left = [false] := by
          rw [repeatedBatches, hrepeats, hleft]
        rw [hmarks, run_runSteps_cons, hleft]
        change ((runSteps routing allowance (step :: dropMarked [] rest)).run right).map _ = _
        rw [run_runSteps_cons, hright]
        rfl
      · have hmarks : repeatedBatches routing allowance (step :: rest) left =
            false :: repeatedBatches routing allowance rest leftAfter := by
          rw [repeatedBatches, hrepeats, hleft]
        rw [hmarks, run_runSteps_of_ok hleft]
        change ((runSteps routing allowance (step :: dropMarked _ rest)).run right).map _ = _
        rw [run_runSteps_of_ok hright]
        have hrest := ih hafter
        generalize (runSteps routing allowance rest).run leftAfter = leftEnd at hrest ⊢
        generalize (runSteps routing allowance (dropMarked _ rest)).run rightAfter = rightEnd
          at hrest ⊢
        cases leftEnd with
        | error malformed =>
          cases rightEnd with
          | error other => exact hrest
          | ok => cases hrest
        | ok leftResult =>
          cases rightEnd with
          | error => cases hrest
          | ok rightResult =>
            obtain ⟨hanswers, hstates⟩ := Prod.mk.inj (Except.ok.inj hrest)
            exact congrArg Except.ok (Prod.ext (congrArg (answer :: ·) hanswers) hstates)

end Session

/-! ## Batches are applied once -/

/-- A batch that is new to a registry has the effect of its entries, registered in order, and a
note of it is made; the last entry for a name counts, and all of them count towards the
generation.  A registry has a note of exactly those batches that were begun there.  In every
session, whatever happens between, the requests that apply a batch once more can be left out: the
other steps give the same answers with the same records, and all but the trace ends the same.  Two
batches are both applied unless they are one, and a batch does nothing to another registry. -/
theorem batches_apply_once :
    (∀ (world : World) (registry : RegistryId) (batch : Batch),
      batch.identity ∉ (world.registry registry).applied →
        (world.registerBatch registry batch).untraced =
          ((world.registerAll registry batch.entries).markApplied registry
            batch.identity).untraced) ∧
    (∀ (moment : Moment) (registry : RegistryId) (batch : Batch) (name : String),
      moment.Reachable → moment.world.HasRegistry registry →
      batch.identity ∉ (moment.world.registry registry).applied →
      batch.definitionsOf name ≠ [] →
        let after := moment.world.registerBatch registry batch
        ∃ function, after.functionNamed? registry name = some function ∧
          (after.functionState function).definition = (batch.definitionsOf name).getLast? ∧
          (∀ known, moment.world.functionNamed? registry name = some known →
            function = known ∧ (after.functionState function).generation =
              (moment.world.functionState known).generation +
                (batch.definitionsOf name).length) ∧
          (moment.world.functionNamed? registry name = none →
            (after.functionState function).generation + 1 =
              (batch.definitionsOf name).length)) ∧
    (∀ (moment : Moment) (registry : RegistryId) (identity : Nat), moment.Reachable →
      (identity ∈ (moment.world.registry registry).applied ↔
        ∃ batch : Batch, batch.identity = identity ∧
          .beginBatch registry batch ∈ moment.journal)) ∧
    (∀ (routing : Routing) (allowance : Nat) (steps : List Session.Step),
      (∀ config : Config,
        let marks := Session.repeatedBatches routing allowance steps { config }
        (Session.execute routing allowance config (dropMarked marks steps)).map
            Session.untracedResult =
          (Session.execute routing allowance config steps).map fun result ↦
            (dropMarked marks result.1, result.2.untraced)) ∧
      ∀ (moment : Moment) (state : Session.State), moment.Reachable →
        state.world = moment.world → state.NamesExist →
          let marks := Session.repeatedBatches routing allowance steps state
          ((Session.runSteps routing allowance (dropMarked marks steps)).run state).map
              Session.untracedResult =
            ((Session.runSteps routing allowance steps).run state).map fun result ↦
              (dropMarked marks result.1, result.2.untraced)) ∧
    (∀ (world : World) (registry : RegistryId) (first second : Batch),
      first.identity ≠ second.identity →
      first.identity ∉ (world.registry registry).applied →
      second.identity ∉ (world.registry registry).applied →
        ((world.registerBatch registry first).registerBatch registry second).untraced =
          ((((world.registerAll registry first.entries).registerAll registry
            second.entries).markApplied registry first.identity).markApplied registry
              second.identity).untraced) ∧
    (∀ (world : World) (registry other : RegistryId) (batch : Batch), other ≠ registry →
      (world.registerBatch registry batch).registry other = world.registry other) := by
  refine ⟨fun world registry batch ↦ World.untraced_registerBatch, ?_, ?_, ?_, ?_, ?_⟩
  · intro moment registry batch name hreachable hregistry hnew hoccurs
    exact hreachable.name_in_batch hregistry hnew hoccurs
  · intro moment registry identity hreachable
    exact hreachable.mem_applied_iff registry identity
  · intro routing allowance steps
    have hruns (moment : Moment) (state : Session.State) (hmoment : moment.Reachable)
        (hworld : state.world = moment.world) (hnames : state.NamesExist) :=
      Session.runSteps_dropMarked ⟨rfl, hnames, hworld ▸ hmoment.wellFormed⟩ routing allowance steps
    exact ⟨fun config ↦ hruns .start { config } .start rfl (Session.State.namesExist_start config),
      hruns⟩
  · intro world registry first second hdistinct hfirst hsecond
    exact World.untraced_registerBatch_twice hdistinct hfirst hsecond
  · intro world registry other batch hother
    exact World.registry_registerBatch_of_ne hother batch

/-- Two batches with the same entries for one name, and a session that applies a batch, registers
one of its names again, and applies the batch once more. -/
theorem batches_apply_once_two_entries :
    let entries := [("f", { body := .depth }), ("f", { body := .argumentCount })]
    let first : Batch := { identity := 0, entries }
    let second : Batch := { identity := 1, entries }
    let moment := Moment.start.after [.newRegistry {}, .newRegistry {}]
    let once := moment.world.registerBatch ⟨0⟩ first
    let steps : List Session.Step :=
      [.batch "b" [("f", { body := .depth })], .registerBatch "b" "main",
        .register "f" { body := .argumentCount } "main", .registerBatch "b" "main",
        .call (.named "f") [] "main"]
    let marks := Session.repeatedBatches .cached 2 steps {}
    once.untraced = ((moment.world.registerAll ⟨0⟩ entries).markApplied ⟨0⟩ 0).untraced ∧
      (∃ function, once.functionNamed? ⟨0⟩ "f" = some function ∧
        (once.functionState function).definition = some { body := .argumentCount } ∧
        (once.functionState function).generation + 1 = 2) ∧
      ¬ (∃ batch : Batch, batch.identity = 0 ∧ .beginBatch ⟨0⟩ batch ∈ moment.journal) ∧
      marks = [false, false, false, true, false] ∧
      (Session.execute .cached 2 {} (dropMarked marks steps)).map Session.untracedResult =
        (Session.execute .cached 2 {} steps).map (fun result ↦
          (dropMarked marks result.1, result.2.untraced)) ∧
      ((Session.runSteps .cached 2 (dropMarked marks steps)).run {}).map Session.untracedResult =
        ((Session.runSteps .cached 2 steps).run {}).map (fun result ↦
          (dropMarked marks result.1, result.2.untraced)) ∧
      (once.registerBatch ⟨0⟩ second).untraced =
        ((((moment.world.registerAll ⟨0⟩ entries).registerAll ⟨0⟩ entries).markApplied ⟨0⟩
          0).markApplied ⟨0⟩ 1).untraced ∧
      once.registry ⟨1⟩ = moment.world.registry ⟨1⟩ := by
  intro entries first second moment once steps marks
  obtain ⟨halone, hnames, hnotes, hsessions, htwice, hothers⟩ := batches_apply_once
  have hreachable : moment.Reachable := Moment.leads_after _ _ (by decide)
  obtain ⟨function, hfunction, hdefinition, -, hgeneration⟩ :=
    hnames moment ⟨0⟩ first "f" hreachable (by decide) (by decide)
      (by simp [first, entries, Batch.definitionsOf])
  refine ⟨halone _ _ first (by decide), ⟨function, hfunction, hdefinition,
    hgeneration (by decide)⟩, ?_, by decide +kernel, (hsessions .cached 2 steps).1 {},
    (hsessions .cached 2 steps).2 .start {} .start rfl (Session.State.namesExist_start {}),
    htwice _ _ first second (by decide) (by decide) (by decide), hothers _ _ _ first (by decide)⟩
  exact fun hbegun ↦ absurd ((hnotes moment ⟨0⟩ 0 hreachable).mpr hbegun) (by decide)

end GuestCore
