import GuestCore.Proofs.Batches
import GuestCore.Proofs.Records

/-!
# The Trace Replays the Registry

The trace tells when a function is created without a definition and when a definition is installed,
at which generation.  As long as all functions belong to one registry, this is enough to rebuild
the registry from the trace alone: its names in their order, which of them are defined, and their
generations.  Nothing is missing and nothing is told twice, however calls nest.
-/

namespace GuestCore

/-! ## Records about functions -/

namespace TraceRecord

/-- The name of the function that is created or given a definition. -/
def subject? : TraceRecord → Option String
  | createdUndefined name | installed name _ => some name
  | _ => none

/-- The generation at which the function of the name is given a definition. -/
def generation? (name : String) : TraceRecord → Option Nat
  | installed other generation => if other = name then some generation else none
  | _ => none

theorem subject?_of_isOfSite {record : TraceRecord} (hsite : record.isOfSite = true) :
    record.subject? = none := by
  cases record with
  | fastPathHit | generationMismatch | refreshedSite | megamorphicSite => rfl
  | _ => cases hsite

/-- What is not about a function reports no generation. -/
theorem generation?_of_subject? {record : TraceRecord} (hsubject : record.subject? = none)
    (name : String) : record.generation? name = none := by
  cases record with
  | installed => cases hsubject
  | _ => rfl

/-- The generations that were reported for a name, oldest first. -/
def generations (name : String) (records : List TraceRecord) : List Nat :=
  records.filterMap (generation? name)

/-- The names of all functions that the records are about, in the order of their first records. -/
def subjects (records : List TraceRecord) : List String :=
  (records.filterMap subject?).eraseDups

end TraceRecord

namespace Effect

variable (effect : Effect) (world : World)

/-- The functions that an effect tells of. -/
theorem filterMap_subject?_records :
    (effect.records world).filterMap TraceRecord.subject? = match effect with
      | findOrCreate registry name =>
        if (world.functionNamed? registry name).isSome then [] else [name]
      | register _ name _ => [name]
      | _ => [] := by
  cases effect with
  | findOrCreate registry name =>
    simp only [records]
    split <;> rfl
  | beginBatch registry batch =>
    simp only [records]
    split <;> rfl
  | noteCall dispatcher site function =>
    exact List.filterMap_eq_nil_iff.mpr fun record hrecord ↦ TraceRecord.subject?_of_isOfSite
      (world.isOfSite_callRecords dispatcher site function record hrecord)
  | _ => rfl

/-- A registration tells the generation that the function has then. -/
theorem generations_records (name : String) :
    TraceRecord.generations name (effect.records world) = match effect with
      | register registry other definition =>
        let (function, after) := world.register registry other definition
        if other = name then [(after.functionState function).generation] else []
      | _ => [] := by
  cases effect with
  | findOrCreate registry name =>
    simp only [records]
    split <;> rfl
  | register registry other definition =>
    by_cases hname : other = name <;>
      simp [records, TraceRecord.generations, List.filterMap_cons, TraceRecord.generation?, hname]
  | beginBatch registry batch =>
    simp only [records]
    split <;> rfl
  | noteCall dispatcher site function =>
    refine List.filterMap_eq_nil_iff.mpr fun record hrecord ↦ ?_
    have hsite := world.isOfSite_callRecords dispatcher site function record hrecord
    exact TraceRecord.generation?_of_subject? (TraceRecord.subject?_of_isOfSite hsite) name
  | _ => rfl

end Effect

/-! ## Generations and registrations -/

namespace Effect

variable {registry : RegistryId} {name : String} {journal : List Effect} {effect : Effect}

/-- The generations at which a name was registered: they follow each other, from zero if a
registration brought the name into existence and from one otherwise. -/
def generationsOf (registry : RegistryId) (name : String) (journal : List Effect) : List Nat :=
  List.range' (1 - (bornDefined registry name journal).toNat)
    (registrations registry name journal).length

/-- Once a name was registered, it is settled from where its generations count. -/
theorem range'_bornDefined_append :
    List.range' (1 - (bornDefined registry name (journal ++ [effect])).toNat)
        (registrations registry name journal).length =
      generationsOf registry name journal := by
  rw [generationsOf]
  by_cases hmentioned : ∃ effect ∈ journal, effect.mentioned? registry = some name
  · rw [bornDefined_append_of_mentioned hmentioned]
  · rw [registrations_eq_nil hmentioned]
    rfl

theorem generationsOf_append_of_not (hdefinition : effect.definition? registry name = none) :
    generationsOf registry name (journal ++ [effect]) = generationsOf registry name journal := by
  rw [generationsOf, registrations_append, hdefinition, Option.toList_none, List.append_nil,
    range'_bornDefined_append]

/-- The generation that follows from the registrations is the next one. -/
theorem generationsOf_append_of_definition {definition : Definition} {generation : Nat}
    (hdefinition : effect.definition? registry name = some definition)
    (hgeneration : generation + (bornDefined registry name (journal ++ [effect])).toNat =
      (registrations registry name (journal ++ [effect])).length) :
    generationsOf registry name (journal ++ [effect]) =
      generationsOf registry name journal ++ [generation] := by
  have hlength : (registrations registry name (journal ++ [effect])).length =
      (registrations registry name journal).length + 1 := by
    rw [registrations_append, hdefinition, List.length_append]
    rfl
  have hborn := Bool.toNat_le (bornDefined registry name (journal ++ [effect]))
  have hnext : generation = 1 - (bornDefined registry name (journal ++ [effect])).toNat +
      (registrations registry name journal).length := by
    omega
  rw [generationsOf, hlength, List.range'_1_concat, range'_bornDefined_append, hnext]

end Effect

/-! ## One registry -/

/-- No other registry has functions. -/
def World.KeepsNamesIn (world : World) (registry : RegistryId) : Prop :=
  ∀ other, other ≠ registry → (world.registry other).functions.keys = []

theorem World.keepsNamesIn_of_size {world : World} (hsize : world.registries.size ≤ 1) :
    world.KeepsNamesIn ⟨0⟩ := by
  intro other hother
  have hindex : world.registries.size ≤ other.index := by
    have hne : other.index ≠ 0 := fun hzero ↦ hother (congrArg RegistryId.mk hzero)
    omega
  have hempty : world.registry other = default := by
    simp only [Table.size] at hindex
    simp [World.registry, Table.get, hindex]
  rw [hempty]
  rfl

namespace Moment

variable {earlier moment later : Moment} {registry : RegistryId}

theorem Step.keepsNamesIn (step : earlier.Step later)
    (hlater : later.world.KeepsNamesIn registry) : earlier.world.KeepsNamesIn registry := by
  intro other hother
  have hkept := step.keepsNames.keys other
  rw [hlater other hother] at hkept
  exact List.prefix_nil.mp hkept

/-- All names were asked for in the one registry that has functions. -/
theorem Reachable.eq_of_mentioned? (hreachable : moment.Reachable)
    (hkeeps : moment.world.KeepsNamesIn registry) {effect : Effect}
    (heffect : effect ∈ moment.journal) {other : RegistryId} {name : String}
    (hmentioned : effect.mentioned? other = some name) : other = registry := by
  by_contra hother
  have hknown := (hreachable.isSome_functionNamed? other name).mpr ⟨effect, heffect, hmentioned⟩
  rw [World.isSome_functionNamed?, hkeeps other hother] at hknown
  cases hknown

/-! ## The trace against the registry -/

/-- The names that an effect tells of for the first time are those that it adds. -/
theorem newSubjects_eq {effect : Effect} {world : World} {told : List String}
    (htold : told.eraseDups = (world.registry registry).functions.keys)
    (hhome : ∀ other name, effect.mentioned? other = some name → other = registry) :
    (((effect.records world).filterMap TraceRecord.subject?).removeAll told).eraseDups =
      (effect.mentioned? registry).toList.filter fun name ↦
        name ∉ (world.registry registry).functions.keys := by
  rw [effect.filterMap_subject?_records, ← htold]
  cases effect with
  | findOrCreate other name =>
    obtain rfl : other = registry := hhome other name (if_pos rfl)
    have hknown := world.isSome_functionNamed? other name
    rw [← htold, List.mem_eraseDups] at hknown
    by_cases hmem : name ∈ told
    · simp [Effect.mentioned?, hknown.mpr hmem, List.mem_eraseDups, hmem]
    · simp [Effect.mentioned?, mt hknown.mp hmem, List.mem_eraseDups, hmem, List.cons_removeAll,
        List.eraseDups_cons]
  | register other name definition =>
    obtain rfl : other = registry := hhome other name (if_pos rfl)
    by_cases hmem : name ∈ told
    · simp [Effect.mentioned?, List.mem_eraseDups, hmem, List.cons_removeAll]
    · simp [Effect.mentioned?, List.mem_eraseDups, hmem, List.cons_removeAll, List.eraseDups_cons]
  | _ => rfl

/-- The generation that an effect reports for a name is the next one. -/
theorem newGenerations_eq {effect : Effect} (hallowed : effect.Allowed moment.world)
    (hreachable : Reachable { moment with
      world := effect.apply moment.world
      journal := moment.journal ++ [effect] })
    (hhome : ∀ other name, effect.mentioned? other = some name → other = registry)
    (name : String) :
    Effect.generationsOf registry name moment.journal ++
        TraceRecord.generations name (effect.records moment.world) =
      Effect.generationsOf registry name (moment.journal ++ [effect]) := by
  rw [effect.generations_records]
  cases effect with
  | register other registered definition =>
    obtain rfl : other = registry := hhome other registered (if_pos rfl)
    by_cases hname : registered = name
    · subst hname
      -- The function follows its history when it is registered, so that its generation is settled.
      have hfollows := hreachable.followsHistory other registered _
        (World.functionNamed?_register hallowed registered definition)
      have hdefinition : (Effect.register other registered definition).definition? other
          registered = some definition := if_pos ⟨rfl, rfl⟩
      dsimp only
      rw [if_pos rfl, Effect.generationsOf_append_of_definition hdefinition hfollows.generation]
      rfl
    · have hdefinition : (Effect.register other registered definition).definition? other name =
          none := if_neg fun hboth ↦ hname hboth.2
      dsimp only
      rw [if_neg hname, List.append_nil, Effect.generationsOf_append_of_not hdefinition]
  | _ => rw [List.append_nil, Effect.generationsOf_append_of_not rfl]

/-- The trace tells the names of the registry, and for each name the generations that follow from
its registrations. -/
structure Told (moment : Moment) (registry : RegistryId) : Prop where
  subjects : TraceRecord.subjects moment.world.trace =
    (moment.world.registry registry).functions.keys
  generations : ∀ name, TraceRecord.generations name moment.world.trace =
    Effect.generationsOf registry name moment.journal

theorem Told.effect (htold : moment.Told registry) {effect : Effect}
    (hallowed : effect.Allowed moment.world)
    (hreachable : Reachable { moment with
      world := effect.apply moment.world
      journal := moment.journal ++ [effect] })
    (hkeeps : (effect.apply moment.world).KeepsNamesIn registry) :
    Told { moment with
      world := effect.apply moment.world
      journal := moment.journal ++ [effect] } registry := by
  have hhome (other : RegistryId) (name : String)
      (hmentioned : effect.mentioned? other = some name) : other = registry :=
    hreachable.eq_of_mentioned? hkeeps (List.mem_append_right _ (List.mem_singleton.mpr rfl))
      hmentioned
  constructor
  · rw [World.keys_functionChange (effect.functionChange hallowed) registry, effect.trace_apply,
      TraceRecord.subjects, List.filterMap_append, List.eraseDups_append,
      newSubjects_eq htold.subjects hhome]
    exact congrArg (· ++ _) htold.subjects
  · intro name
    rw [effect.trace_apply, TraceRecord.generations, List.filterMap_append,
      ← newGenerations_eq hallowed hreachable hhome, ← htold.generations]
    rfl

theorem Reachable.told (hreachable : moment.Reachable)
    (hkeeps : moment.world.KeepsNamesIn registry) : moment.Told registry := by
  revert hkeeps
  apply hreachable.invariant (motive := fun moment ↦
    moment.world.KeepsNamesIn registry → moment.Told registry)
  · exact fun _ ↦ ⟨rfl, fun _ ↦ rfl⟩
  · intro before after hbefore ih step hkeeps
    have htold := ih (step.keepsNamesIn hkeeps)
    have hafter : after.Reachable := hbefore.leads (.single step)
    cases step with
    | effect effect hallowed => exact htold.effect hallowed hafter hkeeps
    | enter | leave => exact ⟨htold.subjects, htold.generations⟩

end Moment

/-! ## Replaying -/

theorem TraceRecord.exists_installed_iff {name : String} {records : List TraceRecord} :
    (∃ generation, installed name generation ∈ records) ↔ generations name records ≠ [] := by
  constructor
  · rintro ⟨generation, hmem⟩ hnone
    have habsent := List.filterMap_eq_nil_iff.mp hnone _ hmem
    rw [generation?, if_pos rfl] at habsent
    cases habsent
  · intro hsome
    obtain ⟨generation, hgeneration⟩ := List.exists_mem_of_ne_nil _ hsome
    obtain ⟨record, hrecord, htold⟩ := List.mem_filterMap.mp hgeneration
    cases record with
    | installed other reported =>
      simp only [generation?, Option.ite_none_right_eq_some] at htold
      exact ⟨reported, htold.1 ▸ hrecord⟩
    | _ => cases htold

/-- The registry is found by reading the records in order. -/
structure World.ReplayedBy (world : World) (registry : RegistryId) (records : List TraceRecord) :
    Prop where
  names : TraceRecord.subjects records = (world.registry registry).functions.keys
  defined : ∀ name function, world.functionNamed? registry name = some function →
    ((world.functionState function).isDefined = true ↔
      ∃ generation, .installed name generation ∈ records)
  /-- The generation is the one that was reported last, or zero. -/
  generation : ∀ name function, world.functionNamed? registry name = some function →
    (world.functionState function).generation =
      (TraceRecord.generations name records).getLast?.getD 0
  published : ∀ name function, world.functionNamed? registry name = some function →
    (world.functionState function).published =
      (TraceRecord.generations name records).getLast?.getD 0
  /-- The reported generations count up one by one. -/
  consecutive : ∀ name, ∃ first, TraceRecord.generations name records =
    List.range' first (TraceRecord.generations name records).length

theorem World.trace_repeated (world : World) (entries : Nat) :
    ((world.log (.registerBatch entries)).log .repeatedBatch).trace =
      world.trace ++ [.registerBatch entries, .repeatedBatch] := by
  rw [trace_log, trace_log, List.append_assoc]
  rfl

theorem TraceRecord.subject?_of_repeated (entries : Nat) :
    ∀ record ∈ [registerBatch entries, repeatedBatch], record.subject? = none :=
  List.forall_mem_cons.mpr ⟨rfl, List.forall_mem_singleton.mpr rfl⟩

namespace Moment

variable {moment : Moment} {registry : RegistryId}

theorem Reachable.replayedBy (hreachable : moment.Reachable)
    (hkeeps : moment.world.KeepsNamesIn registry) :
    moment.world.ReplayedBy registry moment.world.trace := by
  have htold := hreachable.told hkeeps
  have hlast {name : String} {function : FunctionId}
      (hname : moment.world.functionNamed? registry name = some function) :
      (moment.world.functionState function).generation =
        (TraceRecord.generations name moment.world.trace).getLast?.getD 0 := by
    have hgeneration := (hreachable.followsHistory registry name function hname).generation
    have hborn := Bool.toNat_le (Effect.bornDefined registry name moment.journal)
    rw [htold.generations, Effect.generationsOf, List.getLast?_range']
    split
    · simp only [Option.getD_none]
      omega
    · simp only [Option.getD_some]
      omega
  refine ⟨htold.subjects, ?_, fun name function ↦ hlast, ?_, ?_⟩
  · intro name function hname
    have hfollows := hreachable.followsHistory registry name function hname
    rw [TraceRecord.exists_installed_iff, htold.generations, FunctionState.isDefined,
      hfollows.definition, List.getLast?_isSome, Effect.generationsOf, ne_eq, ne_eq,
      List.range'_eq_nil_iff, List.length_eq_zero_iff]
  · intro name function hname
    rw [(hreachable.followsHistory registry name function hname).published, hlast hname]
  · intro name
    refine ⟨1 - (Effect.bornDefined registry name moment.journal).toNat, ?_⟩
    rw [htold.generations, Effect.generationsOf, List.length_range']

/-- A batch that was begun in the registry before tells of no function when it is begun again. -/
theorem Reachable.trace_registerBatch (hreachable : moment.Reachable) {batch earlier : Batch}
    (hidentity : earlier.identity = batch.identity)
    (hbegun : .beginBatch registry earlier ∈ moment.journal) :
    ∃ records, (moment.world.registerBatch registry batch).trace =
        moment.world.trace ++ records ∧ ∀ record ∈ records, record.subject? = none := by
  have happlied : batch.identity ∈ (moment.world.registry registry).applied :=
    (hreachable.mem_applied_iff registry batch.identity).mpr ⟨earlier, hidentity, hbegun⟩
  rw [World.registerBatch_of_applied happlied, World.trace_repeated]
  exact ⟨_, rfl, TraceRecord.subject?_of_repeated _⟩

end Moment

namespace Session

/-- A step that applies a batch once more tells of no function. -/
theorem subject?_of_repeatsBatch {state : State} {step : Step}
    (hrepeats : state.repeatsBatch step = true) (routing : Routing) (allowance : Nat) :
    ∃ answer after, (runStep routing allowance step).run state = .ok (answer, after) ∧
      ∀ record ∈ answer.2, record.subject? = none := by
  obtain ⟨answer, entries, hanswer⟩ := answerStep_of_repeatsBatch hrepeats
  have hstep := run_runStep routing allowance step state
  rw [hanswer] at hstep
  refine ⟨_, _, hstep, ?_⟩
  rw [recordsSince_of_trace (state.world.trace_repeated entries)]
  exact TraceRecord.subject?_of_repeated entries

end Session

open Session in
/-- As long as one registry has all functions, the records of a run replay it: at every moment of
every run, in the middle of nested calls too, and for every session, with the records that it hands
out.  A batch that is applied once more adds nothing to what is replayed. -/
theorem trace_replays_registry :
    (∀ (moment : Moment) (registry : RegistryId), moment.Reachable →
      moment.world.KeepsNamesIn registry →
        moment.world.ReplayedBy registry moment.world.trace) ∧
    (∀ (routing : Routing) (allowance : Nat) (config : Config) (steps : List Step)
      (answers : List (Answer × List TraceRecord)) (final : State) (registry : RegistryId),
      execute routing allowance config steps = .ok (answers, final) →
        final.world.KeepsNamesIn registry →
          final.world.ReplayedBy registry (answers.flatMap Prod.snd)) ∧
    (∀ (moment : Moment) (registry : RegistryId) (batch earlier : Batch), moment.Reachable →
      earlier.identity = batch.identity → .beginBatch registry earlier ∈ moment.journal →
        ∃ records, (moment.world.registerBatch registry batch).trace =
            moment.world.trace ++ records ∧ ∀ record ∈ records, record.subject? = none) ∧
    ∀ (routing : Routing) (allowance : Nat) (state : State) (step : Step),
      state.repeatsBatch step = true →
        ∃ answer after, (runStep routing allowance step).run state = .ok (answer, after) ∧
          ∀ record ∈ answer.2, record.subject? = none := by
  refine ⟨fun moment registry ↦ Moment.Reachable.replayedBy, ?_, ?_, ?_⟩
  · intro routing allowance config steps answers final registry hrun hkeeps
    obtain ⟨journal, hreachable⟩ := execute_reachable hrun
    rw [← trace_execute hrun]
    exact hreachable.replayedBy hkeeps
  · intro moment registry batch earlier hreachable hidentity hbegun
    exact hreachable.trace_registerBatch hidentity hbegun
  · intro routing allowance state step hrepeats
    exact subject?_of_repeatsBatch hrepeats routing allowance

/-- A name that is looked up first, a batch that is applied twice, and a function that replaces
itself when it is called. -/
def replayedSteps : List Session.Step :=
  [.lookup "f" true "main",
    .batch "b" [("g", { body := .depth }), ("f", { body := .register "f" .depth none })],
    .registerBatch "b" "main", .registerBatch "b" "main", .call (.named "f") [] "main"]

open Session in
/-- The names and generations that these steps report are those of the registry, and applying the
batch again reports none. -/
theorem trace_replays_registry_replayedSteps :
    (∃ answers final, execute .cached 1 {} replayedSteps = .ok (answers, final) ∧
      TraceRecord.subjects (answers.flatMap Prod.snd) = ["f", "g"] ∧
      TraceRecord.generations "f" (answers.flatMap Prod.snd) = [1, 2] ∧
      TraceRecord.generations "g" (answers.flatMap Prod.snd) = [0] ∧
        final.world.ReplayedBy ⟨0⟩ (answers.flatMap Prod.snd)) ∧
    let batch : Batch := { identity := 0, entries := [("f", { body := .depth })] }
    let moment := Moment.start.after [.newRegistry {}, .beginBatch ⟨0⟩ batch]
    moment.world.ReplayedBy ⟨0⟩ moment.world.trace ∧
      ∃ records, (moment.world.registerBatch ⟨0⟩ batch).trace = moment.world.trace ++ records ∧
        ∀ record ∈ records, record.subject? = none := by
  obtain ⟨hmoments, hsessions, hbatches, -⟩ := trace_replays_registry
  refine ⟨?_, ?_⟩
  · have hends : (execute .cached 1 {} replayedSteps).toOption.any (fun result ↦
        TraceRecord.subjects (result.1.flatMap Prod.snd) = ["f", "g"] ∧
          TraceRecord.generations "f" (result.1.flatMap Prod.snd) = [1, 2] ∧
          TraceRecord.generations "g" (result.1.flatMap Prod.snd) = [0] ∧
          result.2.world.registries.size ≤ 1) = true := by
      decide +kernel
    cases hrun : execute .cached 1 {} replayedSteps with
    | error malformed =>
      rw [hrun] at hends
      cases hends
    | ok result =>
      rw [hrun] at hends
      obtain ⟨hsubjects, hfirst, hsecond, hsize⟩ := of_decide_eq_true hends
      exact ⟨result.1, result.2, rfl, hsubjects, hfirst, hsecond,
        hsessions .cached 1 {} replayedSteps _ _ _ hrun (World.keepsNamesIn_of_size hsize)⟩
  · intro batch moment
    have hreachable : moment.Reachable := Moment.leads_after _ _ (by decide)
    exact ⟨hmoments moment ⟨0⟩ hreachable (World.keepsNamesIn_of_size (by decide)),
      hbatches moment ⟨0⟩ batch batch hreachable rfl (by simp [moment, Moment.after, Moment.start])⟩

end GuestCore
