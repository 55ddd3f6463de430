import GuestCore.Proofs.RaisedFaults
import GuestCore.Proofs.SiteCalls
import Mathlib.Algebra.GroupWithZero.Nat

/-!
# The Trace Accounts for Dispatch

The counters of call sites and the trace tell the same story.  There is a record for every call
that was served from a site and for every site that gave up remembering.  A record of a mismatch
tells of an older generation, and the next record is that of the site refreshed to the present one:
a function that a site remembers stays defined, and nothing happens between the two.  The records
of refused calls are the faults of exceeded depth, whether they were caught or not.
-/

namespace GuestCore

open Session

/-! ## Counters of sites -/

namespace Members

variable {α : Type}

theorem sum_map_insertEntry (measure : α → Nat) (key : String) (value : α)
    (entries : List (String × α)) :
    (((insertEntry key value entries).map Prod.snd).map measure).sum +
        ((entries.lookup key).map measure).getD 0 =
      ((entries.map Prod.snd).map measure).sum + measure value := by
  induction entries with
  | nil => simp [insertEntry]
  | cons entry rest ih =>
    rw [insertEntry, List.lookup_cons]
    by_cases hkey : entry.1 = key
    · simp only [hkey, if_true, beq_self_eq_true, List.map_cons, List.sum_cons, Option.map_some,
        Option.getD_some]
      omega
    · simp only [hkey, if_false, beq_false_of_ne (Ne.symm hkey), List.map_cons, List.sum_cons]
      omega

/-- Writing replaces the share of one name in a sum. -/
theorem sum_values_insert (measure : α → Nat) (members : Members α) (key : String) (value : α) :
    ((members.insert key value).values.map measure).sum +
        ((members.get? key).map measure).getD 0 =
      (members.values.map measure).sum + measure value :=
  sum_map_insertEntry measure key value members.entries

end Members

namespace TraceRecord

def isFastPathHit : TraceRecord → Bool
  | fastPathHit _ => true
  | _ => false

def isMegamorphicSite : TraceRecord → Bool
  | megamorphicSite _ _ => true
  | _ => false

end TraceRecord

/-- A number of a site that grows by one with every record of some kind, and never otherwise. -/
structure Site.Counter (measure : Site → Nat) (counted : TraceRecord → Bool) : Prop where
  new : measure {} = 0
  fast : ∀ site name, measure (countFast site) =
    measure site + [TraceRecord.fastPathHit name].countP counted
  slow : ∀ site, measure (countSlow site) = measure site
  learned : ∀ site limit name target, measure (learn site limit name target).1 =
    measure site + (learn site limit name target).2.countP counted
  mismatch : ∀ name cached current, counted (.generationMismatch name cached current) = false
  other : ∀ record : TraceRecord, record.isOfSite = false → counted record = false

namespace Site

theorem counter_fastHits : Counter fastHits TraceRecord.isFastPathHit where
  new := rfl
  fast _ _ := rfl
  slow _ := rfl
  learned site limit name target := by
    unfold learn
    split_ifs <;> rfl
  mismatch _ _ _ := rfl
  other record hother := by
    cases record with
    | fastPathHit => cases hother
    | _ => rfl

theorem counter_megamorphic :
    Counter (fun site ↦ site.megamorphic.toNat) TraceRecord.isMegamorphicSite where
  new := rfl
  fast _ _ := rfl
  slow _ := rfl
  learned site limit name target := by
    unfold learn
    split_ifs with hmegamorphic
    · rfl
    · rfl
    · rw [Bool.not_eq_true] at hmegamorphic
      simp [hmegamorphic, TraceRecord.isMegamorphicSite]
    · rfl
  mismatch _ _ _ := rfl
  other record hother := by
    cases record with
    | megamorphicSite => cases hother
    | _ => rfl

end Site

namespace World

variable {measure : Site → Nat} {counted : TraceRecord → Bool}

theorem measure_noteSlow (hcounter : Site.Counter measure counted) (world : World)
    (dispatcher : DispatcherId) (name : String) (function : FunctionId) :
    measure ((world.site name).noteSlow (world.siteCall dispatcher function)) =
      measure (world.site name) +
        (world.slowCallRecords dispatcher name function).countP counted := by
  simp only [Site.noteSlow, slowCallRecords, siteCall]
  cases (world.functionState function).definition with
  | none => exact hcounter.slow _
  | some definition =>
    dsimp only
    rw [hcounter.learned, hcounter.slow]

/-- The number of the called site grows by the records that the call writes. -/
theorem measure_note (hcounter : Site.Counter measure counted) (world : World)
    (dispatcher : DispatcherId) (name : String) (function : FunctionId) :
    measure ((world.site name).note (world.siteCall dispatcher function)) =
      measure (world.site name) + (world.callRecords dispatcher name function).countP counted := by
  have hslow := measure_noteSlow hcounter world dispatcher name function
  simp only [Site.note, callRecords, siteCall] at hslow ⊢
  cases (world.site name).consult function (world.functionState function).published with
  | current definition => exact hcounter.fast _ _
  | stale cached =>
    dsimp only
    rw [List.countP_cons_of_neg (by simp [hcounter.mismatch])]
    exact hslow
  | unknown => exact hslow

theorem sites_noteCall (world : World) (dispatcher : DispatcherId) (name : String)
    (function : FunctionId) :
    (world.noteCall dispatcher name function).sites =
      world.sites.insert name ((world.site name).note (world.siteCall dispatcher function)) := by
  have hslow (before : World) : (before.noteSlowCall dispatcher name function).sites =
      before.sites.insert name
        ((before.site name).noteSlow (before.siteCall dispatcher function)) := by
    simp only [noteSlowCall, Site.noteSlow, siteCall]
    cases (before.functionState function).definition with
    | none => rfl
    | some definition => exact sites_foldl_log _ _
  simp only [noteCall, Site.note, siteCall]
  cases (world.site name).consult function (world.functionState function).published with
  | current definition => rfl
  | stale cached => exact hslow (world.log _)
  | unknown => exact hslow world

/-- The number, summed up over all sites. -/
def total (measure : Site → Nat) (world : World) : Nat :=
  (world.sites.values.map measure).sum

theorem total_noteCall (hcounter : Site.Counter measure counted) (world : World)
    (dispatcher : DispatcherId) (name : String) (function : FunctionId) :
    (world.noteCall dispatcher name function).total measure =
      world.total measure + (world.callRecords dispatcher name function).countP counted := by
  have hshare : ((world.sites.get? name).map measure).getD 0 = measure (world.site name) := by
    rw [World.site]
    cases world.sites.get? name with
    | none => exact hcounter.new.symm
    | some site => rfl
  have hsum := world.sites.sum_values_insert measure name
    ((world.site name).note (world.siteCall dispatcher function))
  rw [hshare, measure_note hcounter] at hsum
  rw [total, sites_noteCall, total]
  omega

end World

/-- Only calls through sites change sites and write about them. -/
theorem Effect.noteCall_or_sites_eq (effect : Effect) (world : World) :
    (∃ dispatcher site function, effect = .noteCall dispatcher site function) ∨
      (effect.apply world).sites = world.sites ∧
        ∀ record ∈ effect.records world, record.isOfSite = false := by
  cases effect with
  | noteCall dispatcher site function => exact .inl ⟨dispatcher, site, function, rfl⟩
  | findOrCreate registry name =>
    refine .inr ⟨Effect.sites_apply _ world, ?_⟩
    simp only [records]
    split <;> simp [TraceRecord.isOfSite]
  | beginBatch registry batch =>
    refine .inr ⟨Effect.sites_apply _ world, ?_⟩
    simp only [records]
    split <;> simp [TraceRecord.isOfSite]
  | _ =>
    refine .inr ⟨Effect.sites_apply _ world, ?_⟩
    simp [records, TraceRecord.isOfSite]

/-- At every moment the trace has as many records of a kind as the sites have counted. -/
theorem Moment.Reachable.countP_trace {measure : Site → Nat} {counted : TraceRecord → Bool}
    (hcounter : Site.Counter measure counted) {moment : Moment} (hreachable : moment.Reachable) :
    moment.world.trace.countP counted = moment.world.total measure := by
  apply hreachable.invariant
    (motive := fun moment ↦ moment.world.trace.countP counted = moment.world.total measure)
  · rfl
  · intro before after _ hbefore step
    cases step with
    | enter | leave => exact hbefore
    | effect effect hallowed =>
      dsimp only at hbefore ⊢
      rw [effect.trace_apply, List.countP_append, hbefore]
      rcases effect.noteCall_or_sites_eq before.world with
        ⟨dispatcher, site, function, rfl⟩ | ⟨hsites, hother⟩
      · exact (World.total_noteCall hcounter _ dispatcher site function).symm
      · have hnone : (effect.records before.world).countP counted = 0 := by
          rw [List.countP_eq_zero]
          intro record hrecord
          simp [hcounter.other record (hother record hrecord)]
        rw [hnone, World.total, World.total, hsites, Nat.add_zero]

/-! ## Mismatches -/

/-- Every mismatch is with a later generation, at which the site is refreshed at once. -/
def MismatchesRefreshed (records : List TraceRecord) : Prop :=
  ∀ index name cached current,
    records[index]? = some (.generationMismatch name cached current) →
      cached < current ∧ records[index + 1]? = some (.refreshedSite name current)

theorem MismatchesRefreshed.append {earlier later : List TraceRecord}
    (hearlier : MismatchesRefreshed earlier) (hlater : MismatchesRefreshed later) :
    MismatchesRefreshed (earlier ++ later) := by
  intro index name cached current hmismatch
  rcases Nat.lt_or_ge index earlier.length with hindex | hindex
  · rw [List.getElem?_append_left hindex] at hmismatch
    obtain ⟨hless, hnext⟩ := hearlier index name cached current hmismatch
    obtain ⟨hnextIndex, -⟩ := List.getElem?_eq_some_iff.mp hnext
    rw [List.getElem?_append_left hnextIndex]
    exact ⟨hless, hnext⟩
  · rw [List.getElem?_append_right hindex] at hmismatch
    rw [List.getElem?_append_right (Nat.le_succ_of_le hindex), Nat.succ_sub hindex]
    exact hlater _ name cached current hmismatch

theorem mismatchesRefreshed_of_forall {records : List TraceRecord}
    (hnone : ∀ record ∈ records, ∀ name cached current,
      record ≠ .generationMismatch name cached current) : MismatchesRefreshed records := by
  intro index name cached current hmismatch
  exact absurd rfl (hnone _ (List.mem_of_getElem? hmismatch) name cached current)

theorem mismatchesRefreshed_pair {name : String} {cached current : Nat}
    (hless : cached < current) :
    MismatchesRefreshed [.generationMismatch name cached current, .refreshedSite name current] := by
  intro index other earlier later hmismatch
  match index with
  | 0 =>
    cases hmismatch
    exact ⟨hless, rfl⟩
  | 1 => cases hmismatch
  | _ + 2 => cases hmismatch

/-- A site is out of date if it remembers another generation. -/
theorem Site.exists_target_of_stale {site : Site} {function : FunctionId} {generation cached : Nat}
    (hrecall : site.consult function generation = .stale cached) :
    site.megamorphic = false ∧ ∃ target ∈ site.targets, target.function = function ∧
      target.generation = cached ∧ cached ≠ generation := by
  unfold consult at hrecall
  split at hrecall
  · cases hrecall
  · next hmegamorphic =>
    refine ⟨Bool.not_eq_true _ ▸ hmegamorphic, ?_⟩
    split at hrecall
    · cases hrecall
    · next target htarget =>
      split at hrecall
      · cases hrecall
      · next hgeneration =>
        cases hrecall
        exact ⟨target, List.mem_of_find?_eq_some htarget, by simpa using List.find?_some htarget,
          rfl, hgeneration⟩

theorem Site.learn_of_known {site : Site} {target known : SiteTarget} (limit : Nat) (name : String)
    (hremembers : site.megamorphic = false) (hknown : known ∈ site.targets)
    (hfunction : known.function = target.function) :
    (site.learn limit name target).2 = [.refreshedSite name target.generation] := by
  have hsome : (site.target? target.function).isSome = true := by
    rw [target?, List.find?_isSome]
    exact ⟨known, hknown, decide_eq_true hfunction⟩
  rw [learn, hremembers, if_neg Bool.false_ne_true, if_pos hsome]

theorem World.slowCallRecords_ne_mismatch (world : World) (dispatcher : DispatcherId)
    (siteName : String) (function : FunctionId) :
    ∀ record ∈ world.slowCallRecords dispatcher siteName function, ∀ name cached current,
      record ≠ .generationMismatch name cached current := by
  simp only [slowCallRecords]
  cases (world.functionState function).definition with
  | none => exact nofun
  | some definition =>
    dsimp only
    unfold Site.learn
    split_ifs <;> simp

namespace World

variable {world : World} {name : String} {function : FunctionId} {cached : Nat}

/-- A call through a site that is out of date writes of the mismatch and of the refreshed site.  The
function has been defined since the site came to know it, and its generation has only grown. -/
theorem Coherent.callRecords_of_stale (hcoherent : world.Coherent)
    (hrecall : (world.site name).consult function (world.functionState function).published =
      .stale cached) (dispatcher : DispatcherId) :
    cached < (world.functionState function).published ∧
      world.callRecords dispatcher name function =
        [.generationMismatch (world.functionState function).name cached
            (world.functionState function).published,
          .refreshedSite (world.functionState function).name
            (world.functionState function).published] := by
  obtain ⟨hremembers, target, htarget, rfl, rfl, hgeneration⟩ :=
    Site.exists_target_of_stale hrecall
  have hagrees := hcoherent.agrees name target htarget
  have hpublished := hcoherent.published_eq target.function
  obtain ⟨definition, hdefinition⟩ := Option.isSome_iff_exists.mp hagrees.defined
  refine ⟨?_, ?_⟩
  · rw [hpublished] at hgeneration ⊢
    exact Nat.lt_of_le_of_ne hagrees.generation_le hgeneration
  · have hslow : world.slowCallRecords dispatcher name target.function =
        [.refreshedSite (world.functionState target.function).name
          (world.functionState target.function).generation] := by
      simp only [slowCallRecords, hdefinition]
      exact Site.learn_of_known _ _ hremembers htarget rfl
    rw [hpublished] at hrecall
    simp only [callRecords, hpublished, hrecall, hslow]

theorem Coherent.mismatchesRefreshed_callRecords (hcoherent : world.Coherent)
    (dispatcher : DispatcherId) (name : String) (function : FunctionId) :
    MismatchesRefreshed (world.callRecords dispatcher name function) := by
  cases hrecall : (world.site name).consult function (world.functionState function).published with
  | current definition =>
    apply mismatchesRefreshed_of_forall
    simp [callRecords, hrecall]
  | stale cached =>
    obtain ⟨hless, hrecords⟩ := hcoherent.callRecords_of_stale hrecall dispatcher
    rw [hrecords]
    exact mismatchesRefreshed_pair hless
  | unknown =>
    apply mismatchesRefreshed_of_forall
    simp only [callRecords, hrecall]
    exact world.slowCallRecords_ne_mismatch dispatcher name function

end World

theorem Moment.Reachable.mismatchesRefreshed {moment : Moment} (hreachable : moment.Reachable) :
    MismatchesRefreshed moment.world.trace := by
  apply hreachable.invariant (motive := fun moment ↦ MismatchesRefreshed moment.world.trace)
  · exact mismatchesRefreshed_of_forall nofun
  · intro before after hreachable hbefore step
    cases step with
    | enter | leave => exact hbefore
    | effect effect hallowed =>
      dsimp only at hbefore ⊢
      rw [effect.trace_apply]
      refine hbefore.append ?_
      rcases effect.noteCall_or_sites_eq before.world with
        ⟨dispatcher, site, function, rfl⟩ | ⟨-, hother⟩
      · exact hreachable.coherent.mismatchesRefreshed_callRecords dispatcher site function
      · refine mismatchesRefreshed_of_forall fun record hrecord name cached current hmismatch ↦ ?_
        have hrecord := hother record hrecord
        rw [hmismatch] at hrecord
        cases hrecord

/-! ## The whole account -/

theorem sum_map_toNat_eq_countP {α : Type} (holds : α → Bool) (list : List α) :
    (list.map fun element ↦ (holds element).toNat).sum = list.countP holds := by
  induction list with
  | nil => rfl
  | cons head tail ih =>
    rw [List.map_cons, List.sum_cons, ih, List.countP_cons]
    cases holds head <;> simp [Nat.add_comm]

/-- The trace has a record for every call that was served from a site and for every site that gave
up, and every mismatch that it tells of was mended at once. -/
structure World.AccountsForSites (world : World) : Prop where
  fastHits_eq : world.trace.countP TraceRecord.isFastPathHit =
    (world.sites.values.map Site.fastHits).sum
  megamorphic_eq : world.trace.countP TraceRecord.isMegamorphicSite =
    world.sites.values.countP Site.megamorphic
  mismatches : MismatchesRefreshed world.trace

theorem Moment.Reachable.accountsForSites {moment : Moment} (hreachable : moment.Reachable) :
    moment.world.AccountsForSites where
  fastHits_eq := hreachable.countP_trace Site.counter_fastHits
  megamorphic_eq := (hreachable.countP_trace Site.counter_megamorphic).trans
    (sum_map_toNat_eq_countP Site.megamorphic moment.world.sites.values)
  mismatches := hreachable.mismatchesRefreshed

namespace Session

variable {routing : Routing} {allowance : Nat} {config : Config} {steps : List Step}
  {answers : List (Answer × List TraceRecord)} {final : State}

theorem execute_accountsForSites
    (hrun : execute routing allowance config steps = .ok (answers, final)) :
    final.world.AccountsForSites := by
  obtain ⟨journal, hreachable⟩ := execute_reachable hrun
  exact hreachable.accountsForSites

/-- The records of refused calls are the faults of exceeded depth, limit by limit. -/
theorem execute_exceeded
    (hrun : execute routing allowance config steps = .ok (answers, final)) :
    (answers.flatMap Prod.snd).filterMap TraceRecord.exceeded? =
      (callFaults routing allowance steps { config }).filterMap Fault.exceeded? := by
  have hrefusals := runSteps_refusals .start rfl (State.namesExist_start config) hrun
  rw [refusals] at hrefusals
  rw [exceeded?_callFaults]
  unfold TraceRecord.exceeded? Event.exceeded?
  rw [← List.map_filterMap, ← List.map_filterMap, hrefusals]

end Session

/-- What the trace tells of sites is so at every moment of a run, what it tells of refused calls is
so for every call, and both for every session and the records that it hands out. -/
theorem trace_accounts_for_dispatch :
    (∀ moment : Moment, moment.Reachable → moment.world.AccountsForSites) ∧
    (∀ (call : PreparedCall) (routing : Routing) (allowance : Nat) (world : World),
      call.TellsFaults routing allowance world) ∧
    ∀ (routing : Routing) (allowance : Nat) (config : Config) (steps : List Step)
      (answers : List (Answer × List TraceRecord)) (final : State),
      execute routing allowance config steps = .ok (answers, final) →
        final.world.trace = answers.flatMap Prod.snd ∧ final.world.AccountsForSites ∧
          (answers.flatMap Prod.snd).filterMap TraceRecord.exceeded? =
            (callFaults routing allowance steps { config }).filterMap Fault.exceeded? := by
  refine ⟨?_, ?_, ?_⟩
  · intro moment hreachable
    exact hreachable.accountsForSites
  · intro call routing allowance world
    exact call.tellsFaults routing allowance world
  · intro routing allowance config steps answers final hrun
    exact ⟨trace_execute hrun, execute_accountsForSites hrun, execute_exceeded hrun⟩

/-- A site that serves a call, falls behind and gives up, and a function that calls itself until it
is refused and catches the fault. -/
def accountedSteps : List Step :=
  [.register "f" { body := .depth } "main", .register "g" { body := .depth } "main",
    .register "visits" { body := .sequence [.callAt "site" "f" [], .callAt "site" "f" [],
      .register "f" .argumentCount none, .callAt "site" "f" [], .callAt "site" "g" []] } "main",
    .register "deep" { body := .attempt (.call "deep" []) .depth } "main",
    .call (.named "visits") [] "main", .call (.named "deep") [] "main"]

theorem trace_accounts_for_dispatch_accountedSteps :
    let config : Config := { cacheLimit := 1, depthLimit := some 2 }
    ∃ answers final, execute .cached 4 config accountedSteps = .ok (answers, final) ∧
      final.world.trace.countP TraceRecord.isFastPathHit = 1 ∧
      final.world.trace.countP TraceRecord.isMegamorphicSite = 1 ∧
      .generationMismatch "f" 0 1 ∈ final.world.trace ∧
      (callFaults .cached 4 accountedSteps { config }).filterMap Fault.exceeded? = [2] ∧
      final.world.AccountsForSites ∧
        (answers.flatMap Prod.snd).filterMap TraceRecord.exceeded? = [2] := by
  intro config
  have hends : (execute .cached 4 config accountedSteps).toOption.any (fun result ↦
      result.2.world.trace.countP TraceRecord.isFastPathHit = 1 ∧
        result.2.world.trace.countP TraceRecord.isMegamorphicSite = 1 ∧
        .generationMismatch "f" 0 1 ∈ result.2.world.trace) = true := by
    decide +kernel
  have hfaults : (callFaults .cached 4 accountedSteps { config }).filterMap Fault.exceeded? =
      [2] := by
    decide +kernel
  cases hrun : execute .cached 4 config accountedSteps with
  | error malformed =>
    rw [hrun] at hends
    cases hends
  | ok result =>
    rw [hrun] at hends
    obtain ⟨hfast, hmegamorphic, hmismatch⟩ := of_decide_eq_true hends
    obtain ⟨-, haccounts, hexceeded⟩ :=
      trace_accounts_for_dispatch.2.2 .cached 4 config accountedSteps _ _ hrun
    exact ⟨result.1, result.2, rfl, hfast, hmegamorphic, hmismatch, hfaults, haccounts,
      hexceeded.trans hfaults⟩

end GuestCore
