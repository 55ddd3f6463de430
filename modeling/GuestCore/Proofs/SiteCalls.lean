import GuestCore.Proofs.Events
import Mathlib.Data.List.Induction
import Mathlib.Tactic.SplitIfs

/-!
# The Calls at a Site

The state of a call site is a function of the calls that began at it, and of what the called
functions were at that time.  As long as no more functions were found defined than the limit
allows, the site remembers exactly these, in the order in which they were first called; after that
it remembers nothing for good.
-/

namespace GuestCore

/-- A call through a site as it begins: the function, its state then, and how many functions a
site may remember. -/
structure SiteCall where
  function : FunctionId
  callee : FunctionState
  cacheLimit : Nat

def World.siteCall (world : World) (dispatcher : DispatcherId) (function : FunctionId) :
    SiteCall where
  function := function
  callee := world.functionState function
  cacheLimit := (world.configOf dispatcher).cacheLimit

/-- The functions that were defined when they were called, in the order of their first such
calls. -/
def definedCallees (calls : List SiteCall) : List FunctionId :=
  ((calls.filter fun call ↦ call.callee.isDefined).map SiteCall.function).eraseDups

/-- The generation that a function had when it was last called and was defined. -/
def lastGeneration? (calls : List SiteCall) (function : FunctionId) : Option Nat :=
  (calls.filter fun call ↦ call.function = function && call.callee.isDefined).getLast?.map
    fun call ↦ call.callee.generation

namespace Site

/-- The site after the beginning of a call that it cannot serve. -/
def noteSlow (site : Site) (call : SiteCall) : Site :=
  match call.callee.definition with
  | none => site.countSlow
  | some definition =>
    (site.countSlow.learn call.cacheLimit call.callee.name
      { function := call.function, definition, generation := call.callee.generation }).1

/-- The site after the beginning of a call. -/
def note (site : Site) (call : SiteCall) : Site :=
  match site.consult call.function call.callee.published with
  | .current _ => site.countFast
  | .stale _ | .unknown => site.noteSlow call

end Site

/-! ## Calls in a list of events -/

namespace World

theorem site_noteSlowCall (world : World) (dispatcher : DispatcherId) (name other : String)
    (function : FunctionId) :
    (world.noteSlowCall dispatcher name function).site other =
      if other = name then (world.site name).noteSlow (world.siteCall dispatcher function)
      else world.site other := by
  cases hdefinition : (world.functionState function).definition with
  | none =>
    simp only [noteSlowCall, Site.noteSlow, siteCall, hdefinition]
    exact site_setSite world name other _
  | some definition =>
    simp only [noteSlowCall, Site.noteSlow, siteCall, hdefinition]
    rw [site_eq_of_sites_eq (sites_foldl_log _ _), site_setSite]

/-- The bookkeeping of a call reaches one site. -/
theorem site_noteCall (world : World) (dispatcher : DispatcherId) (name other : String)
    (function : FunctionId) :
    (world.noteCall dispatcher name function).site other =
      if other = name then (world.site name).note (world.siteCall dispatcher function)
      else world.site other := by
  have hslow (before : World) := before.site_noteSlowCall dispatcher name other function
  cases hrecall : (world.site name).consult function (world.functionState function).published with
  | current definition =>
    simp only [noteCall, Site.note, siteCall, hrecall]
    exact site_setSite _ name other _
  | stale cached =>
    simp only [noteCall, Site.note, siteCall, hrecall]
    exact hslow (world.log _)
  | unknown =>
    simp only [noteCall, Site.note, siteCall, hrecall]
    exact hslow world

end World

namespace Event

/-- The call that begins at a site with an event in a world. -/
def siteCall? (name : String) (world : World) : Event → Option SiteCall
  | .effect (.noteCall dispatcher site function) =>
    if site = name then some (world.siteCall dispatcher function) else none
  | _ => none

/-- The calls at a site, in the order in which they begin. -/
def siteCalls (name : String) : World → List Event → List SiteCall
  | _, [] => []
  | world, event :: rest =>
    (event.siteCall? name world).toList ++ siteCalls name (event.apply world) rest

theorem siteCalls_append (name : String) (first second : List Event) (world : World) :
    siteCalls name world (first ++ second) =
      siteCalls name world first ++ siteCalls name (replay first world) second := by
  induction first generalizing world with
  | nil => rfl
  | cons event rest ih =>
    simp only [List.cons_append, siteCalls, ih, List.append_assoc, replay_cons]

/-- Nothing but a call that begins at the site changes it. -/
theorem site_apply (name : String) (world : World) (event : Event) :
    (event.apply world).site name =
      (event.siteCall? name world).toList.foldl Site.note (world.site name) := by
  cases event with
  | enter | leave => rfl
  | effect effect =>
    cases effect with
    | noteCall dispatcher site function =>
      refine (world.site_noteCall dispatcher site name function).trans ?_
      by_cases hsite : site = name
      · simp [siteCall?, hsite]
      · simp [siteCall?, hsite, Ne.symm hsite]
    | _ => exact World.site_eq_of_sites_eq (Effect.sites_apply _ world) name

/-- The state of a site is found from its calls. -/
theorem site_replay (name : String) (events : List Event) (world : World) :
    (replay events world).site name =
      (siteCalls name world events).foldl Site.note (world.site name) := by
  induction events generalizing world with
  | nil => rfl
  | cons event rest ih => rw [replay_cons, ih, siteCalls, List.foldl_append, ← site_apply]

end Event

/-! ## Callees -/

theorem definedCallees_append (calls : List SiteCall) (call : SiteCall) :
    definedCallees (calls ++ [call]) =
      definedCallees calls ++
        if call.callee.isDefined = true ∧ call.function ∉ definedCallees calls then
          [call.function]
        else [] := by
  unfold definedCallees
  rw [List.filter_append, List.map_append, List.eraseDups_append]
  generalize (calls.filter fun call ↦ call.callee.isDefined).map SiteCall.function = functions
  by_cases hdefined : call.callee.isDefined = true
  · by_cases hmem : call.function ∈ functions
    · simp [hdefined, hmem, List.cons_removeAll, List.mem_eraseDups]
    · simp [hdefined, hmem, List.cons_removeAll, List.mem_eraseDups, List.eraseDups_cons]
  · simp [hdefined]

theorem nodup_definedCallees (calls : List SiteCall) : (definedCallees calls).Nodup := by
  induction calls using List.reverseRecOn with
  | nil => exact List.nodup_nil
  | append_singleton calls call ih =>
    rw [definedCallees_append]
    split
    · next hnew => exact List.nodup_append.mpr ⟨ih, by simp, by grind⟩
    · rwa [List.append_nil]

theorem mem_definedCallees {calls : List SiteCall} {function : FunctionId} :
    function ∈ definedCallees calls ↔
      ∃ call ∈ calls, call.callee.isDefined = true ∧ call.function = function := by
  simp [definedCallees, List.mem_eraseDups, and_assoc]

theorem isSome_lastGeneration? {calls : List SiteCall} {function : FunctionId} :
    (lastGeneration? calls function).isSome = true ↔ function ∈ definedCallees calls := by
  rw [mem_definedCallees]
  simp [lastGeneration?, and_comm]

theorem lastGeneration?_append (calls : List SiteCall) (call : SiteCall) (function : FunctionId) :
    lastGeneration? (calls ++ [call]) function =
      if call.function = function ∧ call.callee.isDefined = true then
        some call.callee.generation
      else lastGeneration? calls function := by
  unfold lastGeneration?
  rw [List.filter_append]
  by_cases hcall : call.function = function ∧ call.callee.isDefined = true
  · simp [hcall]
  · have hskipped : ([call].filter fun call ↦
        call.function = function && call.callee.isDefined) = [] := by
      simpa using hcall
    rw [hskipped, List.append_nil, if_neg hcall]

theorem lastGeneration?_of_last {calls more : List SiteCall} {call : SiteCall}
    (hdefined : call.callee.isDefined = true)
    (hlast : ∀ other ∈ more, other.function ≠ call.function) :
    lastGeneration? (calls ++ call :: more) call.function = some call.callee.generation := by
  have hmore : (more.filter fun other ↦
      other.function = call.function && other.callee.isDefined) = [] := by
    rw [List.filter_eq_nil_iff]
    intro other hother
    simp [hlast other hother]
  simp [lastGeneration?, List.filter_append, hdefined, hmore]

/-! ## The state of a site -/

/-- The site is in the state that follows from its calls, all made under one limit. -/
structure Site.Reflects (site : Site) (limit : Nat) (calls : List SiteCall) : Prop where
  megamorphic : site.megamorphic = true ↔ limit < (definedCallees calls).length
  functions : site.megamorphic = false →
    site.targets.map SiteTarget.function = definedCallees calls
  forgotten : site.megamorphic = true → site.targets = []
  counted : site.fastHits + site.slowCalls = calls.length
  generation : ∀ target ∈ site.targets,
    lastGeneration? calls target.function = some target.generation

namespace Site

variable {site : Site} {limit : Nat} {calls : List SiteCall} {call : SiteCall}

theorem mem_targets_iff_isSome_target? (site : Site) (function : FunctionId) :
    function ∈ site.targets.map SiteTarget.function ↔ (site.target? function).isSome = true := by
  simp [target?]

theorem functions_replaceTarget (targets : List SiteTarget) (target : SiteTarget) :
    (replaceTarget targets target).map SiteTarget.function =
      targets.map SiteTarget.function := by
  rw [replaceTarget, List.map_map]
  apply List.map_congr_left
  intro known _
  simp only [Function.comp_apply]
  split
  · next hsame => exact hsame.symm
  · rfl

namespace Reflects

/-- A site serves a call exactly if it still remembers, and the function is at the generation at
which it was last called. -/
theorem consult_eq_current_iff (hsite : site.Reflects limit calls) (function : FunctionId)
    (generation : Nat) :
    (∃ definition, site.consult function generation = .current definition) ↔
      site.megamorphic = false ∧ lastGeneration? calls function = some generation := by
  constructor
  · rintro ⟨definition, hcurrent⟩
    obtain ⟨target, htarget, rfl, rfl, rfl⟩ := exists_target_of_consult hcurrent
    refine ⟨?_, hsite.generation target htarget⟩
    cases hmegamorphic : site.megamorphic with
    | true =>
      rw [hsite.forgotten hmegamorphic] at htarget
      cases htarget
    | false => rfl
  · rintro ⟨hmegamorphic, hlast⟩
    have hknown : function ∈ site.targets.map SiteTarget.function := by
      rw [hsite.functions hmegamorphic, ← isSome_lastGeneration?, hlast]
      rfl
    obtain ⟨target, htarget⟩ :=
      Option.isSome_iff_exists.mp ((site.mem_targets_iff_isSome_target? function).mp hknown)
    have hfunction : target.function = function := by
      simpa using List.find?_some htarget
    have hgeneration := hsite.generation target (List.mem_of_find?_eq_some htarget)
    rw [hfunction, hlast] at hgeneration
    refine ⟨target.definition, ?_⟩
    simp [consult, hmegamorphic, htarget, Option.some.inj hgeneration]

/-- The call was counted, of a function that adds nothing to what the site knows. -/
theorem counted_call (hsite : site.Reflects limit calls) {after : Site}
    (hcallees : definedCallees (calls ++ [call]) = definedCallees calls)
    (htargets : after.targets = site.targets) (hmegamorphic : after.megamorphic = site.megamorphic)
    (hcount : after.fastHits + after.slowCalls = site.fastHits + site.slowCalls + 1)
    (hlast : ∀ target ∈ site.targets, call.function = target.function →
      call.callee.isDefined = true → call.callee.generation = target.generation) :
    after.Reflects limit (calls ++ [call]) where
  megamorphic := by rw [hcallees, hmegamorphic, hsite.megamorphic]
  functions := by
    rw [hcallees, hmegamorphic, htargets]
    exact hsite.functions
  forgotten := by
    rw [hmegamorphic, htargets]
    exact hsite.forgotten
  counted := by rw [hcount, hsite.counted, List.length_append, List.length_singleton]
  generation := by
    intro target htarget
    rw [htargets] at htarget
    rw [lastGeneration?_append]
    split
    · next hcall => rw [hlast target htarget hcall.1 hcall.2]
    · exact hsite.generation target htarget

/-- A call that is served from the site is of a function that the site knows. -/
theorem countFast (hsite : site.Reflects limit calls)
    (hpublished : call.callee.published = call.callee.generation)
    (hlast : lastGeneration? calls call.function = some call.callee.published) :
    site.countFast.Reflects limit (calls ++ [call]) := by
  have hknown : call.function ∈ definedCallees calls := by
    rw [← isSome_lastGeneration?, hlast]
    rfl
  refine hsite.counted_call ?_ rfl rfl (Nat.add_right_comm ..) ?_
  · rw [definedCallees_append, if_neg fun hnew ↦ hnew.2 hknown, List.append_nil]
  · intro target htarget hfunction _
    have hgeneration := hsite.generation target htarget
    rw [← hfunction, hlast, hpublished] at hgeneration
    exact Option.some.inj hgeneration

theorem countSlow_of_undefined (hsite : site.Reflects limit calls)
    (hundefined : call.callee.isDefined = false) :
    site.countSlow.Reflects limit (calls ++ [call]) := by
  refine hsite.counted_call ?_ rfl rfl rfl ?_
  · simp [definedCallees_append, hundefined]
  · intro _ _ _ hdefined
    rw [hundefined] at hdefined
    cases hdefined

/-- A site that has given up learns nothing. -/
theorem countSlow_of_megamorphic (hsite : site.Reflects limit calls)
    (hmegamorphic : site.megamorphic = true) :
    site.countSlow.Reflects limit (calls ++ [call]) where
  megamorphic := by
    have hmore := hsite.megamorphic.mp hmegamorphic
    refine iff_of_true hmegamorphic ?_
    rw [definedCallees_append, List.length_append]
    omega
  functions hstill := absurd (hmegamorphic.symm.trans hstill) nofun
  forgotten := hsite.forgotten
  counted := by
    have hcounted := hsite.counted
    simp only [Site.countSlow, List.length_append, List.length_singleton]
    omega
  generation := by
    intro target htarget
    change target ∈ site.targets at htarget
    rw [hsite.forgotten hmegamorphic] at htarget
    cases htarget

/-- A function that the site knows is remembered at its new generation. -/
theorem replaceTarget (hsite : site.Reflects limit calls) {target : SiteTarget}
    (hmegamorphic : site.megamorphic = false) (hfunction : target.function = call.function)
    (hgeneration : target.generation = call.callee.generation)
    (hdefined : call.callee.isDefined = true)
    (hknown : call.function ∈ definedCallees calls) :
    Reflects { site.countSlow with targets := Site.replaceTarget site.targets target } limit
      (calls ++ [call]) := by
  have hcallees : definedCallees (calls ++ [call]) = definedCallees calls := by
    rw [definedCallees_append, if_neg fun hnew ↦ hnew.2 hknown, List.append_nil]
  refine ⟨?_, fun _ ↦ ?_, fun hgaveUp ↦ ?_, ?_, ?_⟩
  · rw [hcallees]
    exact hsite.megamorphic
  · rw [hcallees, functions_replaceTarget]
    exact hsite.functions hmegamorphic
  · cases hmegamorphic.symm.trans hgaveUp
  · have hcounted := hsite.counted
    simp only [Site.countSlow, List.length_append, List.length_singleton]
    omega
  · intro known hmem
    obtain ⟨old, hold, rfl⟩ := List.mem_map.mp hmem
    rw [lastGeneration?_append]
    split
    · rw [if_pos ⟨hfunction.symm, hdefined⟩, hgeneration]
    · next hother =>
      rw [if_neg fun hcall ↦ hother (hcall.1.symm.trans hfunction.symm)]
      exact hsite.generation old hold

/-- A function too many makes the site give up. -/
theorem giveUp (hsite : site.Reflects limit calls) (hmegamorphic : site.megamorphic = false)
    (hdefined : call.callee.isDefined = true) (hnew : call.function ∉ definedCallees calls)
    (hfull : limit ≤ site.targets.length) :
    Reflects { site.countSlow with targets := [], megamorphic := true } limit
      (calls ++ [call]) where
  megamorphic := by
    have hlength : site.targets.length = (definedCallees calls).length := by
      rw [← hsite.functions hmegamorphic, List.length_map]
    refine iff_of_true rfl ?_
    rw [definedCallees_append, if_pos ⟨hdefined, hnew⟩, List.length_append, List.length_singleton]
    omega
  functions := nofun
  forgotten _ := rfl
  counted := by
    have hcounted := hsite.counted
    simp only [Site.countSlow, List.length_append, List.length_singleton]
    omega
  generation := nofun

/-- A new function is remembered while there is room. -/
theorem newTarget (hsite : site.Reflects limit calls) {target : SiteTarget}
    (hmegamorphic : site.megamorphic = false) (hfunction : target.function = call.function)
    (hgeneration : target.generation = call.callee.generation)
    (hdefined : call.callee.isDefined = true)
    (hnew : call.function ∉ definedCallees calls) (hroom : ¬ limit ≤ site.targets.length) :
    Reflects { site.countSlow with targets := site.targets ++ [target] } limit
      (calls ++ [call]) := by
  have hcallees : definedCallees (calls ++ [call]) =
      definedCallees calls ++ [call.function] := by
    rw [definedCallees_append, if_pos ⟨hdefined, hnew⟩]
  have hfunctions := hsite.functions hmegamorphic
  have hlength : site.targets.length = (definedCallees calls).length := by
    rw [← hfunctions, List.length_map]
  refine ⟨?_, fun _ ↦ ?_, fun hgaveUp ↦ ?_, ?_, ?_⟩
  · refine iff_of_false (fun hgaveUp ↦ absurd (hmegamorphic.symm.trans hgaveUp) nofun) ?_
    rw [hcallees, List.length_append, List.length_singleton]
    omega
  · rw [hcallees, List.map_append, hfunctions, List.map_singleton, hfunction]
  · cases hmegamorphic.symm.trans hgaveUp
  · have hcounted := hsite.counted
    simp only [Site.countSlow, List.length_append, List.length_singleton]
    omega
  · intro known hmem
    rw [lastGeneration?_append]
    rcases List.mem_append.mp hmem with hold | hlast
    · have hother : call.function ≠ known.function := by
        intro hsame
        apply hnew
        rw [hsame, ← hfunctions]
        exact List.mem_map_of_mem hold
      rw [if_neg fun hcall ↦ hother hcall.1]
      exact hsite.generation known hold
    · obtain rfl := List.mem_singleton.mp hlast
      rw [if_pos ⟨hfunction.symm, hdefined⟩, hgeneration]

theorem noteSlow (hsite : site.Reflects limit calls) (hlimit : call.cacheLimit = limit) :
    (site.noteSlow call).Reflects limit (calls ++ [call]) := by
  unfold Site.noteSlow
  cases hdefinition : call.callee.definition with
  | none => exact hsite.countSlow_of_undefined (by rw [FunctionState.isDefined, hdefinition]; rfl)
  | some definition =>
    have hdefined : call.callee.isDefined = true := by
      rw [FunctionState.isDefined, hdefinition]
      rfl
    dsimp only
    rw [hlimit]
    cases hmegamorphic : site.megamorphic with
    | true =>
      have hgaveUp : site.countSlow.megamorphic = true := hmegamorphic
      simp only [learn, hgaveUp, if_true]
      exact hsite.countSlow_of_megamorphic hmegamorphic
    | false =>
      have hremembers : ¬ site.countSlow.megamorphic = true := by
        simp [Site.countSlow, hmegamorphic]
      have hknows : (site.countSlow.target? call.function).isSome = true ↔
          call.function ∈ definedCallees calls := by
        rw [← hsite.functions hmegamorphic, mem_targets_iff_isSome_target?]
        rfl
      by_cases hknown : call.function ∈ definedCallees calls
      · simp only [learn, if_neg hremembers, if_pos (hknows.mpr hknown)]
        exact hsite.replaceTarget hmegamorphic rfl rfl hdefined hknown
      · simp only [learn, if_neg hremembers, if_neg (mt hknows.mp hknown)]
        split
        · next hfull => exact hsite.giveUp hmegamorphic hdefined hknown hfull
        · next hroom => exact hsite.newTarget hmegamorphic rfl rfl hdefined hknown hroom

/-- One more call. -/
theorem note (hsite : site.Reflects limit calls) (hlimit : call.cacheLimit = limit)
    (hpublished : call.callee.published = call.callee.generation) :
    (site.note call).Reflects limit (calls ++ [call]) := by
  have hserved := hsite.consult_eq_current_iff call.function call.callee.published
  unfold Site.note
  cases hrecall : site.consult call.function call.callee.published with
  | current definition => exact hsite.countFast hpublished (hserved.mp ⟨definition, hrecall⟩).2
  | stale | unknown => exact hsite.noteSlow hlimit

/-- All calls. -/
theorem foldl_note {more : List SiteCall} (hsite : site.Reflects limit calls)
    (hlimit : ∀ call ∈ more, call.cacheLimit = limit)
    (hpublished : ∀ call ∈ more, call.callee.published = call.callee.generation) :
    (more.foldl Site.note site).Reflects limit (calls ++ more) := by
  induction more generalizing site calls with
  | nil => rwa [List.append_nil]
  | cons call rest ih =>
    rw [List.append_cons, List.foldl_cons]
    refine ih ?_ ?_ ?_
    · exact hsite.note (hlimit call List.mem_cons_self) (hpublished call List.mem_cons_self)
    · exact fun other hother ↦ hlimit other (List.mem_cons_of_mem _ hother)
    · exact fun other hother ↦ hpublished other (List.mem_cons_of_mem _ hother)

end Reflects

end Site

namespace Site

variable {site : Site} {call : SiteCall}

/-- Every call is counted once, as served or as not served. -/
theorem note_of_served (hserved : ∃ definition,
    site.consult call.function call.callee.published = .current definition) :
    site.note call = site.countFast := by
  obtain ⟨definition, hcurrent⟩ := hserved
  simp only [note, hcurrent]

theorem note_of_not_served (hserved : ¬ ∃ definition,
    site.consult call.function call.callee.published = .current definition) :
    site.note call = site.noteSlow call := by
  unfold note
  split
  · next definition hcurrent => exact absurd ⟨definition, hcurrent⟩ hserved
  · rfl
  · rfl

theorem counters_noteSlow (site : Site) (call : SiteCall) :
    (site.noteSlow call).fastHits = site.fastHits ∧
      (site.noteSlow call).slowCalls = site.slowCalls + 1 := by
  unfold noteSlow learn
  split
  · exact ⟨rfl, rfl⟩
  · split_ifs <;> exact ⟨rfl, rfl⟩

theorem megamorphic_note (hmegamorphic : site.megamorphic = true) (call : SiteCall) :
    (site.note call).megamorphic = true := by
  have hunknown : site.consult call.function call.callee.published = .unknown := by
    simp [consult, hmegamorphic]
  simp only [note, hunknown, noteSlow]
  split
  · exact hmegamorphic
  · simp [learn, countSlow, hmegamorphic]

theorem megamorphic_foldl_note (hmegamorphic : site.megamorphic = true) (calls : List SiteCall) :
    (calls.foldl note site).megamorphic = true := by
  induction calls generalizing site with
  | nil => exact hmegamorphic
  | cons call rest ih => exact ih (megamorphic_note hmegamorphic call)

end Site

end GuestCore
