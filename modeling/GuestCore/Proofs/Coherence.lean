import GuestCore.Proofs.Moment

/-!
# Coherent Call Sites

A call site that remembers a function remembers what the function was at the remembered
generation, and no function is ever behind what a site remembers of it.  This holds at every
moment, and so the remembered definition of a function that is still at the remembered generation
is its current one: a call through a site is the bookkeeping of the site followed by a plain call.
-/

namespace GuestCore

/-- What a site remembers of a function agrees with the function. -/
structure SiteTarget.Agrees (target : SiteTarget) (world : World) : Prop where
  exists_function : world.HasFunction target.function
  defined : (world.functionState target.function).isDefined = true
  generation_le : target.generation ≤ (world.functionState target.function).generation
  definition_eq : target.generation = (world.functionState target.function).generation →
    (world.functionState target.function).definition = some target.definition

/-- All sites agree with the functions, whose published generations are up to date. -/
structure World.Coherent (world : World) : Prop where
  published_eq : ∀ function,
    (world.functionState function).published = (world.functionState function).generation
  agrees : ∀ siteName, ∀ target ∈ (world.site siteName).targets, target.Agrees world

/-! ## Sites -/

namespace Site

@[simp]
theorem targets_countFast (site : Site) : site.countFast.targets = site.targets := rfl

@[simp]
theorem targets_countSlow (site : Site) : site.countSlow.targets = site.targets := rfl

/-- A definition that a site takes for current is one that it remembers. -/
theorem exists_target_of_consult {site : Site} {function : FunctionId} {generation : Nat}
    {definition : Definition} (hrecall : site.consult function generation = .current definition) :
    ∃ target ∈ site.targets, target.function = function ∧ target.generation = generation ∧
      target.definition = definition := by
  unfold consult at hrecall
  split at hrecall
  · cases hrecall
  · split at hrecall
    · cases hrecall
    · next target htarget =>
      have hmem : target ∈ site.targets := List.mem_of_find?_eq_some htarget
      have hfunction : target.function = function := by
        simpa using List.find?_some htarget
      split at hrecall
      · next hgeneration =>
        cases hrecall
        exact ⟨target, hmem, hfunction, hgeneration, rfl⟩
      · cases hrecall

/-- A site that learns of a call remembers nothing but the call and what it knew before. -/
theorem mem_targets_learn {site : Site} {limit : Nat} {name : String} {target known : SiteTarget}
    (hknown : known ∈ (site.learn limit name target).1.targets) :
    known = target ∨ known ∈ site.targets := by
  unfold learn at hknown
  split at hknown
  · exact .inr hknown
  · split at hknown
    · simp only [replaceTarget, List.mem_map] at hknown
      obtain ⟨old, hold, rfl⟩ := hknown
      split
      · exact .inl rfl
      · exact .inr hold
    · split at hknown
      · cases hknown
      · rcases List.mem_append.mp hknown with hold | hnew
        · exact .inr hold
        · exact .inl (List.mem_singleton.mp hnew)

end Site

namespace World

theorem site_setSite (world : World) (name other : String) (site : Site) :
    (world.setSite name site).site other = if other = name then site else world.site other := by
  simp only [World.site, setSite, Members.get?_insert]
  split <;> rfl

@[simp]
theorem sites_foldl_log (world : World) (records : List TraceRecord) :
    (records.foldl World.log world).sites = world.sites := by
  induction records generalizing world with
  | nil => rfl
  | cons record records ih =>
    rw [List.foldl_cons, ih]
    rfl

theorem site_eq_of_sites_eq {left right : World} (hsites : left.sites = right.sites)
    (name : String) : left.site name = right.site name := by
  rw [World.site, World.site, hsites]

theorem mem_targets_noteSlowCall {world : World} {dispatcher : DispatcherId}
    {siteName other : String} {function : FunctionId} {target : SiteTarget}
    (htarget : target ∈ ((world.noteSlowCall dispatcher siteName function).site other).targets) :
    target ∈ (world.site other).targets ∨
      target.function = function ∧
        (world.functionState function).definition = some target.definition ∧
          (world.functionState function).generation = target.generation := by
  cases hdefinition : (world.functionState function).definition with
  | none =>
    simp only [noteSlowCall, hdefinition, site_setSite] at htarget
    split at htarget
    · next hname => exact .inl (hname ▸ htarget)
    · exact .inl htarget
  | some definition =>
    simp only [noteSlowCall, hdefinition] at htarget
    rw [site_eq_of_sites_eq (sites_foldl_log _ _), site_setSite] at htarget
    split at htarget
    · next hname =>
      rcases Site.mem_targets_learn htarget with rfl | hold
      · exact .inr ⟨rfl, rfl, rfl⟩
      · exact .inl (hname ▸ hold)
    · exact .inl htarget

/-- After the bookkeeping of a call through a site, sites remember nothing but what they knew
before and the present state of the called function. -/
theorem mem_targets_noteCall {world : World} {dispatcher : DispatcherId} {siteName other : String}
    {function : FunctionId} {target : SiteTarget}
    (htarget : target ∈ ((world.noteCall dispatcher siteName function).site other).targets) :
    target ∈ (world.site other).targets ∨
      target.function = function ∧
        (world.functionState function).definition = some target.definition ∧
          (world.functionState function).generation = target.generation := by
  unfold noteCall at htarget
  dsimp only at htarget
  split at htarget
  · rw [site_setSite] at htarget
    split at htarget
    · next hname => exact .inl (hname ▸ htarget)
    · exact .inl htarget
  · have hslow := mem_targets_noteSlowCall htarget
    exact hslow
  · exact mem_targets_noteSlowCall htarget

end World

/-! ## Coherence at every moment -/

namespace SiteTarget

variable {target : SiteTarget} {world after : World}

theorem Agrees.of_functionState_eq (hagrees : target.Agrees world)
    (hsize : world.functions.size ≤ after.functions.size)
    (hstate : after.functionState target.function = world.functionState target.function) :
    target.Agrees after := by
  refine ⟨Nat.lt_of_lt_of_le hagrees.exists_function hsize, ?_, ?_, ?_⟩
  · rw [hstate]
    exact hagrees.defined
  · rw [hstate]
    exact hagrees.generation_le
  · rw [hstate]
    exact hagrees.definition_eq

/-- A redefined function moves past every generation that a site remembers of it. -/
theorem Agrees.redefine (hagrees : target.Agrees world) {function : FunctionId}
    {definition : Definition}
    (hfunctions : after.functions = world.functions.modify function.index fun state ↦
      state.redefine definition) : target.Agrees after := by
  have hstate := World.functionState_of_redefine hfunctions target.function
  have hsize : world.functions.size ≤ after.functions.size :=
    Nat.le_of_eq (by rw [hfunctions, Table.size_modify])
  by_cases hsame : target.function = function ∧ world.HasFunction function
  · rw [if_pos hsame, ← hsame.1] at hstate
    have hlt := Nat.lt_succ_of_le hagrees.generation_le
    refine ⟨Nat.lt_of_lt_of_le hagrees.exists_function hsize, ?_, ?_, ?_⟩
    · rw [hstate]
      rfl
    · rw [hstate]
      exact Nat.le_of_lt hlt
    · rw [hstate]
      intro hgeneration
      exact absurd hgeneration (Nat.ne_of_lt hlt)
  · rw [if_neg hsame] at hstate
    exact hagrees.of_functionState_eq hsize hstate

end SiteTarget

namespace World

variable {world after : World}

theorem Coherent.congr (hcoherent : world.Coherent) (hfunctions : after.functions = world.functions)
    (hsites : after.sites = world.sites) : after.Coherent where
  published_eq function := by
    rw [functionState, hfunctions]
    exact hcoherent.published_eq function
  agrees siteName target htarget := by
    rw [site_eq_of_sites_eq hsites] at htarget
    refine (hcoherent.agrees siteName target htarget).of_functionState_eq ?_ ?_
    · exact Nat.le_of_eq (by rw [hfunctions])
    · rw [functionState, hfunctions, functionState]

theorem Coherent.noteCall (hcoherent : world.Coherent) (dispatcher : DispatcherId)
    (siteName : String) (function : FunctionId) :
    (world.noteCall dispatcher siteName function).Coherent := by
  have hfunctions := functions_eq_of_visible_eq
    (world.visible_noteCall dispatcher siteName function)
  have hstate (other : FunctionId) :
      (world.noteCall dispatcher siteName function).functionState other =
        world.functionState other := by
    rw [functionState, hfunctions, functionState]
  refine ⟨fun other ↦ ?_, fun other target htarget ↦ ?_⟩
  · rw [hstate]
    exact hcoherent.published_eq other
  · have hsize : world.functions.size ≤
        (world.noteCall dispatcher siteName function).functions.size :=
      Nat.le_of_eq (by rw [hfunctions])
    rcases mem_targets_noteCall htarget with hold | ⟨rfl, hdefinition, hgeneration⟩
    · exact (hcoherent.agrees other target hold).of_functionState_eq hsize (hstate _)
    · have hagrees : target.Agrees world := by
        refine ⟨hasFunction_of_definition hdefinition, ?_, Nat.le_of_eq hgeneration.symm,
          fun _ ↦ hdefinition⟩
        rw [FunctionState.isDefined, hdefinition]
        rfl
      exact hagrees.of_functionState_eq hsize (hstate _)

/-- Effects other than the bookkeeping of calls keep sites coherent, whatever they do to
functions. -/
theorem Coherent.functionChange (hcoherent : world.Coherent) {effect : Effect}
    (hsites : after.sites = world.sites) (hchange : effect.FunctionChange world after) :
    after.Coherent := by
  cases hchange with
  | unchanged hfunctions => exact hcoherent.congr hfunctions hsites
  | created registry name definition _ hfunctions =>
    refine ⟨fun function ↦ ?_, fun siteName target htarget ↦ ?_⟩
    · rw [functionState_of_push hfunctions]
      split
      · rfl
      · exact hcoherent.published_eq function
    · rw [site_eq_of_sites_eq hsites] at htarget
      have hagrees := hcoherent.agrees siteName target htarget
      refine hagrees.of_functionState_eq ?_ ?_
      · rw [hfunctions, Table.size_push]
        exact Nat.le_succ _
      · rw [functionState_of_push hfunctions, if_neg (Nat.ne_of_lt hagrees.exists_function)]
  | redefined registry name function definition _ hfunctions =>
    refine ⟨fun other ↦ ?_, fun siteName target htarget ↦ ?_⟩
    · rw [functionState_of_redefine hfunctions]
      split
      · rfl
      · exact hcoherent.published_eq other
    · rw [site_eq_of_sites_eq hsites] at htarget
      exact (hcoherent.agrees siteName target htarget).redefine hfunctions

theorem Coherent.effect (hcoherent : world.Coherent) {effect : Effect}
    (hallowed : effect.Allowed world) : (effect.apply world).Coherent := by
  rcases effect.eq_noteCall_or_sites_eq world with ⟨dispatcher, site, function, rfl⟩ | hsites
  · exact hcoherent.noteCall dispatcher site function
  · exact hcoherent.functionChange hsites (effect.functionChange hallowed)

/-- A call that the site cannot serve is bookkeeping followed by a plain call. -/
theorem callSlowly_eq_call (world : World) (run : Runner) (dispatcher : DispatcherId)
    (siteName : String) (function : FunctionId) (arguments : List Value) :
    Dispatch.callSlowly run dispatcher siteName function arguments world =
      Dispatch.call run dispatcher function arguments
        (world.noteSlowCall dispatcher siteName function) := by
  have hstate : (world.noteSlowCall dispatcher siteName function).functionState function =
      world.functionState function :=
    eq_of_visible_eq (fun world ↦ world.functionState function) (fun _ ↦ rfl)
      (world.visible_noteSlowCall dispatcher siteName function)
  rw [Dispatch.call, hstate, Dispatch.callSlowly]
  cases hdefinition : (world.functionState function).definition with
  | none => simp only [noteSlowCall, hdefinition]
  | some definition => simp only [noteSlowCall, hdefinition]

/-- With coherent sites, a call through a site is bookkeeping followed by a plain call: the
definition that the site remembers is the one that the plain call finds. -/
theorem Coherent.callThroughCache_eq_call (hcoherent : world.Coherent) (run : Runner)
    (dispatcher : DispatcherId) (siteName : String) (function : FunctionId)
    (arguments : List Value) :
    Dispatch.callThroughCache run dispatcher siteName function arguments world =
      Dispatch.call run dispatcher function arguments
        (world.noteCall dispatcher siteName function) := by
  cases hrecall : (world.site siteName).consult function
      (world.functionState function).published with
  | current definition =>
    obtain ⟨target, htarget, rfl, hgeneration, rfl⟩ := Site.exists_target_of_consult hrecall
    have hagrees := hcoherent.agrees siteName target htarget
    have hdefinition : (world.functionState target.function).definition =
        some target.definition :=
      hagrees.definition_eq (hgeneration.trans (hcoherent.published_eq target.function))
    have hnote : world.noteCall dispatcher siteName target.function =
        (world.log (.fastPathHit (world.functionState target.function).name)).setSite siteName
          (world.site siteName).countFast := by
      simp only [World.noteCall, hrecall]
    have hstate : (world.noteCall dispatcher siteName target.function).functionState
        target.function = world.functionState target.function := by
      rw [hnote]
      rfl
    rw [Dispatch.call, hstate, hdefinition, hnote, Dispatch.callThroughCache]
    simp only [hrecall]
  | stale cached =>
    simp only [Dispatch.callThroughCache, World.noteCall, hrecall]
    exact callSlowly_eq_call _ run dispatcher siteName function arguments
  | unknown =>
    simp only [Dispatch.callThroughCache, World.noteCall, hrecall]
    exact callSlowly_eq_call _ run dispatcher siteName function arguments

end World

namespace Moment

/-- Sites are coherent at every moment. -/
theorem Reachable.coherent {moment : Moment} (hreachable : moment.Reachable) :
    moment.world.Coherent := by
  apply hreachable.invariant (motive := fun moment ↦ moment.world.Coherent)
  · exact ⟨fun _ ↦ rfl, fun _ _ htarget ↦ absurd htarget List.not_mem_nil⟩
  · intro before after _ hbefore step
    cases step with
    | effect effect hallowed => exact hbefore.effect hallowed
    | enter | leave => exact hbefore.congr rfl rfl

end Moment

end GuestCore
