import GuestCore.Proofs.RegistryHistory
import GuestCore.Proofs.SessionEvents
import GuestCore.Proofs.SiteCalls
import Mathlib.Data.List.Nodup

/-!
# Call Sites Remember What Was Installed

A registration installs a definition in a function, at a generation that the function has from then
on until it is registered again.  A call site remembers nothing else: each of its targets is a
definition that was installed in the function at the remembered generation, and of every function
there is one target at most.  This holds before and after every event of a run, however deeply calls
are nested then, and whichever functions were registered in the meantime.
-/

namespace GuestCore

/-! ## Registrations -/

namespace Effect

theorem eq_register_of_definition? {effect : Effect} {registry : RegistryId} {name : String}
    {definition : Definition} (hdefinition : effect.definition? registry name = some definition) :
    effect = .register registry name definition := by
  cases effect with
  | register otherRegistry otherName otherDefinition =>
    simp only [definition?] at hdefinition
    split at hdefinition
    · next hsame =>
      obtain ⟨rfl, rfl⟩ := hsame
      rw [Option.some.inj hdefinition]
    · cases hdefinition
  | _ => cases hdefinition

/-- A function that has a definition after an effect was registered by it or is as before. -/
theorem functionState_apply {effect : Effect} {world : World} (hallowed : effect.Allowed world)
    {function : FunctionId} {definition : Definition}
    (hdefinition : ((effect.apply world).functionState function).definition = some definition) :
    (effect.apply world).functionState function = world.functionState function ∨
      ∃ registry name, effect = .register registry name definition ∧
        (world.register registry name definition).1 = function := by
  cases effect.functionChange hallowed with
  | unchanged hfunctions =>
    rw [World.functionState, hfunctions]
    exact .inl rfl
  | created registry name created hnew hfunctions _ _ hrequest =>
    rw [World.functionState_of_push hfunctions] at hdefinition ⊢
    split at hdefinition
    · next hindex =>
      have hregister : effect.definition? registry name = some definition := by
        rw [hrequest, if_pos ⟨rfl, rfl⟩]
        exact hdefinition
      refine .inr ⟨registry, name, eq_register_of_definition? hregister, ?_⟩
      rw [World.register_of_none definition hnew, ← hindex]
    · next hindex => exact .inl (if_neg hindex)
  | redefined registry name redefined newDefinition hknown hfunctions _ _ hrequest =>
    rw [World.functionState_of_redefine hfunctions] at hdefinition ⊢
    split at hdefinition
    · next hsame =>
      obtain rfl : newDefinition = definition := Option.some.inj hdefinition
      have hregister : effect.definition? registry name = some newDefinition := by
        rw [hrequest, if_pos ⟨rfl, rfl⟩]
      refine .inr ⟨registry, name, eq_register_of_definition? hregister, ?_⟩
      rw [World.register_of_some newDefinition hknown, hsame.1]
    · next hother => exact .inl (if_neg hother)

end Effect

namespace Moment

variable {earlier moment later : Moment} {function : FunctionId} {definition other : Definition}
  {generation : Nat}

/-- A registration in the past of the moment gave the function the definition, and that made its
generation the given one. -/
def Installed (moment : Moment) (function : FunctionId) (definition : Definition)
    (generation : Nat) : Prop :=
  ∃ (before : Moment) (registry : RegistryId) (name : String),
    before.Reachable ∧ before.world.HasRegistry registry ∧
      (before.world.register registry name definition).1 = function ∧
      ((before.world.register registry name definition).2.functionState function).generation =
        generation ∧
      (before.after [.register registry name definition]).Leads moment

theorem Installed.leads (hinstalled : earlier.Installed function definition generation)
    (hleads : earlier.Leads later) : later.Installed function definition generation := by
  obtain ⟨before, registry, name, hbefore, hregistry, hfunction, hgeneration, hafter⟩ := hinstalled
  exact ⟨before, registry, name, hbefore, hregistry, hfunction, hgeneration, hafter.trans hleads⟩

/-- What a function is bound to was installed in it, at its generation. -/
theorem Reachable.installed (hreachable : moment.Reachable)
    (hdefinition : (moment.world.functionState function).definition = some definition) :
    moment.Installed function definition (moment.world.functionState function).generation := by
  revert function definition
  refine hreachable.invariant (motive := fun moment ↦ ∀ {function definition},
    (moment.world.functionState function).definition = some definition →
      moment.Installed function definition (moment.world.functionState function).generation)
    nofun ?_
  intro before after hbefore hinstalled step function definition hdefinition
  have hleads : before.Leads after := .single step
  cases step with
  | enter | leave => exact (hinstalled hdefinition).leads hleads
  | effect effect hallowed =>
    rcases effect.functionState_apply hallowed hdefinition with hsame | ⟨registry, name, rfl, hnew⟩
    · dsimp only at hdefinition ⊢
      rw [hsame] at hdefinition ⊢
      exact (hinstalled hdefinition).leads hleads
    · exact ⟨before, registry, name, hbefore, hallowed, hnew, rfl, .refl⟩

/-- In the journal, the definition is the registration of the function's name that the generation
counts; the first one is not counted if it brought the name into existence. -/
def Registered (moment : Moment) (function : FunctionId) (definition : Definition)
    (generation : Nat) : Prop :=
  ∃ (registry : RegistryId) (name : String) (earlier later : List Definition),
    moment.world.functionNamed? registry name = some function ∧
      Effect.registrations registry name moment.journal = earlier ++ definition :: later ∧
      generation + (Effect.bornDefined registry name moment.journal).toNat = earlier.length + 1

theorem Leads.registered (hleads : earlier.Leads later) (hearlier : earlier.Reachable)
    {registry : RegistryId} {name : String}
    (hname : earlier.world.functionNamed? registry name = some function)
    (hdefinition : (earlier.world.functionState function).definition = some definition) :
    later.Registered function definition (earlier.world.functionState function).generation := by
  have hfollows := hearlier.followsHistory registry name function hname
  obtain ⟨first, hlast⟩ :=
    List.getLast?_eq_some_iff.mp (hfollows.definition.symm.trans hdefinition)
  obtain ⟨more, hjournal⟩ := hleads.journal_prefix
  refine ⟨registry, name, first, more.filterMap (Effect.definition? registry name),
    hleads.keepsNames.function hname, ?_, ?_⟩
  · calc
      Effect.registrations registry name later.journal =
          Effect.registrations registry name earlier.journal ++
            more.filterMap (Effect.definition? registry name) := by
        rw [← hjournal, Effect.registrations, List.filterMap_append]
        rfl
      _ = first ++ definition :: more.filterMap (Effect.definition? registry name) := by
        rw [hlast, List.append_assoc, List.singleton_append]
  · rw [← hjournal, Effect.bornDefined_append_of_mentioned (hearlier.mentioned hname),
      hfollows.generation, hlast, List.length_append, List.length_singleton]

theorem Installed.registered (hinstalled : moment.Installed function definition generation) :
    moment.Registered function definition generation := by
  obtain ⟨before, registry, name, hbefore, hregistry, rfl, rfl, hleads⟩ := hinstalled
  have hafter : (before.after [.register registry name definition]).Reachable :=
    hbefore.leads (before.leads_after _ ⟨hregistry, trivial⟩)
  have hname := World.functionNamed?_register hregistry name definition
  have hdefinition := (hafter.followsHistory registry name _ hname).definition
  have hlast : Effect.registrations registry name
        (before.after [.register registry name definition]).journal =
      Effect.registrations registry name before.journal ++ [definition] := by
    refine (Effect.registrations_append before.journal _).trans ?_
    rw [Effect.definition?, if_pos ⟨rfl, rfl⟩, Option.toList_some]
  rw [hlast, List.getLast?_concat] at hdefinition
  exact hleads.registered hafter hname hdefinition

/-- A function has one name, under which as many registrations came before the one as before the
other. -/
theorem Reachable.registered_unique (hreachable : moment.Reachable)
    (hdefinition : moment.Registered function definition generation)
    (hother : moment.Registered function other generation) : definition = other := by
  obtain ⟨registry, name, earlier, later, hname, hregistrations, hgeneration⟩ := hdefinition
  obtain ⟨otherRegistry, otherName, otherEarlier, otherLater, hotherName, hotherRegistrations,
    hotherGeneration⟩ := hother
  obtain ⟨rfl, rfl⟩ := hreachable.canonical.injective hname hotherName
  have hlength : earlier.length = otherEarlier.length := by omega
  have hsame := List.append_inj_right (hregistrations.symm.trans hotherRegistrations) hlength
  exact (List.cons.inj hsame).1

/-! ## The targets of sites -/

/-- What a site learns when a call begins is what the function is bound to then. -/
theorem Reachable.target_installed (hreachable : moment.Reachable) (siteName : String)
    {target : SiteTarget} (htarget : target ∈ (moment.world.site siteName).targets) :
    moment.Installed target.function target.definition target.generation := by
  revert target
  refine hreachable.invariant (motive := fun moment ↦ ∀ {target : SiteTarget},
    target ∈ (moment.world.site siteName).targets →
      moment.Installed target.function target.definition target.generation) nofun ?_
  intro before after hbefore hinstalled step target htarget
  have hleads : before.Leads after := .single step
  cases step with
  | enter | leave => exact (hinstalled htarget).leads hleads
  | effect effect hallowed =>
    rcases effect.eq_noteCall_or_sites_eq before.world with
      ⟨dispatcher, name, function, rfl⟩ | hsites
    · rcases World.mem_targets_noteCall htarget with hold | ⟨rfl, hdefinition, hgeneration⟩
      · exact (hinstalled hold).leads hleads
      · have hcurrent := (hbefore.installed hdefinition).leads hleads
        rwa [hgeneration] at hcurrent
    · dsimp only at htarget
      rw [World.site_eq_of_sites_eq hsites] at htarget
      exact (hinstalled htarget).leads hleads

end Moment

namespace Site

/-- No two targets are of the same function. -/
def Distinct (site : Site) : Prop :=
  (site.targets.map SiteTarget.function).Nodup

variable {site : Site}

theorem Distinct.learn (hdistinct : site.Distinct) (limit : Nat) (name : String)
    (target : SiteTarget) : (site.learn limit name target).1.Distinct := by
  unfold Site.learn
  split
  · exact hdistinct
  · split
    · rw [Distinct, functions_replaceTarget]
      exact hdistinct
    · next hunknown =>
      split
      · exact List.nodup_nil
      · have hnew : target.function ∉ site.targets.map SiteTarget.function :=
          (site.mem_targets_iff_isSome_target? target.function).not.mpr hunknown
        rw [Distinct, List.map_append, List.map_singleton, ← List.concat_eq_append]
        exact List.Nodup.concat hnew hdistinct

theorem Distinct.note (hdistinct : site.Distinct) (call : SiteCall) : (site.note call).Distinct := by
  have hslow : (site.noteSlow call).Distinct := by
    unfold noteSlow
    split
    · exact hdistinct
    · have hcounted : site.countSlow.Distinct := hdistinct
      exact hcounted.learn _ _ _
  unfold Site.note
  split
  · exact hdistinct
  · exact hslow
  · exact hslow

end Site

namespace Moment

variable {moment : Moment}

theorem Reachable.distinct (hreachable : moment.Reachable) (siteName : String) :
    (moment.world.site siteName).Distinct := by
  apply hreachable.invariant (motive := fun moment ↦ (moment.world.site siteName).Distinct)
  · exact List.nodup_nil
  · intro before after _ hdistinct step
    cases step with
    | enter | leave => exact hdistinct
    | effect effect _ =>
      have happly := Event.site_apply siteName before.world (.effect effect)
      change ((Event.effect effect).apply before.world |>.site siteName).Distinct
      rw [happly]
      cases (Event.effect effect).siteCall? siteName before.world with
      | none => exact hdistinct
      | some call => exact hdistinct.note call

/-- What call sites remember at a moment. -/
structure SitesCoherent (moment : Moment) : Prop where
  /-- The function is defined, at the remembered generation or a later one, and in the first case
  with the remembered definition. -/
  agrees : ∀ siteName, ∀ target ∈ (moment.world.site siteName).targets,
    target.Agrees moment.world
  installed : ∀ siteName, ∀ target ∈ (moment.world.site siteName).targets,
    moment.Installed target.function target.definition target.generation
  registered : ∀ siteName, ∀ target ∈ (moment.world.site siteName).targets,
    moment.Registered target.function target.definition target.generation
  /-- No function ever gets two definitions at one generation. -/
  installed_unique : ∀ function definition other generation,
    moment.Installed function definition generation →
      moment.Installed function other generation → definition = other
  distinct : ∀ siteName, (moment.world.site siteName).Distinct

theorem Reachable.sitesCoherent (hreachable : moment.Reachable) : moment.SitesCoherent where
  agrees := hreachable.coherent.agrees
  installed siteName _ := hreachable.target_installed siteName
  registered siteName _ htarget := (hreachable.target_installed siteName htarget).registered
  installed_unique _ _ _ _ hdefinition hother :=
    hreachable.registered_unique hdefinition.registered hother.registered
  distinct := hreachable.distinct

/-- Sites are coherent at every moment.  A call that begins at such a moment goes through such
moments only, up to any of its events, in whatever way it ends or if it does not end; and so does
every session from beginning to end. -/
theorem sites_remember_installed :
    (∀ moment : Moment, moment.Reachable → moment.SitesCoherent) ∧
    (∀ (moment : Moment) (call : Session.PreparedCall) (routing : Routing) (allowance : Nat),
      moment.Reachable → moment.world.HasDispatcher call.dispatcher →
        let traced := call.traced routing allowance moment.world
        traced.1 = call.perform routing allowance moment.world ∧
          (∀ after, traced.1.world? = some after →
            (moment.followAll traced.2).world = after) ∧
          ∀ before, before <+: traced.2 →
            (moment.followAll before).Reachable ∧ (moment.followAll before).SitesCoherent) ∧
    ∀ (routing : Routing) (allowance : Nat) (config : Config) (steps : List Session.Step)
      (answers : List (Session.Answer × List TraceRecord)) (final : Session.State),
      Session.execute routing allowance config steps = .ok (answers, final) →
        ∃ events, (start.followAll events).world = final.world ∧
          events.filter Event.isOfCall =
            (Session.callEvents routing allowance steps { config }).filter Event.isOfCall ∧
          ∀ before, before <+: events →
            (start.followAll before).Reachable ∧ (start.followAll before).SitesCoherent := by
  refine ⟨fun moment ↦ Reachable.sitesCoherent, ?_, ?_⟩
  · intro moment call routing allowance hreachable hdispatcher traced
    have hgoes := call.traced_of_closed (Traced.goesInSteps_closed routing _) allowance
    obtain ⟨hlegal, hends⟩ := hgoes moment hreachable hdispatcher
    refine ⟨(call.traced_describes routing allowance moment.world).1,
      fun after hafter ↦ (hends after hafter).1, fun before hbefore ↦ ?_⟩
    have hmiddle := hlegal.reachable_upTo hreachable hbefore
    exact ⟨hmiddle, hmiddle.sitesCoherent⟩
  · intro routing allowance config steps answers final hrun
    obtain ⟨⟨events, hlegal, hworld, -, hcalls⟩, -⟩ := Session.runSteps_reaches .start rfl
      (Session.State.namesExist_start config) hrun
    refine ⟨events, hworld, hcalls, fun before hbefore ↦ ?_⟩
    have hmiddle := hlegal.reachable_upTo .start hbefore
    exact ⟨hmiddle, hmiddle.sitesCoherent⟩

/-- A function that calls another one through a site, and is registered again by it. -/
def redefinedCaller : Moment :=
  start.after [.newRegistry {}, .newDispatcher ⟨0⟩,
    .register ⟨0⟩ "f" { body := .callAt "site" "g" [] },
    .register ⟨0⟩ "g" { body := .register "f" .depth none }]

/-- When both calls are active, the site remembers the first function as it was before. -/
theorem sites_remember_installed_redefinedCaller :
    let call : Session.PreparedCall :=
      { callable := .route (.throughSite "site" ⟨0⟩), dispatcher := ⟨0⟩, arguments := [],
        reply := .call (.named "f") }
    let before := (call.traced .cached 3 redefinedCaller.world).2.take 6
    let middle := redefinedCaller.followAll before
    middle.active.length = 2 ∧
      (middle.world.site "site").targets.map
        (fun target ↦ (target.function, target.generation)) = [(⟨0⟩, 0), (⟨1⟩, 0)] ∧
      (middle.world.functionState ⟨0⟩).generation = 1 ∧
      middle.Reachable ∧ middle.SitesCoherent := by
  intro call before middle
  have hreachable : redefinedCaller.Reachable := leads_after _ _ (by decide)
  obtain ⟨-, hcalls, -⟩ := sites_remember_installed
  obtain ⟨-, -, hcoherent⟩ := hcalls redefinedCaller call .cached 3 hreachable (by decide)
  exact ⟨by decide +kernel, by decide +kernel, by decide +kernel,
    hcoherent before (List.take_prefix 6 _)⟩

end Moment

end GuestCore
