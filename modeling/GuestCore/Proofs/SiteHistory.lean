import GuestCore.Proofs.RegistryHistory
import GuestCore.Proofs.SessionEvents
import GuestCore.Proofs.SiteCalls

/-!
# Call Sites Follow Their Calls

In every run the state of a call site follows from the calls that began at it, nested ones
included.  A call is served from the site exactly if the function is remembered and was not
registered again since its previous call there.
-/

namespace GuestCore

/-! ## Registrations and calls in a run -/

namespace Event

/-- A call of the function begins at the site. -/
def CallsAt (name : String) (function : FunctionId) (event : Event) : Prop :=
  ∃ dispatcher, event = .effect (.noteCall dispatcher name function)

/-- The function is registered, under the name that it has in the world. -/
def Registers (world : World) (function : FunctionId) (event : Event) : Prop :=
  ∃ registry name definition, event = .effect (.register registry name definition) ∧
    world.functionNamed? registry name = some function

/-- After some events, the site still remembers, the function is known to it, and the function was
not registered since its previous call there. -/
def Serves (events : List Event) (name : String) (function : FunctionId) : Prop :=
  ((replay events {}).site name).megamorphic = false ∧
    function ∈ definedCallees (siteCalls name {} events) ∧
      ∃ before event since, events = before ++ event :: since ∧ event.CallsAt name function ∧
        ∀ other ∈ since, ¬ other.CallsAt name function ∧
          ¬ other.Registers (replay events {}) function

theorem siteCall?_of_callsAt {name : String} {function : FunctionId} {event : Event}
    (hcalls : event.CallsAt name function) (world : World) :
    ∃ call, event.siteCall? name world = some call ∧ call.function = function ∧
      call.callee = world.functionState function := by
  obtain ⟨dispatcher, rfl⟩ := hcalls
  exact ⟨world.siteCall dispatcher function, if_pos rfl, rfl, rfl⟩

theorem callsAt_of_siteCall? {name : String} {world : World} {event : Event} {call : SiteCall}
    (hcall : event.siteCall? name world = some call) :
    event.CallsAt name call.function ∧ call.callee = world.functionState call.function := by
  cases event with
  | enter | leave => cases hcall
  | effect effect =>
    cases effect with
    | noteCall dispatcher site function =>
      simp only [siteCall?] at hcall
      split at hcall
      · next hsite =>
        obtain rfl := Option.some.inj hcall
        exact ⟨⟨dispatcher, by rw [hsite]; rfl⟩, rfl⟩
      · cases hcall
    | _ => cases hcall

/-- Every call at the site comes from an event. -/
theorem exists_callsAt {name : String} {events : List Event} {world : World} {call : SiteCall}
    (hcall : call ∈ siteCalls name world events) :
    ∃ event ∈ events, event.CallsAt name call.function := by
  induction events generalizing world with
  | nil => cases hcall
  | cons event rest ih =>
    rcases List.mem_append.mp hcall with hfirst | hrest
    · exact ⟨event, List.mem_cons_self,
        (callsAt_of_siteCall? (Option.mem_toList.mp hfirst)).1⟩
    · obtain ⟨later, hlater, hcalls⟩ := ih hrest
      exact ⟨later, List.mem_cons_of_mem _ hlater, hcalls⟩

end Event

/-- The last element of a list with a property. -/
theorem exists_last {α : Type} {holds : α → Prop} {list : List α}
    (hexists : ∃ element ∈ list, holds element) :
    ∃ before element after, list = before ++ element :: after ∧ holds element ∧
      ∀ other ∈ after, ¬ holds other := by
  induction list with
  | nil => simp at hexists
  | cons head tail ih =>
    by_cases hlater : ∃ element ∈ tail, holds element
    · obtain ⟨before, element, after, rfl, hholds, hlast⟩ := ih hlater
      exact ⟨head :: before, element, after, rfl, hholds, hlast⟩
    · have hhead : holds head := by
        obtain ⟨element, hmem, hholds⟩ := hexists
        rcases List.mem_cons.mp hmem with rfl | hmem
        · exact hholds
        · exact absurd ⟨element, hmem, hholds⟩ hlater
      exact ⟨[], head, tail, rfl, hhead, fun other hother hholds ↦ hlater ⟨other, hother, hholds⟩⟩

namespace Moment

variable {earlier moment later : Moment}

/-- A function that was defined stays defined. -/
theorem Leads.isDefined (hleads : earlier.Leads later) (hearlier : earlier.Reachable)
    {function : FunctionId}
    (hdefined : (earlier.world.functionState function).isDefined = true) :
    (later.world.functionState function).isDefined = true := by
  obtain ⟨definition, hdefinition⟩ := Option.isSome_iff_exists.mp hdefined
  obtain ⟨registry, name, hname⟩ := hearlier.canonical.exists_name
    (World.hasFunction_of_definition hdefinition)
  have hbefore := (hearlier.followsHistory registry name function hname).definition
  have hafter := ((hearlier.leads hleads).followsHistory registry name function
    (hleads.keepsNames.function hname)).definition
  obtain ⟨more, hjournal⟩ := hleads.journal_prefix
  rw [FunctionState.isDefined, hafter, ← hjournal, Effect.registrations, List.filterMap_append,
    List.getLast?_isSome]
  intro hnone
  have hempty : Effect.registrations registry name earlier.journal = [] :=
    (List.append_eq_nil_iff.mp hnone).1
  rw [hdefinition, hempty] at hbefore
  cases hbefore

/-- A function keeps its generation exactly while it is not registered. -/
theorem Legal.generation_eq_iff {events : List Event} (hlegal : moment.Legal events)
    (hreachable : moment.Reachable) {function : FunctionId}
    (hfunction : moment.world.HasFunction function) :
    ((moment.followAll events).world.functionState function).generation =
        (moment.world.functionState function).generation ↔
      ∀ event ∈ events, ¬ event.Registers (moment.followAll events).world function := by
  have hleads := hlegal.leads
  obtain ⟨registry, name, hname⟩ := hreachable.canonical.exists_name hfunction
  have hkept := hleads.keepsNames.function hname
  have hgrowth := hleads.generation_add hreachable hname
  rw [journal_followAll, Effect.registrations, Effect.registrations, List.filterMap_append,
    List.length_append] at hgrowth
  have hinjective {other : RegistryId} {otherName : String}
      (hother : (moment.followAll events).world.functionNamed? other otherName = some function) :=
    (hreachable.leads hleads).canonical.injective hkept hother
  have hsame : ((moment.followAll events).world.functionState function).generation =
        (moment.world.functionState function).generation ↔
      (events.filterMap Event.effect?).filterMap (Effect.definition? registry name) = [] := by
    rw [← List.length_eq_zero_iff]
    omega
  rw [hsame, List.filterMap_eq_nil_iff]
  constructor
  · rintro hnone event hevent ⟨other, otherName, definition, rfl, hother⟩
    obtain ⟨rfl, rfl⟩ := hinjective hother
    have habsent := hnone _ (List.mem_filterMap.mpr ⟨_, hevent, rfl⟩)
    simp [Effect.definition?] at habsent
  · intro hnone effect heffect
    obtain ⟨event, hevent, heq⟩ := List.mem_filterMap.mp heffect
    obtain rfl : event = .effect effect := by
      cases event with
      | effect change => exact congrArg Event.effect (Option.some.inj heq)
      | enter | leave => cases heq
    cases effect with
    | register other otherName definition =>
      simp only [Effect.definition?]
      split
      · next hname =>
        obtain ⟨rfl, rfl⟩ := hname
        exact absurd ⟨_, _, _, rfl, hkept⟩ (hnone _ hevent)
      · rfl
    | _ => rfl

/-- At every call the published generation is the generation. -/
theorem Legal.published_eq {events : List Event} (hlegal : moment.Legal events)
    (hreachable : moment.Reachable) {name : String} {call : SiteCall}
    (hcall : call ∈ Event.siteCalls name moment.world events) :
    call.callee.published = call.callee.generation := by
  induction events generalizing moment with
  | nil => cases hcall
  | cons event rest ih =>
    rcases List.mem_append.mp hcall with hfirst | hrest
    · rw [(Event.callsAt_of_siteCall? (Option.mem_toList.mp hfirst)).2]
      exact hreachable.coherent.published_eq call.function
    · rw [← world_follow] at hrest
      exact ih hlegal.2 (hreachable.leads (.single hlegal.1)) hrest

/-- A function that was defined when it was called is defined. -/
theorem Legal.isDefined_of_called {events : List Event} (hlegal : moment.Legal events)
    (hreachable : moment.Reachable) {name : String} {call : SiteCall}
    (hcall : call ∈ Event.siteCalls name moment.world events)
    (hdefined : call.callee.isDefined = true) :
    ((moment.followAll events).world.functionState call.function).isDefined = true := by
  induction events generalizing moment with
  | nil => cases hcall
  | cons event rest ih =>
    rcases List.mem_append.mp hcall with hfirst | hrest
    · rw [(Event.callsAt_of_siteCall? (Option.mem_toList.mp hfirst)).2] at hdefined
      exact hlegal.leads.isDefined hreachable hdefined
    · rw [← world_follow] at hrest
      exact ih hlegal.2 (hreachable.leads (.single hlegal.1)) hrest

theorem world_followAll_start (events : List Event) :
    (start.followAll events).world = Event.replay events {} :=
  start.world_followAll events

/-- The site at a moment reflects the calls up to then. -/
theorem Legal.site_reflects {events : List Event} (hlegal : start.Legal events) {name : String}
    {limit : Nat} (hlimit : ∀ call ∈ Event.siteCalls name {} events, call.cacheLimit = limit) :
    ((Event.replay events {}).site name).Reflects limit (Event.siteCalls name {} events) := by
  have hnew : Site.Reflects {} limit [] :=
    ⟨by simp [definedCallees], fun _ ↦ rfl, nofun, rfl, nofun⟩
  rw [Event.site_replay]
  exact hnew.foldl_note hlimit fun call hcall ↦ hlegal.published_eq .start hcall

/-- The last generation at which a site saw a function is that at its previous call. -/
theorem Legal.lastGeneration?_eq {before since : List Event} {event : Event} {name : String}
    {function : FunctionId} (hlegal : start.Legal (before ++ event :: since))
    (hcalls : event.CallsAt name function) (hlast : ∀ other ∈ since, ¬ other.CallsAt name function)
    (hknown : function ∈ definedCallees (Event.siteCalls name {} (before ++ event :: since))) :
    ((Event.replay before {}).functionState function).isDefined = true ∧
      lastGeneration? (Event.siteCalls name {} (before ++ event :: since)) function =
        some ((Event.replay before {}).functionState function).generation := by
  obtain ⟨call, hcall, rfl, hcallee⟩ := Event.siteCall?_of_callsAt hcalls (Event.replay before {})
  have hsplit : Event.siteCalls name {} (before ++ event :: since) =
      Event.siteCalls name {} before ++
        call :: Event.siteCalls name (event.apply (Event.replay before {})) since := by
    rw [Event.siteCalls_append, Event.siteCalls, hcall]
    rfl
  have hothers : ∀ other ∈ Event.siteCalls name (event.apply (Event.replay before {})) since,
      other.function ≠ call.function := by
    intro other hother hsame
    obtain ⟨later, hlater, hcallsLater⟩ := Event.exists_callsAt hother
    rw [hsame] at hcallsLater
    exact hlast later hlater hcallsLater
  rw [hsplit] at hknown ⊢
  have hdefined : call.callee.isDefined = true := by
    obtain ⟨other, hother, hdefined, hsame⟩ := mem_definedCallees.mp hknown
    rcases List.mem_append.mp hother with hearlier | hlater
    · have hprefix := (legal_append_iff.mp hlegal).1
      have hstill := hprefix.isDefined_of_called .start hearlier hdefined
      rwa [world_followAll_start, hsame, ← hcallee] at hstill
    · rcases List.mem_cons.mp hlater with rfl | hlater
      · exact hdefined
      · exact absurd hsame (hothers other hlater)
  rw [← hcallee]
  exact ⟨hdefined, lastGeneration?_of_last hdefined hothers⟩

/-- A call is served from the site exactly if the site still remembers, knows the function, and
the function was not registered since its previous call there. -/
theorem Legal.served_iff {events : List Event} (hlegal : start.Legal events) {name : String}
    {limit : Nat} (hlimit : ∀ call ∈ Event.siteCalls name {} events, call.cacheLimit = limit)
    (function : FunctionId) :
    (∃ definition, ((Event.replay events {}).site name).consult function
        ((Event.replay events {}).functionState function).published = .current definition) ↔
      Event.Serves events name function := by
  have hreflects := hlegal.site_reflects hlimit
  have hreachable : (start.followAll events).Reachable := Reachable.start.leads hlegal.leads
  have hpublished := hreachable.coherent.published_eq function
  rw [world_followAll_start] at hpublished
  rw [hreflects.consult_eq_current_iff, hpublished, Event.Serves]
  apply and_congr_right
  intro _
  -- Both sides speak of the previous call; it is there if the function is known.
  have hprevious : ∀ before event since, events = before ++ event :: since →
      event.CallsAt name function → (∀ other ∈ since, ¬ other.CallsAt name function) →
      function ∈ definedCallees (Event.siteCalls name {} events) →
        (lastGeneration? (Event.siteCalls name {} events) function =
            some ((Event.replay events {}).functionState function).generation ↔
          ∀ other ∈ since, ¬ other.Registers (Event.replay events {}) function) := by
    rintro before event since rfl hcalls hlast hknown
    obtain ⟨hdefined, hgeneration⟩ := hlegal.lastGeneration?_eq hcalls hlast hknown
    obtain ⟨hbefore, hsince⟩ := legal_append_iff.mp hlegal
    have hearlier : (start.followAll before).Reachable := Reachable.start.leads hbefore.leads
    obtain ⟨definition, hdefinition⟩ := Option.isSome_iff_exists.mp hdefined
    rw [← world_followAll_start] at hdefinition
    have hiff := hsince.generation_eq_iff hearlier (World.hasFunction_of_definition hdefinition)
    rw [← followAll_append, world_followAll_start, world_followAll_start] at hiff
    have hevent : ¬ event.Registers (Event.replay (before ++ event :: since) {}) function := by
      rintro ⟨registry, otherName, otherDefinition, rfl, -⟩
      obtain ⟨dispatcher, hother⟩ := hcalls
      cases hother
    rw [hgeneration, Option.some_inj, eq_comm]
    exact hiff.trans (List.forall_mem_cons.trans (and_iff_right hevent))
  constructor
  · intro hlastGeneration
    have hknown : function ∈ definedCallees (Event.siteCalls name {} events) := by
      rw [← isSome_lastGeneration?, hlastGeneration]
      rfl
    obtain ⟨call, hcall, -, rfl⟩ := mem_definedCallees.mp hknown
    obtain ⟨before, event, since, hsplit, hcalls, hlast⟩ := exists_last (Event.exists_callsAt hcall)
    have hnone := (hprevious before event since hsplit hcalls hlast hknown).mp hlastGeneration
    exact ⟨hknown, before, event, since, hsplit, hcalls, fun other hother ↦
      ⟨hlast other hother, hnone other hother⟩⟩
  · rintro ⟨hknown, before, event, since, hsplit, hcalls, hnone⟩
    exact (hprevious before event since hsplit hcalls (fun other hother ↦ (hnone other hother).1)
      hknown).mpr fun other hother ↦ (hnone other hother).2

/-- At a site that agrees with the functions, a call of a function without a definition is counted
and changes nothing else. -/
theorem Legal.site_noteCall_of_undefined {events : List Event} (hlegal : start.Legal events)
    {name : String} {function : FunctionId} (dispatcher : DispatcherId)
    (hundefined : ((Event.replay events {}).functionState function).isDefined = false) :
    ((Event.replay events {}).noteCall dispatcher name function).site name =
      ((Event.replay events {}).site name).countSlow := by
  have hcoherent := (Reachable.start.leads hlegal.leads).coherent
  rw [world_followAll_start] at hcoherent
  have hserved : ¬ ∃ definition, ((Event.replay events {}).site name).consult function
      ((Event.replay events {}).functionState function).published = .current definition := by
    rintro ⟨definition, hcurrent⟩
    obtain ⟨target, htarget, rfl, -, -⟩ := Site.exists_target_of_consult hcurrent
    have hdefined := (hcoherent.agrees name target htarget).defined
    rw [hundefined] at hdefined
    cases hdefined
  have hnone : ((Event.replay events {}).functionState function).definition = none := by
    simpa [FunctionState.isDefined] using hundefined
  rw [World.site_noteCall, if_pos rfl, Site.note_of_not_served hserved]
  simp only [Site.noteSlow, World.siteCall, hnone]

/-- A call through a site continues the run, with the beginning of the call at the site and then
with what happens in the call. -/
theorem Legal.callThroughCache {events : List Event} (hlegal : start.Legal events)
    {dispatcher : DispatcherId} (hdispatcher : (Event.replay events {}).HasDispatcher dispatcher)
    (name : String) (function : FunctionId) (arguments : List Value) (allowance : Nat) :
    let traced := Traced.call (tracedRun .cached allowance) dispatcher arguments .cached
      (.throughSite name function) (Event.replay events {})
    traced.1 = Dispatch.callThroughCache (run .cached allowance) dispatcher name function arguments
        (Event.replay events {}) ∧
      (∃ inner, traced.2 = .effect (.noteCall dispatcher name function) :: inner) ∧
      start.Legal (events ++ traced.2) ∧
      ∀ after, traced.1.world? = some after → Event.replay (events ++ traced.2) {} = after := by
  intro traced
  have hrun := Traced.tracedRun_describes .cached allowance dispatcher
  have hclosed := Traced.goesInSteps_closed .cached dispatcher
  have hsteps := hclosed.call (hclosed.tracedRun allowance) arguments (.throughSite name function)
    _ (Reachable.start.leads hlegal.leads) (by rwa [world_followAll_start])
  have hcall := Traced.call_describes hrun arguments .cached (.throughSite name function)
    (Event.replay events {})
  rw [world_followAll_start] at hsteps
  refine ⟨hcall.1, ⟨_, rfl⟩, hlegal.append hsteps.1, fun after hafter ↦ ?_⟩
  rw [Event.replay_append]
  refine hcall.2 after ?_
  rwa [← hcall.1]

end Moment

/-! ## The state of a site is a function of its calls -/

/-- What the calls at a site, in the order in which they begin, say about it after some events. -/
structure Site.FollowsCalls (events : List Event) (name : String) (limit : Nat)
    (site : Site) : Prop where
  megamorphic_iff : site.megamorphic = true ↔
    limit < (definedCallees (Event.siteCalls name {} events)).length
  remains_megamorphic : site.megamorphic = true →
    ∀ more, ((Event.replay (events ++ more) {}).site name).megamorphic = true
  remembers : site.megamorphic = false →
    site.targets.map SiteTarget.function = definedCallees (Event.siteCalls name {} events)
  nodup : (definedCallees (Event.siteCalls name {} events)).Nodup
  forgets : site.megamorphic = true → site.targets = []
  counts : site.fastHits + site.slowCalls = (Event.siteCalls name {} events).length
  /-- The next call is served from the site, and counted so, exactly in this case. -/
  fast : ∀ dispatcher function, Event.Serves events name function ↔
    ∃ definition, site.consult function
      ((Event.replay events {}).functionState function).published = .current definition ∧
        ((Event.replay events {}).noteCall dispatcher name function).site name = site.countFast
  slow : ∀ dispatcher function, ¬ Event.Serves events name function →
    let after := ((Event.replay events {}).noteCall dispatcher name function).site name
    after.fastHits = site.fastHits ∧ after.slowCalls = site.slowCalls + 1
  undefined : ∀ dispatcher function,
    ((Event.replay events {}).functionState function).isDefined = false →
      ((Event.replay events {}).noteCall dispatcher name function).site name = site.countSlow

/-- In every run, the calls at a site under one limit determine the site.  Each call through the
site goes on with the run: it begins with the bookkeeping at the site, whatever happens in it then
and however it ends.  And every session goes through such a run, with the calls that it makes. -/
theorem sites_follow_calls (name : String) :
    (∀ (events : List Event) (limit : Nat), Moment.start.Legal events →
      (∀ call ∈ Event.siteCalls name {} events, call.cacheLimit = limit) →
        ((Event.replay events {}).site name).FollowsCalls events name limit) ∧
    (∀ (events : List Event) (dispatcher : DispatcherId) (function : FunctionId)
      (arguments : List Value) (allowance : Nat), Moment.start.Legal events →
      (Event.replay events {}).HasDispatcher dispatcher →
        let traced := Traced.call (tracedRun .cached allowance) dispatcher arguments .cached
          (.throughSite name function) (Event.replay events {})
        traced.1 = Dispatch.callThroughCache (run .cached allowance) dispatcher name function
            arguments (Event.replay events {}) ∧
          (∃ inner, traced.2 = .effect (.noteCall dispatcher name function) :: inner) ∧
          Moment.start.Legal (events ++ traced.2) ∧
          ∀ after, traced.1.world? = some after →
            Event.replay (events ++ traced.2) {} = after) ∧
    (∀ (allowance : Nat) (config : Config) (steps : List Session.Step)
      (answers : List (Session.Answer × List TraceRecord)) (final : Session.State),
      Session.execute .cached allowance config steps = .ok (answers, final) →
        ∃ events, Moment.start.Legal events ∧ Event.replay events {} = final.world ∧
          events.filter Event.isOfCall =
            (Session.callEvents .cached allowance steps { config }).filter Event.isOfCall) := by
  refine ⟨fun events limit hlegal hlimit ↦ ?_, ?_, ?_⟩
  · have hreflects := hlegal.site_reflects hlimit
    have hserved := hlegal.served_iff hlimit
    have hnote (dispatcher : DispatcherId) (function : FunctionId) :=
      (Event.replay events {}).site_noteCall dispatcher name name function
    simp only [if_true] at hnote
    exact
      { megamorphic_iff := hreflects.megamorphic
        remains_megamorphic := fun hmegamorphic more ↦ by
          rw [Event.replay_append, Event.site_replay]
          exact Site.megamorphic_foldl_note hmegamorphic _
        remembers := hreflects.functions
        nodup := nodup_definedCallees _
        forgets := hreflects.forgotten
        counts := hreflects.counted
        fast := fun dispatcher function ↦ by
          refine (hserved function).symm.trans (exists_congr fun definition ↦ ?_)
          refine (and_iff_left_of_imp fun hcurrent ↦ ?_).symm
          rw [hnote]
          exact Site.note_of_served ⟨definition, hcurrent⟩
        slow := fun dispatcher function hno ↦ by
          dsimp only
          rw [hnote, Site.note_of_not_served fun hyes ↦ hno ((hserved function).mp hyes)]
          exact Site.counters_noteSlow _ _
        undefined := fun dispatcher function hundefined ↦
          hlegal.site_noteCall_of_undefined dispatcher hundefined }
  · intro events dispatcher function arguments allowance hlegal hdispatcher
    exact hlegal.callThroughCache hdispatcher name function arguments allowance
  · intro allowance config steps answers final hrun
    obtain ⟨⟨events, hlegal, hworld, -, hcalls⟩, -⟩ := Session.runSteps_reaches .start rfl
      (Session.State.namesExist_start config) hrun
    exact ⟨events, hlegal, (Moment.world_followAll_start events).symm.trans hworld, hcalls⟩

/-- A site that may remember one function: calls before and after `f` is registered again, a call
of `g` while it is not defined, and one when it is. -/
def oneTargetEffects : List Effect :=
  let register := fun name ↦ .register ⟨0⟩ name { body := .argumentCount }
  let call := fun function ↦ .noteCall ⟨0⟩ "site" ⟨function⟩
  [.newRegistry { cacheLimit := 1 }, .newDispatcher ⟨0⟩, register "f", call 0, call 0,
    register "f", call 0, .findOrCreate ⟨0⟩ "g", call 1, register "g", call 1]

/-- The site gives up with the call of the second function; one of five calls was served.  A
further call through the site goes on with this run, and so does a session with its own. -/
theorem sites_follow_calls_oneTargetEffects :
    let events := oneTargetEffects.map .effect
    let site := (Event.replay events {}).site "site"
    (site.megamorphic = true ∧ site.fastHits = 1 ∧ site.slowCalls = 4) ∧
      site.FollowsCalls events "site" 1 ∧
      (∃ inner, (Traced.call (tracedRun .cached 2) ⟨0⟩ [] .cached (.throughSite "site" ⟨0⟩)
        (Event.replay events {})).2 = .effect (.noteCall ⟨0⟩ "site" ⟨0⟩) :: inner) ∧
      ∃ answers final, Session.execute .cached 3 {} Session.redefinitionSession =
          .ok (answers, final) ∧
        ∃ events, Moment.start.Legal events ∧ Event.replay events {} = final.world := by
  intro events site
  have hlegal : Moment.start.Legal events := .effects (by decide +kernel)
  refine ⟨by decide +kernel, ?_, ?_, ?_⟩
  · exact (sites_follow_calls "site").1 events 1 hlegal (by decide +kernel)
  · exact ((sites_follow_calls "site").2.1 events ⟨0⟩ ⟨0⟩ [] 2 hlegal (by decide +kernel)).2.1
  · have hends : (Session.execute .cached 3 {} Session.redefinitionSession).toOption.isSome =
        true := by decide +kernel
    obtain ⟨⟨answers, final⟩, hresult⟩ := Option.isSome_iff_exists.mp hends
    have hrun : Session.execute .cached 3 {} Session.redefinitionSession =
        .ok (answers, final) := by
      cases hexecute : Session.execute .cached 3 {} Session.redefinitionSession with
      | error => simp [hexecute, Except.toOption] at hresult
      | ok result => simpa [hexecute, Except.toOption] using hresult
    obtain ⟨events, hlegal, hworld, -⟩ := (sites_follow_calls "site").2.2 3 {} _ answers final hrun
    exact ⟨answers, final, hrun, events, hlegal, hworld⟩

end GuestCore
