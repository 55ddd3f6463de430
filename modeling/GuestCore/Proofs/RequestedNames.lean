import GuestCore.Proofs.Listings
import GuestCore.Proofs.SessionRequests

/-!
# Names That Are Requested

What becomes of a name is determined by what was requested of registries: by lookups, registrations
and batches, between calls and inside them.  The function of the name, its definition, its
generation and its place in the listings of its registry all follow from the requests.
-/

namespace GuestCore

open Session

/-! ## What requests tell -/

namespace Effect

variable {registry : RegistryId} {name : String}

theorem filterMap_requests {α : Type} {part? : Effect → Option α}
    (hpart : ∀ effect, effect.isRequest = false → part? effect = none) (effects : List Effect) :
    (requests effects).filterMap part? = effects.filterMap part? := by
  rw [requests, List.filterMap_filter]
  refine List.filterMap_congr fun effect _ ↦ ?_
  cases hrequest : effect.isRequest with
  | true => rfl
  | false => exact (hpart effect hrequest).symm

theorem mentioned?_of_not_isRequest {effect : Effect} (hrequest : effect.isRequest = false) :
    effect.mentioned? registry = none := by
  cases effect with
  | findOrCreate | register => cases hrequest
  | _ => rfl

theorem mentioned?_requests (effects : List Effect) :
    (requests effects).filterMap (mentioned? registry) =
      effects.filterMap (mentioned? registry) :=
  filterMap_requests (fun _ ↦ mentioned?_of_not_isRequest) effects

theorem exists_mentioned?_requests {effects : List Effect} :
    (∃ effect ∈ requests effects, effect.mentioned? registry = some name) ↔
      ∃ effect ∈ effects, effect.mentioned? registry = some name := by
  rw [← List.mem_filterMap, mentioned?_requests, List.mem_filterMap]

theorem registrations_requests (effects : List Effect) :
    registrations registry name (requests effects) = registrations registry name effects := by
  refine filterMap_requests (fun effect hrequest ↦ ?_) effects
  cases effect with
  | register => cases hrequest
  | _ => rfl

theorem bornDefined_requests (effects : List Effect) :
    bornDefined registry name (requests effects) = bornDefined registry name effects := by
  have hfound : ((requests effects).find? fun effect ↦ effect.mentioned? registry = some name) =
      effects.find? fun effect ↦ effect.mentioned? registry = some name := by
    rw [requests, List.find?_filter]
    refine congrArg effects.find? (funext fun effect ↦ ?_)
    cases hrequest : effect.isRequest with
    | true => simp
    | false => simp [mentioned?_of_not_isRequest hrequest]
  rw [bornDefined, bornDefined, hfound]

/-- The names of a batch that was not begun before are requested with it. -/
theorem exists_mentioned?_batchRequests {history : List Effect} {batch : Batch}
    (hnew : history.any (begins registry batch) = false)
    {entry : String × Definition} (hentry : entry ∈ batch.entries) :
    ∃ effect ∈ history ++ batchRequests history registry batch,
      effect.mentioned? registry = some entry.1 := by
  refine ⟨.register registry entry.1 entry.2, List.mem_append_right _ ?_, if_pos rfl⟩
  rw [batchRequests, hnew]
  exact List.mem_cons_of_mem _ (List.mem_map_of_mem hentry)

end Effect

/-- The functions of the world are determined by the requests for their names. -/
structure World.FollowsRequests (world : World) (requests : List Effect) : Prop where
  isSome_iff : ∀ registry name, (world.functionNamed? registry name).isSome = true ↔
    ∃ effect ∈ requests, effect.mentioned? registry = some name
  isDefined_iff : ∀ registry name function,
    world.functionNamed? registry name = some function →
      ((world.functionState function).isDefined = true ↔
        Effect.registrations registry name requests ≠ [])
  definition : ∀ registry name function,
    world.functionNamed? registry name = some function →
      (world.functionState function).definition =
        (Effect.registrations registry name requests).getLast?
  location : ∀ registry name function,
    world.functionNamed? registry name = some function →
      (world.functionState function).location =
        (Effect.registrations registry name requests).getLast?.bind Definition.location
  /-- The registrations are counted, but for the first one if it brought the name into
  existence. -/
  generation : ∀ registry name function,
    world.functionNamed? registry name = some function →
      (world.functionState function).generation +
          (Effect.bornDefined registry name requests).toNat =
        (Effect.registrations registry name requests).length
  published : ∀ registry name function,
    world.functionNamed? registry name = some function →
      (world.functionState function).published = (world.functionState function).generation

namespace Moment

variable {earlier moment later : Moment} {registry : RegistryId} {name : String}

theorem Reachable.followsRequests (hreachable : moment.Reachable) :
    moment.world.FollowsRequests moment.requests := by
  have hfollows {registry name function}
      (hname : moment.world.functionNamed? registry name = some function) :
      (moment.world.functionState function).Follows
        (Effect.registrations registry name moment.requests)
        (Effect.bornDefined registry name moment.requests) := by
    rw [Moment.requests, Effect.registrations_requests, Effect.bornDefined_requests]
    exact hreachable.followsHistory registry name function hname
  refine ⟨fun registry name ↦ ?_, fun registry name function hname ↦ ?_,
    fun _ _ _ hname ↦ (hfollows hname).definition, fun registry name function hname ↦ ?_,
    fun _ _ _ hname ↦ (hfollows hname).generation,
    fun _ _ _ hname ↦ (hfollows hname).published⟩
  · rw [Moment.requests, Effect.exists_mentioned?_requests]
    exact hreachable.isSome_functionNamed? registry name
  · rw [FunctionState.isDefined, (hfollows hname).definition, List.getLast?_isSome]
  · rw [FunctionState.location, (hfollows hname).definition]

/-- The world comes next in a run, by way of the requests, and its functions follow from them. -/
structure ContinuesTo (moment : Moment) (asked : List Effect) (world : World) : Prop where
  arrives : moment.Arrives asked world
  follows : world.FollowsRequests (moment.requests ++ asked)

theorem Arrives.continuesTo {asked : List Effect} {world : World}
    (harrives : moment.Arrives asked world) (hreachable : moment.Reachable) :
    moment.ContinuesTo asked world := by
  refine ⟨harrives, ?_⟩
  obtain ⟨later, hleads, rfl, -, hrequests⟩ := harrives
  rw [← hrequests]
  exact (hreachable.leads hleads).followsRequests

/-- A name that was requested has its function. -/
theorem Reachable.gives_of_requested (hreachable : moment.Reachable)
    (hrequested : ∃ effect ∈ moment.requests, effect.mentioned? registry = some name) :
    ∃ function, moment.world.Gives registry name function ∧
      (moment.world.functionState function).name = name := by
  have hsome := (hreachable.followsRequests.isSome_iff registry name).mpr hrequested
  obtain ⟨function, hname⟩ := Option.isSome_iff_exists.mp hsome
  exact ⟨function, World.gives_of_functionNamed? hname, hreachable.canonical.name_eq hname⟩

theorem firstMentions_eq (moment : Moment) (registry : RegistryId) :
    moment.firstMentions registry =
      (moment.requests.filterMap (Effect.mentioned? registry)).eraseDups := by
  rw [firstMentions, Moment.requests, Effect.mentioned?_requests]

theorem Reachable.requests_afterBatch (hreachable : moment.Reachable) (registry : RegistryId)
    (batch : Batch) :
    (moment.afterBatch registry batch).requests =
      moment.requests ++ Effect.batchRequests moment.requests registry batch := by
  rw [afterBatch, Moment.requests, journal_after, Effect.requests_append,
    hreachable.batchEffects_eq, Effect.requests_batchRequests]
  rfl

/-- After a batch that was not begun before, each of its names has its function. -/
theorem Reachable.gives_of_batch (hreachable : moment.Reachable)
    (hregistry : moment.world.HasRegistry registry) {batch : Batch}
    (hnew : moment.requests.any (Effect.begins registry batch) = false)
    {entry : String × Definition} (hentry : entry ∈ batch.entries) :
    ∃ function, (moment.world.registerBatch registry batch).Gives registry entry.1 function ∧
      ((moment.world.registerBatch registry batch).functionState function).name = entry.1 := by
  rw [← world_afterBatch]
  refine (hreachable.leads (leads_afterBatch hregistry batch)).gives_of_requested ?_
  rw [hreachable.requests_afterBatch]
  exact Effect.exists_mentioned?_batchRequests hnew hentry

end Moment

/-- A session that is continued goes from a moment to a later one, and its requests are those of
the moments. -/
theorem Session.execute_requests {routing : Routing} {allowance : Nat} {config : Config}
    {steps more : List Step} {middle final : State}
    {answers moreAnswers : List (Answer × List TraceRecord)}
    (hfirst : execute routing allowance config steps = .ok (answers, middle))
    (hmore : (runSteps routing allowance more).run middle = .ok (moreAnswers, final)) :
    ∃ journal moreJournal, Moment.Reachable ⟨middle.world, [], journal⟩ ∧
      Moment.Leads ⟨middle.world, [], journal⟩ ⟨final.world, [], moreJournal⟩ ∧
      Effect.requests journal = requests routing allowance steps { config } [] ∧
      Effect.requests moreJournal = requests routing allowance (steps ++ more) { config } [] := by
  have hstart := State.namesExist_start config
  obtain ⟨-, hnames⟩ := runSteps_reaches .start rfl hstart hfirst
  obtain ⟨⟨_, _, journal⟩, hreachable, rfl, rfl, hrequests⟩ :=
    runSteps_requests .start rfl hstart hfirst
  obtain ⟨⟨_, _, moreJournal⟩, hleads, rfl, rfl, hmoreRequests⟩ :=
    runSteps_requests hreachable rfl hnames hmore
  refine ⟨journal, moreJournal, hreachable, hleads, hrequests, ?_⟩
  rw [requests_append hfirst]
  exact hmoreRequests.trans (congrArg _ hrequests)

namespace Moment

variable {earlier moment later : Moment} {registry : RegistryId} {name : String}

/-! ## Definitions and generations -/

/-- The functions follow from the requests at every event of a call. -/
theorem Reachable.followsRequests_upTo (hreachable : moment.Reachable) {call : PreparedCall}
    (hdispatcher : moment.world.HasDispatcher call.dispatcher) {routing : Routing}
    {allowance : Nat} {before : List Event}
    (hbefore : before <+: (call.traced routing allowance moment.world).2) :
    (Event.replay before moment.world).FollowsRequests
      (moment.requests ++ Effect.requests (before.filterMap Event.effect?)) := by
  have hgoes := call.traced_of_closed (Traced.goesInSteps_closed routing _) allowance
  obtain ⟨hlegal, -⟩ := hgoes moment hreachable hdispatcher
  have hfollows := (hlegal.reachable_upTo hreachable hbefore).followsRequests
  rw [Moment.requests, journal_followAll, world_followAll, Effect.requests_append] at hfollows
  exact hfollows

/-- The generation of a function grows when its name is registered. -/
theorem Leads.generation_lt (hleads : earlier.Leads later) (hearlier : earlier.Reachable)
    {function : FunctionId} (hname : earlier.world.functionNamed? registry name = some function)
    (hmore : (Effect.registrations registry name earlier.requests).length <
      (Effect.registrations registry name later.requests).length) :
    (earlier.world.functionState function).generation <
      (later.world.functionState function).generation := by
  have hgeneration := hleads.generation_add hearlier hname
  rw [Moment.requests, Moment.requests, Effect.registrations_requests,
    Effect.registrations_requests] at hmore
  omega

/-- A function does not have two definitions at one generation. -/
theorem Leads.definition_unique (hleads : earlier.Leads later) (hearlier : earlier.Reachable)
    {function : FunctionId} {definition other : Definition}
    (hdefinition : (earlier.world.functionState function).definition = some definition)
    (hother : (later.world.functionState function).definition = some other)
    (hgeneration : (later.world.functionState function).generation =
      (earlier.world.functionState function).generation) : definition = other := by
  obtain ⟨registry, name, hname⟩ := hearlier.canonical.exists_name
    (World.hasFunction_of_definition hdefinition)
  have hsame := hleads.definition_eq hearlier hname hgeneration
  rw [hdefinition, hother] at hsame
  exact (Option.some.inj hsame).symm

/-- At every moment of every run, the functions of names are determined by the requests: after each
way to ask a registry, a batch included, at every event of a call, and at the end of every session,
whose requests are read off its steps and its calls.  From one moment to a later one, the generation
of a function grows if its name was registered meanwhile, and a function does not have two
definitions at one generation. -/
theorem registry_history :
    (∀ moment : Moment, moment.Reachable → moment.world.FollowsRequests moment.requests) ∧
    (∀ (moment : Moment) (registry : RegistryId), moment.Reachable →
      moment.world.HasRegistry registry →
        (∀ name, moment.ContinuesTo [] (moment.world.find registry name).2) ∧
        (∀ name, moment.ContinuesTo [.findOrCreate registry name]
          (moment.world.findOrCreate registry name).2) ∧
        (∀ name definition, moment.ContinuesTo [.register registry name definition]
          (moment.world.register registry name definition).2) ∧
        ∀ batch, moment.ContinuesTo (Effect.batchRequests moment.requests registry batch)
          (moment.world.registerBatch registry batch)) ∧
    (∀ (moment : Moment) (call : PreparedCall) (routing : Routing) (allowance : Nat),
      moment.Reachable → moment.world.HasDispatcher call.dispatcher →
        let traced := call.traced routing allowance moment.world
        traced.1 = call.perform routing allowance moment.world ∧
          (∀ after, traced.1.world? = some after → Event.replay traced.2 moment.world = after) ∧
          ∀ before, before <+: traced.2 →
            (Event.replay before moment.world).FollowsRequests
              (moment.requests ++ Effect.requests (before.filterMap Event.effect?))) ∧
    (∀ earlier later : Moment, earlier.Reachable → earlier.Leads later →
      (∀ registry name function, earlier.world.functionNamed? registry name = some function →
        (Effect.registrations registry name earlier.requests).length <
            (Effect.registrations registry name later.requests).length →
          (earlier.world.functionState function).generation <
            (later.world.functionState function).generation) ∧
      ∀ function definition other,
        (earlier.world.functionState function).definition = some definition →
          (later.world.functionState function).definition = some other →
            (later.world.functionState function).generation =
                (earlier.world.functionState function).generation →
              definition = other) ∧
    (∀ (routing : Routing) (allowance : Nat) (config : Config) (steps : List Session.Step)
      (answers : List (Answer × List TraceRecord)) (final : State),
      execute routing allowance config steps = .ok (answers, final) →
        final.world.FollowsRequests (Session.requests routing allowance steps { config } [])) ∧
    ∀ (moment : Moment) (routing : Routing) (allowance : Nat) (steps : List Session.Step)
      (state : State) (answers : List (Answer × List TraceRecord)) (final : State),
      moment.Reachable →
      state.world = moment.world → state.NamesExist →
      (runSteps routing allowance steps).run state = .ok (answers, final) →
        ∃ later : Moment, moment.Leads later ∧ later.world = final.world ∧
          later.active = moment.active ∧
          later.requests = Session.requests routing allowance steps state moment.requests ∧
          final.world.FollowsRequests
            (Session.requests routing allowance steps state moment.requests) := by
  refine ⟨fun _ ↦ Reachable.followsRequests, ?_, ?_, ?_, ?_, ?_⟩
  · intro moment registry hreachable hregistry
    refine ⟨fun name ↦ ?_, fun name ↦ ?_, fun name definition ↦ ?_, fun batch ↦ ?_⟩
    · exact (Arrives.effect (.find registry name) hregistry).continuesTo hreachable
    · exact (Arrives.effect (.findOrCreate registry name) hregistry).continuesTo hreachable
    · exact (Arrives.effect (.register registry name definition) hregistry).continuesTo hreachable
    · exact (Arrives.batch hreachable hregistry batch).continuesTo hreachable
  · intro moment call routing allowance hreachable hdispatcher traced
    obtain ⟨hperform, hreplay⟩ := call.traced_describes routing allowance moment.world
    exact ⟨hperform, fun after hafter ↦ hreplay after (hperform ▸ hafter),
      fun before ↦ hreachable.followsRequests_upTo hdispatcher⟩
  · intro earlier later hearlier hleads
    exact ⟨fun registry name function ↦ hleads.generation_lt hearlier,
      fun function definition other ↦ hleads.definition_unique hearlier⟩
  · intro routing allowance config steps answers final hrun
    obtain ⟨later, hreachable, hworld, -, hrequests⟩ :=
      runSteps_requests .start rfl (State.namesExist_start config) hrun
    have hfollows := Reachable.followsRequests hreachable
    rw [hworld, hrequests] at hfollows
    exact hfollows
  · intro moment routing allowance steps state answers final hmoment hworld hnames hrun
    obtain ⟨later, hleads, hlater, hactive, hrequests⟩ :=
      runSteps_requests hmoment hworld hnames hrun
    have hfollows := (hmoment.leads hleads).followsRequests
    rw [hlater, hrequests] at hfollows
    exact ⟨later, hleads, hlater, hactive, hrequests, hfollows⟩

/-- A name that is looked up first, then registered, then twice in a batch, which is registered
twice, and at last by a unit. -/
def redefinitions : List Session.Step :=
  [.lookup "f" true "main", .register "f" { body := .depth } "main",
    .batch "b" [("f", { body := .argumentCount }), ("g", { body := .depth }),
      ("f", { body := .argument 0 })],
    .registerBatch "b" "main", .registerBatch "b" "main",
    .register "h" { body := .register "f" .depth (some ⟨"h.vlk", 1, 2⟩) } "main",
    .call (.named "h") [] "main"]

/-- The session can be stopped once the name is registered, and continued. -/
theorem redefinitions_end : ∃ answers middle moreAnswers final,
    execute .cached 2 {} (redefinitions.take 2) = .ok (answers, middle) ∧
      (runSteps .cached 2 (redefinitions.drop 2)).run middle = .ok (moreAnswers, final) := by
  have hends : ((execute .cached 2 {} (redefinitions.take 2)).bind fun result ↦
      (runSteps .cached 2 (redefinitions.drop 2)).run result.2).isOk = true := by decide +kernel
  cases hfirst : execute .cached 2 {} (redefinitions.take 2) with
  | error malformed =>
    rw [hfirst] at hends
    cases hends
  | ok result =>
    rw [hfirst] at hends
    cases hmore : (runSteps .cached 2 (redefinitions.drop 2)).run result.2 with
    | error malformed =>
      simp only [Except.bind, hmore] at hends
      cases hends
    | ok moreResult => exact ⟨result.1, result.2, moreResult.1, moreResult.2, rfl, hmore⟩

theorem registry_history_redefinitions :
    let moment := start.after [.newRegistry {}, .newDispatcher ⟨0⟩, .findOrCreate ⟨0⟩ "f",
      .register ⟨0⟩ "h" { body := .register "f" .depth none }]
    let batch : Batch :=
      { identity := 0, entries := [("f", { body := .depth }), ("g", { body := .depth })] }
    let later := moment.after [.register ⟨0⟩ "f" { body := .depth }]
    let call : PreparedCall := ⟨.route (.named "h"), ⟨0⟩, [], .result⟩
    let events := (call.traced .cached 2 moment.world).2
    moment.ContinuesTo [.beginBatch ⟨0⟩ batch, .register ⟨0⟩ "f" { body := .depth },
        .register ⟨0⟩ "g" { body := .depth }] (moment.world.registerBatch ⟨0⟩ batch) ∧
      (moment.world.functionState ⟨0⟩).generation < (later.world.functionState ⟨0⟩).generation ∧
      (Event.replay (events.take 3) moment.world).FollowsRequests
        (moment.requests ++ Effect.requests ((events.take 3).filterMap Event.effect?)) ∧
      ∃ answers final function, execute .cached 2 {} redefinitions = .ok (answers, final) ∧
        final.world.functionNamed? ⟨0⟩ "f" = some function ∧
        (final.world.functionState function).generation = 4 ∧
        (final.world.functionState function).location = some ⟨"h.vlk", 1, 2⟩ := by
  intro moment batch later call events
  obtain ⟨-, hasked, hcalls, hgrows, hsessions, -⟩ := registry_history
  have hreachable : moment.Reachable := leads_after _ _ (by decide)
  have hleads : moment.Leads later := leads_after _ _ (by decide)
  obtain ⟨-, -, hfollows⟩ := hcalls moment call .cached 2 hreachable (by decide)
  refine ⟨(hasked moment ⟨0⟩ hreachable (by decide)).2.2.2 batch,
    (hgrows moment later hreachable hleads).1 ⟨0⟩ "f" ⟨0⟩ (by decide) (by decide),
    hfollows _ (List.take_prefix 3 _), ?_⟩
  have hends : (execute .cached 2 {} redefinitions).isOk = true := by decide +kernel
  cases hrun : execute .cached 2 {} redefinitions with
  | error malformed =>
    rw [hrun] at hends
    cases hends
  | ok result =>
    obtain ⟨answers, final⟩ := result
    have hlaw := hsessions .cached 2 {} redefinitions answers final hrun
    obtain ⟨function, hname⟩ := Option.isSome_iff_exists.mp
      ((hlaw.isSome_iff ⟨0⟩ "f").mpr (by decide +kernel))
    have hlookedUp : Effect.bornDefined ⟨0⟩ "f" (Session.requests .cached 2 redefinitions {} []) =
        false := by decide +kernel
    have hgeneration := hlaw.generation ⟨0⟩ "f" function hname
    rw [hlookedUp] at hgeneration
    exact ⟨answers, final, function, rfl, hname, hgeneration.trans (by decide +kernel),
      (hlaw.location ⟨0⟩ "f" function hname).trans (by decide +kernel)⟩

/-! ## One function for each name -/

/-- Functions are canonical from any moment of any run to any later one, in the middle of nested
calls too, and from before a batch to after it, which gives each of its names a function.  Sessions
go from moment to moment in this way: the names that a session requests have their functions, then
and later, and are listed in the order of the requests. -/
theorem functions_canonical :
    (∀ earlier later : Moment, earlier.Reachable → earlier.Leads later →
      FunctionsCanonical earlier later) ∧
    (∀ (moment : Moment) (registry : RegistryId) (batch : Batch), moment.Reachable →
      moment.world.HasRegistry registry →
        let later := moment.afterBatch registry batch
        later.world = moment.world.registerBatch registry batch ∧
          later.requests = moment.requests ++ Effect.batchRequests moment.requests registry batch ∧
          FunctionsCanonical moment later ∧
          (moment.requests.any (Effect.begins registry batch) = false →
            ∀ entry ∈ batch.entries, ∃ function,
              (moment.world.registerBatch registry batch).Gives registry entry.1 function ∧
                ((moment.world.registerBatch registry batch).functionState function).name =
                  entry.1)) ∧
    ∀ (routing : Routing) (allowance : Nat) (config : Config) (steps more : List Session.Step)
      (answers moreAnswers : List (Answer × List TraceRecord)) (middle final : State),
      execute routing allowance config steps = .ok (answers, middle) →
        (runSteps routing allowance more).run middle = .ok (moreAnswers, final) →
          let asked := Session.requests routing allowance steps { config } []
          let allAsked := Session.requests routing allowance (steps ++ more) { config } []
          (∃ journal moreJournal, Reachable ⟨middle.world, [], journal⟩ ∧
            Leads ⟨middle.world, [], journal⟩ ⟨final.world, [], moreJournal⟩ ∧
            Effect.requests journal = asked ∧ Effect.requests moreJournal = allAsked ∧
            FunctionsCanonical ⟨middle.world, [], journal⟩ ⟨final.world, [], moreJournal⟩) ∧
          (∀ registry name, (∃ effect ∈ asked, effect.mentioned? registry = some name) →
            ∃ function, middle.world.Gives registry name function ∧
              final.world.Gives registry name function ∧
                (final.world.functionState function).name = name) ∧
          ∀ registry, (final.world.registry registry).functions.keys =
            (allAsked.filterMap (Effect.mentioned? registry)).eraseDups := by
  refine ⟨fun _ _ hearlier hleads ↦ hleads.functionsCanonical hearlier, ?_, ?_⟩
  · intro moment registry batch hreachable hregistry later
    exact ⟨world_afterBatch .., hreachable.requests_afterBatch registry batch,
      (leads_afterBatch hregistry batch).functionsCanonical hreachable,
      fun hnew entry ↦ hreachable.gives_of_batch hregistry hnew⟩
  · intro routing allowance config steps more answers moreAnswers middle final hfirst hmore asked
      allAsked
    obtain ⟨journal, moreJournal, hreachable, hleads, hasked, hallAsked⟩ :=
      execute_requests hfirst hmore
    have hcanonical := hleads.functionsCanonical hreachable
    refine ⟨⟨journal, moreJournal, hreachable, hleads, hasked, hallAsked, hcanonical⟩, ?_, ?_⟩
    · intro registry name hrequested
      refine hcanonical.one_function registry name ?_
      rwa [← Effect.exists_mentioned?_requests, hasked]
    · intro registry
      rw [hcanonical.keys_eq, firstMentions_eq, Moment.requests, hallAsked]

/-- A name that is looked up first, and a registration of it and of another name later; a batch in
their place; and a session that goes on after the name came up. -/
theorem functions_canonical_lookup_then_register :
    let earlier := start.after [.newRegistry {}, .findOrCreate ⟨0⟩ "f"]
    let batch : Batch :=
      { identity := 0, entries := [("g", { body := .depth }), ("f", { body := .depth })] }
    FunctionsCanonical earlier (earlier.after
        [.register ⟨0⟩ "g" { body := .depth }, .register ⟨0⟩ "f" { body := .depth }]) ∧
      (∃ function, (earlier.world.registerBatch ⟨0⟩ batch).Gives ⟨0⟩ "g" function ∧
        ((earlier.world.registerBatch ⟨0⟩ batch).functionState function).name = "g") ∧
      ∃ answers middle moreAnswers final function,
        execute .cached 2 {} (redefinitions.take 2) = .ok (answers, middle) ∧
        (runSteps .cached 2 (redefinitions.drop 2)).run middle = .ok (moreAnswers, final) ∧
        middle.world.Gives ⟨0⟩ "f" function ∧ final.world.Gives ⟨0⟩ "f" function ∧
        (final.world.registry ⟨0⟩).functions.keys = ["f", "g", "h"] := by
  intro earlier batch
  obtain ⟨hmoments, hbatches, hsessions⟩ := functions_canonical
  have hearlier : earlier.Reachable := leads_after _ _ (by decide)
  obtain ⟨-, -, -, hnames⟩ := hbatches earlier ⟨0⟩ batch hearlier (by decide)
  obtain ⟨answers, middle, moreAnswers, final, hfirst, hmore⟩ := redefinitions_end
  obtain ⟨-, hrequested, hkeys⟩ := hsessions _ _ _ _ _ _ _ _ _ hfirst hmore
  obtain ⟨function, hmiddle, hfinal, -⟩ := hrequested ⟨0⟩ "f" (by decide +kernel)
  exact ⟨hmoments _ _ hearlier (leads_after _ _ (by decide)),
    hnames (by decide) ("g", { body := .depth }) List.mem_cons_self,
    answers, middle, moreAnswers, final, function, hfirst, hmore, hmiddle, hfinal,
    (hkeys ⟨0⟩).trans (by decide +kernel)⟩

/-! ## Listings -/

/-- From any moment of any run to any later one, in the middle of nested calls too, and from before
a batch to after it, whose names are then shown.  Sessions go from moment to moment in this way: the
names that a session requests can be read from then on, and are listed in the order of the
requests. -/
theorem listings_agree :
    (∀ (earlier later : Moment) (registry : RegistryId), earlier.Reachable → earlier.Leads later →
      ListingsAgree earlier later registry) ∧
    (∀ (left right : Moment) (registry other : RegistryId), left.Reachable → right.Reachable →
      (∀ name, (left.world.find registry name).1.isSome = true ↔
        (right.world.find other name).1.isSome = true) →
      left.world.namesOf (left.world.functionsByName registry) =
        right.world.namesOf (right.world.functionsByName other)) ∧
    (∀ (moment : Moment) (registry : RegistryId) (batch : Batch), moment.Reachable →
      moment.world.HasRegistry registry →
        let after := moment.world.registerBatch registry batch
        let asked := moment.requests ++ Effect.batchRequests moment.requests registry batch
        (moment.afterBatch registry batch).world = after ∧
          (∀ other, ListingsAgree moment (moment.afterBatch registry batch) other) ∧
          (Receiver.functions registry).memberNames after =
            .ok (asked.filterMap (Effect.mentioned? registry)).eraseDups ∧
          (moment.requests.any (Effect.begins registry batch) = false →
            ∀ entry ∈ batch.entries, ∃ function, function ∈ after.functionsByName registry ∧
              (Receiver.functions registry).readMember after entry.1 =
                .ok (.function function))) ∧
    ∀ (routing : Routing) (allowance : Nat) (config : Config) (steps more : List Session.Step)
      (answers moreAnswers : List (Answer × List TraceRecord)) (middle final : State),
      execute routing allowance config steps = .ok (answers, middle) →
        (runSteps routing allowance more).run middle = .ok (moreAnswers, final) →
          let asked := Session.requests routing allowance steps { config } []
          let allAsked := Session.requests routing allowance (steps ++ more) { config } []
          (∃ journal moreJournal, Reachable ⟨middle.world, [], journal⟩ ∧
            Leads ⟨middle.world, [], journal⟩ ⟨final.world, [], moreJournal⟩ ∧
            Effect.requests journal = asked ∧ Effect.requests moreJournal = allAsked ∧
            ∀ registry, ListingsAgree ⟨middle.world, [], journal⟩
              ⟨final.world, [], moreJournal⟩ registry) ∧
          (∀ registry name, (∃ effect ∈ asked, effect.mentioned? registry = some name) →
            ∃ function, function ∈ middle.world.functionsByName registry ∧
              function ∈ final.world.functionsByName registry ∧
              (Receiver.functions registry).readMember middle.world name =
                .ok (.function function) ∧
              (Receiver.functions registry).readMember final.world name =
                .ok (.function function)) ∧
          ∀ registry, (Receiver.functions registry).memberNames final.world =
            .ok (allAsked.filterMap (Effect.mentioned? registry)).eraseDups := by
  refine ⟨fun _ _ registry hearlier hleads ↦ hleads.listingsAgree hearlier registry,
    fun _ _ _ _ hleft hright ↦ hleft.namesOf_functionsByName_eq hright, ?_, ?_⟩
  · intro moment registry batch hreachable hregistry after asked
    have hagree := (leads_afterBatch hregistry batch).listingsAgree hreachable
    have hafter : (moment.afterBatch registry batch).world = after := world_afterBatch ..
    refine ⟨hafter, hagree, ?_, fun hnew entry hentry ↦ ?_⟩
    · rw [← hafter, (hagree registry).enumerated, firstMentions_eq, hreachable.requests_afterBatch]
    · obtain ⟨function, hgives, -⟩ := hreachable.gives_of_batch hregistry hnew hentry
      have hlisted := ((hagree registry).registered function).mpr
      rw [hafter] at hlisted
      exact ⟨function, hlisted ⟨entry.1, hgives.find⟩, hgives.readMember⟩
  · intro routing allowance config steps more answers moreAnswers middle final hfirst hmore asked
      allAsked
    obtain ⟨journal, moreJournal, hreachable, hleads, hasked, hallAsked⟩ :=
      execute_requests hfirst hmore
    have hagree := hleads.listingsAgree hreachable
    refine ⟨⟨journal, moreJournal, hreachable, hleads, hasked, hallAsked, hagree⟩, ?_, ?_⟩
    · intro registry name hrequested
      have hcanonical := hleads.functionsCanonical hreachable
      obtain ⟨function, hmiddle, hfinal, -⟩ := hcanonical.one_function registry name (by
        rwa [← Effect.exists_mentioned?_requests, hasked])
      have hlistedThen := Leads.listingsAgree .refl hreachable registry
      exact ⟨function, (hlistedThen.registered function).mpr ⟨name, hmiddle.find⟩,
        ((hagree registry).registered function).mpr ⟨name, hfinal.find⟩, hmiddle.readMember,
        hfinal.readMember⟩
    · intro registry
      rw [(hagree registry).enumerated, firstMentions_eq, Moment.requests, hallAsked]

/-- An object that is obtained while one name exists shows the two that come up later, of which one
is not defined, or that come up in a batch.  Another registry in which the names came up in another
order lists them alike.  A session that is continued shows what it requested. -/
theorem listings_agree_two_orders :
    let earlier := start.after [.newRegistry {}, .register ⟨0⟩ "zeta" { body := .depth }]
    let later := earlier.after [.findOrCreate ⟨0⟩ "alpha", .register ⟨0⟩ "mid" { body := .depth }]
    let other := start.after [.newRegistry {}, .findOrCreate ⟨0⟩ "mid", .findOrCreate ⟨0⟩ "zeta",
      .findOrCreate ⟨0⟩ "alpha"]
    let batch : Batch :=
      { identity := 0, entries := [("mid", { body := .depth }), ("alpha", { body := .depth })] }
    ListingsAgree earlier later ⟨0⟩ ∧ later.firstMentions ⟨0⟩ = ["zeta", "alpha", "mid"] ∧
      later.world.namesOf (later.world.functionsByName ⟨0⟩) =
        other.world.namesOf (other.world.functionsByName ⟨0⟩) ∧
      (Receiver.functions ⟨0⟩).memberNames (earlier.world.registerBatch ⟨0⟩ batch) =
        .ok ["zeta", "mid", "alpha"] ∧
      (∃ function, (Receiver.functions ⟨0⟩).readMember (earlier.world.registerBatch ⟨0⟩ batch)
        "alpha" = .ok (.function function)) ∧
      ∃ answers middle moreAnswers final,
        execute .cached 2 {} (redefinitions.take 2) = .ok (answers, middle) ∧
        (runSteps .cached 2 (redefinitions.drop 2)).run middle = .ok (moreAnswers, final) ∧
        (Receiver.functions ⟨0⟩).memberNames final.world = .ok ["f", "g", "h"] := by
  intro earlier later other batch
  have hearlier : earlier.Reachable := leads_after _ _ (by decide)
  have hleads : earlier.Leads later := leads_after _ _ (by decide)
  have hother : other.Reachable := leads_after _ _ (by decide)
  have hsame (name : String) : (later.world.find ⟨0⟩ name).1.isSome = true ↔
      (other.world.find ⟨0⟩ name).1.isSome = true := by
    refine ((hearlier.leads hleads).isSome_functionNamed? ⟨0⟩ name).trans
      (Iff.trans ?_ (hother.isSome_functionNamed? ⟨0⟩ name).symm)
    simp [earlier, later, other, after, start, Effect.mentioned?]
    tauto
  obtain ⟨hmoments, hlistings, hbatches, hsessions⟩ := listings_agree
  obtain ⟨-, -, hmembers, hnames⟩ := hbatches earlier ⟨0⟩ batch hearlier (by decide)
  obtain ⟨function, -, hread⟩ := hnames (by decide) ("alpha", { body := .depth })
    (List.mem_cons_of_mem _ List.mem_cons_self)
  obtain ⟨answers, middle, moreAnswers, final, hfirst, hmore⟩ := redefinitions_end
  obtain ⟨-, -, hshown⟩ := hsessions _ _ _ _ _ _ _ _ _ hfirst hmore
  exact ⟨hmoments earlier later ⟨0⟩ hearlier hleads, by decide,
    hlistings later other ⟨0⟩ ⟨0⟩ (hearlier.leads hleads) hother hsame,
    hmembers.trans (congrArg Except.ok (by decide)), ⟨function, hread⟩,
    answers, middle, moreAnswers, final, hfirst, hmore,
    (hshown ⟨0⟩).trans (congrArg Except.ok (by decide +kernel))⟩

end Moment

end GuestCore
