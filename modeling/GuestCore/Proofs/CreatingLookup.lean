import GuestCore.Proofs.Alike.Sessions

/-!
# Lookups That Create Names

A lookup may create a function that has no definition yet.  No call can tell: an absent name and a
name without a definition fail in the same way, and a definition that comes later replaces nothing
that was ever run.  So lookups may be added to a session between its steps, before its calls and
inside everything that the calls run, and all calls still end as they did.
-/

namespace GuestCore

open Session

variable {loose : RegistryId → String → Bool} {stage : Stage}

/-! ## Sessions with interruptions -/

namespace Session

/-- The state with another world. -/
def State.inWorld (state : State) (world : World) : State :=
  { state with world }

section

variable (loose : RegistryId → String → Bool) (routing : Routing) (allowance : Nat)

/-- The ways in which a step may end that may be interrupted before it begins and at every point of
its call. -/
inductive StepMayEnd (step : Step) (state : State) : Except Malformed (Answer × State) → Prop where
  | quiet {between : World} (hinterrupted : state.world.Interrupted loose between)
      (hquiet : prepareCall? step = none) :
    StepMayEnd step state ((answerStep routing allowance step).run (state.inWorld between))
  | unprepared {between : World} {prepare : Script PreparedCall} {malformed : Malformed}
      (hinterrupted : state.world.Interrupted loose between)
      (hprepare : prepareCall? step = some prepare)
      (herror : prepare.run (state.inWorld between) = .error malformed) :
    StepMayEnd step state (.error malformed)
  | called {between : World} {prepare : Script PreparedCall} {call : PreparedCall}
      {prepared : State} {outcome : Outcome Value}
      (hinterrupted : state.world.Interrupted loose between)
      (hprepare : prepareCall? step = some prepare)
      (hready : prepare.run (state.inWorld between) = .ok (call, prepared))
      (hcall : call.possibly loose routing allowance prepared.world outcome) :
    StepMayEnd step state (call.conclude prepared outcome)

/-- The ways in which a session may end that may be interrupted at every point. -/
inductive MayEnd : List Step → State → Except Malformed (List Answer × State) → Prop where
  | nil {state : State} {between : World}
      (hinterrupted : state.world.Interrupted loose between) :
    MayEnd [] state (.ok ([], state.inWorld between))
  | error {step : Step} {state : State} {malformed : Malformed} (rest : List Step)
      (hstep : StepMayEnd loose routing allowance step state (.error malformed)) :
    MayEnd (step :: rest) state (.error malformed)
  | cons {step : Step} {rest : List Step} {state middle : State} {answer : Answer}
      {result : Except Malformed (List Answer × State)}
      (hstep : StepMayEnd loose routing allowance step state (.ok (answer, middle)))
      (hrest : MayEnd rest middle result) :
    MayEnd (step :: rest) state (result.map fun others ↦ (answer :: others.1, others.2))

end

/-- The result of a session without what was traced. -/
def untold (result : Except Malformed (List (Answer × List TraceRecord) × State)) :
    Except Malformed (List Answer × State) :=
  result.map fun told ↦ (told.1.map Prod.fst, told.2)

theorem untold_map_cons (first : Answer × List TraceRecord)
    (result : Except Malformed (List (Answer × List TraceRecord) × State)) :
    untold (result.map fun others ↦ (first :: others.1, others.2)) =
      (untold result).map fun others ↦ (first.1 :: others.1, others.2) := by
  cases result <;> rfl

/-- All calls among the steps of a session tell the same. -/
inductive AnswersAlike (loose : RegistryId → String → Bool) :
    List Step → List Answer → List Answer → Prop where
  | nil : AnswersAlike loose [] [] []
  | cons {step : Step} {steps : List Step} {answer other : Answer} {answers others : List Answer}
      (hcall : (prepareCall? step).isSome = true → answer.CallAlike loose other)
      (hrest : AnswersAlike loose steps answers others) :
    AnswersAlike loose (step :: steps) (answer :: answers) (other :: others)

/-! ## Interruptions make no difference -/

section

variable {routing : Routing} {allowance : Nat} {left right : State}

theorem State.AlikeAt.interrupted (hstates : State.AlikeAt loose stage left right)
    {between : World} (hinterrupted : right.world.Interrupted loose between) :
    State.AlikeAt loose stage left (right.inWorld between) :=
  { hstates with world := hstates.world.interrupted hinterrupted }

theorem StepMayEnd.alike {step : Step} {result : Except Malformed (Answer × State)}
    (hends : StepMayEnd loose routing allowance step right result)
    (hstates : State.AlikeAt loose stage left right) :
    ResultsAlike loose stage
      (fun _ answer other ↦ (prepareCall? step).isSome = true → answer.CallAlike loose other)
      ((answerStep routing allowance step).run left) result := by
  cases hends with
  | quiet hinterrupted hquiet =>
    have hresults := answerStep_alike hquiet routing allowance le_rfl
      (hstates.interrupted hinterrupted)
    rw [hquiet]
    exact hresults.imp fun _ ↦ nofun
  | @unprepared between prepare _ hinterrupted hprepare herror =>
    have hresults := prepareCall_alike hprepare le_rfl (hstates.interrupted hinterrupted)
    rw [run_answerStep_of_prepared hprepare]
    rw [herror] at hresults
    generalize prepare.run left = leftResult at hresults
    cases hresults with
    | error => exact .error _
  | @called between prepare call prepared outcome hinterrupted hprepare hready hcall =>
    have hresults := prepareCall_alike hprepare le_rfl (hstates.interrupted hinterrupted)
    rw [run_answerStep_of_prepared hprepare]
    rw [hready] at hresults
    generalize prepare.run left = leftResult at hresults
    cases hresults with
    | ok hlast hcalls hprepared =>
      have hpredicted := hcalls.predicts routing allowance le_rfl hprepared.world hcall
      have hconcluded := (hcalls.conclude hprepared hpredicted).of_later hlast
      exact hconcluded.imp fun hanswer _ ↦ hanswer

/-- However often a session is interrupted, it ends as it would have ended otherwise. -/
theorem MayEnd.alike {steps : List Step} {result : Except Malformed (List Answer × State)}
    (hends : MayEnd loose routing allowance steps right result)
    (hstates : State.AlikeAt loose stage left right) :
    ResultsAlike loose stage (fun _ ↦ AnswersAlike loose steps)
      (untold ((runSteps routing allowance steps).run left)) result := by
  induction hends generalizing stage left with
  | nil hinterrupted => exact .ok le_rfl .nil (hstates.interrupted hinterrupted)
  | error rest hstep =>
    have hresults := hstep.alike hstates
    rw [run_runSteps_cons, run_runStep]
    generalize (answerStep routing allowance _).run left = leftResult at hresults
    cases hresults with
    | error => exact .error _
  | @cons step rest state middle answer result hstep hrest ih =>
    have hresults := hstep.alike hstates
    rw [run_runSteps_cons, run_runStep]
    generalize (answerStep routing allowance step).run left = leftResult at hresults
    cases hresults with
    | @ok last first _ leftMiddle _ hlast hanswer hmiddle =>
      have hothers := (ih hmiddle).of_later hlast
      change ResultsAlike loose stage _
        (untold (((runSteps routing allowance rest).run leftMiddle).map fun others ↦
          ((first, _) :: others.1, others.2))) _
      rw [untold_map_cons]
      generalize untold ((runSteps routing allowance rest).run leftMiddle) = leftRest at hothers
      cases hothers with
      | error => exact .error _
      | ok hmore hanswers hafter => exact .ok hmore (.cons hanswer hanswers) hafter

end

/-! ## Inserted lookups -/

section

variable {routing : Routing} {allowance : Nat} {state : State}

/-- A step may end as it does after an interruption. -/
theorem StepMayEnd.of_run {between : World} (hinterrupted : state.world.Interrupted loose between)
    (step : Step) :
    StepMayEnd loose routing allowance step state
      ((answerStep routing allowance step).run (state.inWorld between)) := by
  cases hprepare : prepareCall? step with
  | none => exact .quiet hinterrupted hprepare
  | some prepare =>
    rw [run_answerStep_of_prepared hprepare]
    cases hready : prepare.run (state.inWorld between) with
    | error malformed => exact .unprepared hinterrupted hprepare hready
    | ok ready =>
      exact .called hinterrupted hprepare hready
        (ready.1.possibly_perform loose routing allowance ready.2.world)

/-- A session may end as it does after an interruption. -/
theorem MayEnd.of_run {between : World} (hinterrupted : state.world.Interrupted loose between)
    (steps : List Step) :
    MayEnd loose routing allowance steps state
      (untold ((runSteps routing allowance steps).run (state.inWorld between))) := by
  induction steps generalizing state between with
  | nil => exact .nil hinterrupted
  | cons step rest ih =>
    have hstep : StepMayEnd loose routing allowance step state _ := .of_run hinterrupted step
    rw [run_runSteps_cons, run_runStep]
    generalize (answerStep routing allowance step).run (state.inWorld between) = result at hstep
    cases result with
    | error malformed => exact .error rest hstep
    | ok first =>
      change MayEnd loose routing allowance _ state
        (untold (((runSteps routing allowance rest).run first.2).map fun others ↦
          ((first.1, _) :: others.1, others.2)))
      rw [untold_map_cons]
      exact .cons hstep (ih .not)

/-- The first steps of a session end without interruptions. -/
theorem MayEnd.append {before after : List Step} {middle : State}
    {answers : List (Answer × List TraceRecord)} {result : Except Malformed (List Answer × State)}
    (hbefore : (runSteps routing allowance before).run state = .ok (answers, middle))
    (hafter : MayEnd loose routing allowance after middle result) :
    MayEnd loose routing allowance (before ++ after) state
      (result.map fun others ↦ (answers.map Prod.fst ++ others.1, others.2)) := by
  induction before generalizing state answers with
  | nil =>
    cases hbefore
    have hsame : (result.map fun others ↦
        (([] : List (Answer × List TraceRecord)).map Prod.fst ++ others.1, others.2)) = result := by
      cases result <;> rfl
    rw [hsame]
    exact hafter
  | cons step rest ih =>
    obtain ⟨answer, next, others, hstep, hrest, rfl⟩ := runSteps_cons_ok hbefore
    have hfirst : StepMayEnd loose routing allowance step state _ :=
      .of_run .not step
    rw [State.inWorld, (answerStep_ok_of_runStep hstep).1] at hfirst
    have hends := MayEnd.cons hfirst (ih hrest)
    have hsame : (result.map fun told ↦ ((answer :: others).map Prod.fst ++ told.1, told.2)) =
        (result.map fun told ↦ (others.map Prod.fst ++ told.1, told.2)).map fun told ↦
          (answer.1 :: told.1, told.2) := by
      cases result <;> rfl
    rw [hsame]
    exact hends

/-- A step that looks a name up does to the world what an interruption does. -/
theorem run_lookup {registryName : String} {registry : RegistryId} {dispatcher : DispatcherId}
    (hknown : state.registries.get? registryName = some (registry, dispatcher)) (name : String) :
    ∃ answer, (runStep routing allowance (.lookup name true registryName)).run state =
      .ok (answer, state.inWorld (state.world.findOrCreate registry name).2) := by
  have hanswer : (answerStep routing allowance (.lookup name true registryName)).run state =
      .ok (.function (some (.ofState ((state.world.findOrCreate registry name).2.functionState
        (state.world.findOrCreate registry name).1))),
        state.inWorld (state.world.findOrCreate registry name).2) := by
    rw [answerStep, StateT.run_bind, Script.run_registry, hknown]
    rfl
  rw [run_runStep, hanswer]
  exact ⟨_, rfl⟩

end

/-! ## The start of a session -/

/-- There is nothing yet. -/
def startStage : Stage where
  functions _ _ := False
  objects _ := False
  registries _ := False
  dispatchers _ := False

theorem alikeAt_start (loose : RegistryId → String → Bool) (config : Config) :
    State.AlikeAt loose startStage { config } { config } where
  config_eq := rfl
  world :=
    { soundLeft := Moment.Reachable.start.sound
      soundRight := Moment.Reachable.start.sound
      functions_iff := ⟨False.elim, fun ⟨_, _, hnamed, _⟩ ↦ nomatch hnamed⟩
      named := fun _ _ ↦ .absent
      listed_eq := fun _ ↦ rfl
      size_registries_eq := rfl
      config_eq := fun _ ↦ rfl
      applied_eq := fun _ ↦ rfl
      dispatchers_eq := rfl
      objects_iff := ⟨False.elim, fun hobject ↦ absurd hobject (Nat.not_lt_zero _)⟩
      size_objects_eq := rfl
      members := fun _ _ ↦ .nil
      sites := fun _ ↦ ⟨.nil, rfl, rfl, rfl⟩
      nextIdentity_eq := rfl
      hasRegistry := False.elim
      hasDispatcher := False.elim }
  registries_eq := rfl
  batches := .nil
  slots := .nil
  names := nofun

section

variable {routing : Routing} {allowance : Nat} {config : Config} {before : List Step}
  {answers : List (Answer × List TraceRecord)} {state : State}

/-- The state that a session leads to is like itself. -/
theorem exists_alikeAt_self
    (hbefore : execute routing allowance config before = .ok (answers, state))
    (loose : RegistryId → String → Bool) :
    ∃ stage, startStage ≤ stage ∧ State.AlikeAt loose stage state state := by
  have hends : MayEnd loose routing allowance before { config } _ := .of_run .not before
  have hresults := hends.alike (alikeAt_start loose config)
  change ResultsAlike _ _ _ (untold (execute routing allowance config before))
    (untold (execute routing allowance config before)) at hresults
  rw [hbefore] at hresults
  cases hresults with
  | ok hlast _ hstates => exact ⟨_, hlast, hstates⟩

/-- A session with an inserted lookup is the session with an interruption, but for the answer of
the lookup. -/
theorem MayEnd.of_inserted
    (hbefore : execute routing allowance config before = .ok (answers, state))
    {registryName : String} {registry : RegistryId} {dispatcher : DispatcherId}
    (hknown : state.registries.get? registryName = some (registry, dispatcher)) {name : String}
    (hloose : loose registry name = true) (after : List Step) :
    MayEnd loose routing allowance (before ++ after) { config }
      ((untold (execute routing allowance config
        (before ++ .lookup name true registryName :: after))).map
          fun told ↦ (told.1.eraseIdx answers.length, told.2)) := by
  obtain ⟨stage, -, hself⟩ := exists_alikeAt_self hbefore loose
  have hexists := hself.world.hasRegistry (hself.names _ _ hknown).1
  obtain ⟨answer, hlookup⟩ : ∃ answer,
      (runStep routing allowance (.lookup name true registryName)).run state = .ok (answer, _) :=
    run_lookup hknown name
  have hends := MayEnd.append hbefore (.of_run (.lookup hloose hexists) after)
  have hinserted : execute routing allowance config
      (before ++ .lookup name true registryName :: after) = _ :=
    run_runSteps_append hbefore _
  rw [hinserted, run_runSteps_of_ok hlookup]
  generalize (runSteps routing allowance after).run _ = result at hends ⊢
  cases result with
  | error malformed => exact hends
  | ok told =>
    have herase : ((answers ++ answer :: told.1).map Prod.fst).eraseIdx answers.length =
        answers.map Prod.fst ++ told.1.map Prod.fst := by
      rw [List.map_append, List.eraseIdx_append_of_length_le (by simp)]
      simp
    change MayEnd loose routing allowance _ _ (.ok (_, told.2))
    rw [herase]
    exact hends

end

end Session

/-! ## Unresolved names -/

/-- The name has no definition, whether it is there or not. -/
def World.Unresolved (world : World) (registry : RegistryId) (name : String) : Prop :=
  ∀ state, world.stateNamed? registry name = some state → state.definition = none

/-- The route leads to what a name has in a registry. -/
def Route.LeadsTo (world : World) (dispatcher : DispatcherId) (registry : RegistryId)
    (name : String) : Route → Prop
  | direct callee | executed callee | throughSite _ callee =>
    world.functionNamed? registry name = some callee
  | named called => (world.dispatcher dispatcher).registry = registry ∧ called = name

theorem Dispatch.call_of_unresolved {world : World} (hsound : world.Sound) {registry : RegistryId}
    {name : String} {function : FunctionId}
    (hfunction : world.functionNamed? registry name = some function)
    (hunresolved : world.Unresolved registry name) (run : Runner) (dispatcher : DispatcherId)
    (arguments : List Value) :
    call run dispatcher function arguments world = .raised (.undefinedFunction name) world := by
  have hundefined : (world.functionState function).definition = none :=
    hunresolved _ (by rw [World.stateNamed?, hfunction]; rfl)
  simp only [call, hundefined, hsound.canonical.name_eq hfunction]

/-- By whatever route an unresolved name is called, the fault names it. -/
theorem Route.call_of_unresolved {world : World} (hsound : world.Sound) {registry : RegistryId}
    {name : String} {dispatcher : DispatcherId} {route : Route}
    (hroute : route.LeadsTo world dispatcher registry name)
    (hunresolved : world.Unresolved registry name) (routing : Routing) (run : Runner)
    (arguments : List Value) :
    ∃ after, route.call routing run dispatcher arguments world =
      .raised (.undefinedFunction name) after := by
  cases route with
  | direct callee | executed callee =>
    exact ⟨world, Dispatch.call_of_unresolved hsound hroute hunresolved run dispatcher arguments⟩
  | named called =>
    obtain ⟨rfl, rfl⟩ := hroute
    have hlogged : (world.log (.lookup called false)).Sound := hsound.congr rfl rfl rfl rfl
    simp only [call, Dispatch.callNamed, World.find]
    cases hname : world.functionNamed? (world.dispatcher dispatcher).registry called with
    | none => exact ⟨_, rfl⟩
    | some function =>
      exact ⟨_, Dispatch.call_of_unresolved hlogged hname hunresolved run dispatcher arguments⟩
  | throughSite site callee =>
    cases routing with
    | generic =>
      exact ⟨world, Dispatch.call_of_unresolved hsound hroute hunresolved run dispatcher arguments⟩
    | cached =>
      have hvisible := world.visible_noteCall dispatcher site callee
      have hnoted : (world.noteCall dispatcher site callee).Sound :=
        hsound.effect (.noteCall dispatcher site callee) trivial
      have hnamed : (world.noteCall dispatcher site callee).functionNamed? registry name =
          world.functionNamed? registry name :=
        World.eq_of_visible_eq (fun world ↦ world.functionNamed? registry name) (fun _ ↦ rfl)
          hvisible
      have hstate : (world.noteCall dispatcher site callee).stateNamed? registry name =
          world.stateNamed? registry name :=
        World.eq_of_visible_eq (fun world ↦ world.stateNamed? registry name) (fun _ ↦ rfl) hvisible
      have hstill : (world.noteCall dispatcher site callee).Unresolved registry name := by
        rw [World.Unresolved, hstate]
        exact hunresolved
      simp only [call, Dispatch.callAt]
      rw [hsound.coherent.callThroughCache_eq_call]
      exact ⟨_, Dispatch.call_of_unresolved hnoted (hnamed.trans hroute) hstill run dispatcher
        arguments⟩

namespace Session

/-! ## Creating lookups are invisible -/

/-- One name of one registry. -/
def onlyName (registry : RegistryId) (name : String) : RegistryId → String → Bool :=
  fun other asked ↦ other = registry && asked = name

/-- A session in which a name is looked up at any points, and created if it is new, ends as the
session without these lookups: with the same error, or with alike answers of all calls and in alike
states.  The values of calls are alike, so that functions in them have the same name in the same
registry.  In particular a step may be inserted that looks the name up.  Calls of a name without a
definition raise the same fault whether the name is there or not. -/
theorem creating_lookup_invisible (routing : Routing) (allowance : Nat) (config : Config)
    (registry : RegistryId) (name : String) :
    (∀ (steps : List Step) (result : Except Malformed (List Answer × State)),
      MayEnd (onlyName registry name) routing allowance steps { config } result →
        ResultsAlike (onlyName registry name) startStage
          (fun _ ↦ AnswersAlike (onlyName registry name) steps)
          (untold (execute routing allowance config steps)) result) ∧
    (∀ (stage : Stage) (left right : State) (call other : PreparedCall) (outcome : Outcome Value),
      State.AlikeAt (onlyName registry name) stage left right → call.Alike stage other →
        other.possibly (onlyName registry name) routing allowance right.world outcome →
          Outcome.Alike (onlyName registry name) stage Value.Alike
            (call.perform routing allowance left.world) outcome) ∧
    (∀ (before after : List Step) (answers : List (Answer × List TraceRecord)) (state : State)
      (registryName : String) (dispatcher : DispatcherId),
      execute routing allowance config before = .ok (answers, state) →
        state.registries.get? registryName = some (registry, dispatcher) →
          ResultsAlike (onlyName registry name) startStage
            (fun _ ↦ AnswersAlike (onlyName registry name) (before ++ after))
            (untold (execute routing allowance config (before ++ after)))
            ((untold (execute routing allowance config
              (before ++ .lookup name true registryName :: after))).map
                fun told ↦ (told.1.eraseIdx answers.length, told.2))) ∧
    (∀ (moment : Moment) (dispatcher : DispatcherId) (route : Route) (run : Runner)
      (arguments : List Value), moment.Reachable →
        route.LeadsTo moment.world dispatcher registry name →
          moment.world.Unresolved registry name →
            ∃ after, route.call routing run dispatcher arguments moment.world =
              .raised (.undefinedFunction name) after) := by
  have hstart := alikeAt_start (onlyName registry name) config
  refine ⟨fun steps result hends ↦ hends.alike hstart, ?_, ?_, ?_⟩
  · intro stage left right call other outcome hstates hcall houtcome
    exact hcall.predicts routing allowance le_rfl hstates.world houtcome
  · intro before after answers state registryName dispatcher hbefore hknown
    have hloose : onlyName registry name registry name = true := by simp [onlyName]
    exact (MayEnd.of_inserted hbefore hknown hloose after).alike hstart
  · intro moment dispatcher route run arguments hreachable hroute hunresolved
    exact route.call_of_unresolved hreachable.sound hroute hunresolved routing run arguments

/-- A function is called before it has a definition. -/
def earlyCall : List Step :=
  [.call (.named "f") [] "main"]

/-- The function gets its definition, and is called through a site and by name. -/
def lateDefinition : List Step :=
  [.register "f" { body := .constant (.integer 1) } "main",
    .call (.throughSite "site" (.function "f" "main")) [] "main", .call (.named "f") [] "main"]

/-- With a lookup after the first call the definition is a redefinition, which no call tells. -/
theorem creating_lookup_invisible_late_definition :
    (∃ answers state, execute .cached 2 {} earlyCall = .ok (answers, state) ∧
      state.registries.get? "main" = some (⟨0⟩, ⟨0⟩) ∧
        ResultsAlike (onlyName ⟨0⟩ "f") startStage
          (fun _ ↦ AnswersAlike (onlyName ⟨0⟩ "f") (earlyCall ++ lateDefinition))
          (untold (execute .cached 2 {} (earlyCall ++ lateDefinition)))
          ((untold (execute .cached 2 {}
            (earlyCall ++ .lookup "f" true "main" :: lateDefinition))).map
              fun told ↦ (told.1.eraseIdx answers.length, told.2)) ∧
        ∃ stage, Outcome.Alike (onlyName ⟨0⟩ "f") stage Value.Alike
          ((Route.named "f").call .cached (run .cached 2) ⟨0⟩ [] state.world)
          ((Route.named "f").call .cached (run .cached 2) ⟨0⟩ [] state.world)) ∧
    (execute .cached 2 {} (earlyCall ++ lateDefinition)).toOption.map
      (fun result ↦ (result.2.world.functionState ⟨0⟩).generation) = some 0 ∧
    (execute .cached 2 {} (earlyCall ++ .lookup "f" true "main" :: lateDefinition)).toOption.map
      (fun result ↦ (result.2.world.functionState ⟨0⟩).generation) = some 1 ∧
    ResultsAlike (onlyName ⟨0⟩ "f") startStage
      (fun _ ↦ AnswersAlike (onlyName ⟨0⟩ "f") lateDefinition)
      (untold (execute .cached 2 {} lateDefinition))
      (untold (execute .cached 2 {} lateDefinition)) ∧
    ∃ after, (Route.named "f").call .cached (run .cached 2) ⟨0⟩ [] Moment.start.world =
      .raised (.undefinedFunction "f") after := by
  have hinvisible := creating_lookup_invisible .cached 2 {} ⟨0⟩ "f"
  refine ⟨⟨_, _, rfl, rfl, hinvisible.2.2.1 earlyCall lateDefinition _ _ "main" ⟨0⟩ rfl rfl, ?_⟩,
    by decide +kernel, by decide +kernel, hinvisible.1 lateDefinition _ (.of_run .not _),
    hinvisible.2.2.2 .start ⟨0⟩ (.named "f") _ [] .start ⟨rfl, rfl⟩ nofun⟩
  obtain ⟨stage, -, hself⟩ := exists_alikeAt_self
    (rfl : execute .cached 2 {} earlyCall = .ok (_, _)) (onlyName ⟨0⟩ "f")
  let call : PreparedCall :=
    { callable := .route (.named "f"), dispatcher := ⟨0⟩, arguments := [], reply := .result }
  have hdispatcher : stage.dispatchers ⟨0⟩ := (hself.names "main" (⟨0⟩, ⟨0⟩) rfl).2
  have hcall : call.Alike stage call := ⟨.route (.named "f"), .nil, rfl, rfl, hdispatcher⟩
  exact ⟨stage, hinvisible.2.1 stage _ _ call call _ hself hcall (call.possibly_perform ..)⟩

end Session

end GuestCore
