import GuestCore.Proofs.Descriptions

/-!
# The Requests of a Session

A session asks registries for functions, registrations and batches.  What it asks for can be read
off its steps, in order: the functions that a step describes, the definition or the batch that it
registers, and what the units do that it calls.  A batch is told apart from one that was registered
before by the requests themselves.  The moments through which a session goes have these requests in
their journals, and no others.
-/

namespace GuestCore

open Session

/-! ## Requests -/

namespace Effect

/-- The effect asks a registry for a function, a registration or a batch. -/
def isRequest : Effect → Bool
  | findOrCreate _ _ | register _ _ _ | beginBatch _ _ => true
  | _ => false

/-- The requests among the effects. -/
def requests (effects : List Effect) : List Effect :=
  effects.filter isRequest

/-- The effect begins the batch in the registry. -/
def begins (registry : RegistryId) (batch : Batch) : Effect → Bool
  | beginBatch other begun => other = registry ∧ begun.identity = batch.identity
  | _ => false

/-- What it means to request a batch after a history: its entries are registered unless it was
begun before. -/
def batchRequests (history : List Effect) (registry : RegistryId) (batch : Batch) : List Effect :=
  .beginBatch registry batch ::
    if history.any (begins registry batch) then [] else batch.registrations registry

theorem requests_append (first second : List Effect) :
    requests (first ++ second) = requests first ++ requests second :=
  List.filter_append ..

variable {effect : Effect} {registry : RegistryId}

theorem isDemanded_of_isRequest (hrequest : effect.isRequest = true) :
    effect.isDemanded = true := by
  cases effect with
  | findOrCreate | register | beginBatch => rfl
  | _ => cases hrequest

theorem requests_filter_isDemanded (effects : List Effect) :
    requests (effects.filter isDemanded) = requests effects := by
  rw [requests, List.filter_filter]
  refine List.filter_congr fun effect _ ↦ ?_
  cases hrequest : effect.isRequest with
  | false => rfl
  | true => rw [isDemanded_of_isRequest hrequest, Bool.and_self]

theorem isRequest_of_begins {batch : Batch} (hbegins : effect.begins registry batch = true) :
    effect.isRequest = true := by
  cases effect with
  | beginBatch => rfl
  | _ => cases hbegins

theorem any_begins_requests (registry : RegistryId) (batch : Batch) (effects : List Effect) :
    (requests effects).any (begins registry batch) = effects.any (begins registry batch) := by
  rw [requests, List.any_filter]
  refine congrArg effects.any (funext fun effect ↦ ?_)
  cases hbegins : effect.begins registry batch with
  | false => exact Bool.and_false _
  | true => rw [isRequest_of_begins hbegins, Bool.and_self]

/-- Only the requests tell which batches were begun. -/
theorem batchRequests_requests (history : List Effect) :
    batchRequests (requests history) = batchRequests history := by
  funext registry batch
  rw [batchRequests, batchRequests, any_begins_requests]

/-- What a batch requests are requests. -/
theorem requests_batchRequests (history : List Effect) (registry : RegistryId) (batch : Batch) :
    requests (batchRequests history registry batch) = batchRequests history registry batch := by
  refine List.filter_eq_self.mpr fun effect heffect ↦ ?_
  rcases List.mem_cons.mp heffect with rfl | hentry
  · rfl
  · split at hentry
    · cases hentry
    · obtain ⟨entry, -, rfl⟩ := List.mem_map.mp hentry
      rfl

end Effect

namespace Moment

variable {moment origin : Moment} {world after : World} {asked more : List Effect}

/-- The requests of all that has happened. -/
def requests (moment : Moment) : List Effect :=
  Effect.requests moment.journal

/-- At a moment of a run, a registry has a note of a batch if it was begun there. -/
theorem Reachable.batchEffects_eq (hreachable : moment.Reachable) :
    moment.world.batchEffects = Effect.batchRequests moment.requests := by
  funext registry batch
  rw [Moment.requests, Effect.batchRequests_requests, World.batchEffects, Effect.batchRequests]
  have happlied : (moment.world.registry registry).applied.contains batch.identity =
      moment.journal.any (Effect.begins registry batch) := by
    rw [Bool.eq_iff_iff, List.contains_iff_mem, hreachable.mem_applied_iff, List.any_eq_true]
    constructor
    · rintro ⟨begun, hidentity, hbegun⟩
      exact ⟨_, hbegun, by simp [Effect.begins, hidentity]⟩
    · rintro ⟨effect, heffect, hbegins⟩
      cases effect with
      | beginBatch other begun =>
        obtain ⟨rfl, hidentity⟩ : other = registry ∧ begun.identity = batch.identity := by
          simpa [Effect.begins] using hbegins
        exact ⟨begun, hidentity, heffect⟩
      | _ => cases hbegins
  rw [happlied]

/-- A run leads from the moment to the world, where the same calls are active as before, by way of
the requests. -/
def Arrives (origin : Moment) (asked : List Effect) (world : World) : Prop :=
  ∃ later : Moment, origin.Leads later ∧ later.world = world ∧ later.active = origin.active ∧
    later.requests = origin.requests ++ asked

namespace Arrives

theorem trans (hfirst : origin.Arrives asked world)
    (hnext : ∀ middle : Moment, origin.Leads middle → middle.world = world →
      middle.Arrives more after) :
    origin.Arrives (asked ++ more) after := by
  obtain ⟨middle, hleads, hworld, hactive, hrequests⟩ := hfirst
  obtain ⟨later, hmore, hafter, hstill, hmoreRequests⟩ := hnext middle hleads hworld
  refine ⟨later, hleads.trans hmore, hafter, hstill.trans hactive, ?_⟩
  rw [hmoreRequests, hrequests, List.append_assoc]

theorem effects {effects : List Effect} (hallowed : AllAllowed origin.world effects) :
    origin.Arrives (Effect.requests effects) (Effect.applyAll effects origin.world) := by
  refine ⟨origin.after effects, leads_after _ _ hallowed, world_after .., active_after .., ?_⟩
  rw [Moment.requests, journal_after, Effect.requests_append]
  rfl

theorem effect (effect : Effect) (hallowed : effect.Allowed origin.world) :
    origin.Arrives (Effect.requests [effect]) (effect.apply origin.world) :=
  effects (show AllAllowed origin.world [effect] from ⟨hallowed, trivial⟩)

theorem batch (horigin : origin.Reachable) {registry : RegistryId}
    (hregistry : origin.world.HasRegistry registry) (batch : Batch) :
    origin.Arrives (Effect.batchRequests origin.requests registry batch)
      (origin.world.registerBatch registry batch) := by
  have hallowed := World.allAllowed_batchEffects hregistry batch
  rw [← World.applyAll_batchEffects, ← Effect.requests_batchRequests, ← horigin.batchEffects_eq]
  exact effects hallowed

/-- A call that ends makes the requests that are among its events. -/
theorem call {call : PreparedCall} {routing : Routing} {allowance : Nat}
    (horigin : origin.Reachable) (hdispatcher : origin.world.HasDispatcher call.dispatcher)
    (hends : (call.perform routing allowance origin.world).world? = some world) :
    origin.Arrives (Effect.requests
      ((call.traced routing allowance origin.world).2.filterMap Event.effect?)) world := by
  have hgoes := call.traced_of_closed (Traced.goesInSteps_closed routing _) allowance
  obtain ⟨hlegal, hsteps⟩ := hgoes origin horigin hdispatcher
  rw [(call.traced_describes routing allowance origin.world).1] at hsteps
  obtain ⟨hworld, hactive⟩ := hsteps world hends
  refine ⟨_, hlegal.leads, hworld, hactive, ?_⟩
  rw [Moment.requests, journal_followAll, Effect.requests_append]
  rfl

end Arrives

end Moment

/-! ## Requests of steps -/

namespace Session

/-- What is requested to meet the demand, given the registries that names stand for. -/
def Demand.request? (registries : Members (RegistryId × DispatcherId)) : Demand → Option Effect
  | object => none
  | function registry name =>
    (registries.get? registry).map fun known ↦ .findOrCreate known.1 name

/-- The requests of a step after a history: to meet its demands, in its own right, and in the call
that it makes. -/
def stepRequests (routing : Routing) (allowance : Nat) (step : Step) (state after : State)
    (history : List Effect) : List Effect :=
  step.demands.filterMap (Demand.request? after.registries) ++
    (step.ownEffects (Effect.batchRequests history) state after ++
      Effect.requests ((stepEvents routing allowance step state).filterMap Event.effect?))

/-- The history, continued by the requests of the steps. -/
def requests (routing : Routing) (allowance : Nat) :
    List Step → State → List Effect → List Effect
  | [], _, history => history
  | step :: rest, state, history =>
    match (runStep routing allowance step).run state with
    | .ok (_, after) =>
      requests routing allowance rest after
        (history ++ stepRequests routing allowance step state after history)
    | .error _ => history

variable {origin : Moment} {routing : Routing} {allowance : Nat} {state after : State}
  {step : Step} {demands : List Demand}

/-- What meets the demands are their requests, and other effects that request nothing. -/
theorem requests_of_metBy {registries : Members (RegistryId × DispatcherId)}
    {effects : List Effect}
    (hmet : List.Forall₂ (Demand.MetBy registries) demands (effects.filter Effect.isDemanded)) :
    Effect.requests effects = demands.filterMap (Demand.request? registries) := by
  rw [← Effect.requests_filter_isDemanded]
  generalize effects.filter Effect.isDemanded = demanded at hmet
  induction hmet with
  | nil => rfl
  | cons hfirst _ ih =>
    cases hfirst with
    | object members => exact ih
    | function hknown =>
      rw [List.filterMap_cons, Demand.request?, hknown]
      exact congrArg (_ :: ·) ih

theorem State.Takes.arrives {effects : List Effect} (htakes : state.Takes effects after)
    (hworld : state.world = origin.world) (hnames : state.NamesExist) :
    origin.Arrives (Effect.requests effects) after.world := by
  rw [htakes.world_eq, hworld]
  exact .effects (hworld ▸ htakes.allowed hnames)

/-- Demands are met by their requests, also as seen from a state that knows more registries. -/
theorem State.Meets.arrives {middle : State} (hmeets : state.Meets demands middle)
    (hworld : state.world = origin.world) (hnames : state.NamesExist)
    (hkept : ∀ {name known}, middle.registries.get? name = some known →
      after.registries.get? name = some known) :
    origin.Arrives (demands.filterMap (Demand.request? after.registries)) middle.world ∧
      middle.NamesExist := by
  obtain ⟨effects, htakes, hmet⟩ := hmeets
  rw [← requests_of_metBy (hmet.imp fun _ _ ↦ .mono hkept)]
  exact ⟨htakes.arrives hworld hnames, htakes.names hnames⟩

theorem requests_ownEffects (step : Step) (history : List Effect) (state after : State) :
    Effect.requests (step.ownEffects (Effect.batchRequests history) state after) =
      step.ownEffects (Effect.batchRequests history) state after := by
  cases step with
  | register name definition registry =>
    rw [Step.ownEffects]
    split <;> rfl
  | registerBatch name registry =>
    rw [Step.ownEffects]
    split
    · exact Effect.requests_batchRequests ..
    · rfl
  | _ => rfl

/-- A step makes its requests. -/
theorem answerStep_requests (horigin : origin.Reachable) (hworld : state.world = origin.world)
    (hnames : state.NamesExist) {answer : Answer}
    (hrun : (answerStep routing allowance step).run state = .ok (answer, after)) :
    origin.Arrives (stepRequests routing allowance step state after origin.requests)
      after.world := by
  unfold stepRequests
  cases hprepare : prepareCall? step with
  | none =>
    obtain ⟨middle, hmeets, htakes⟩ := answerStep_completes hprepare hrun
    obtain ⟨hdemands, hmiddle⟩ := hmeets.arrives hworld hnames htakes.registries
    refine hdemands.trans fun later _ hlater ↦ ?_
    rw [hworld, horigin.batchEffects_eq] at htakes
    rw [stepEvents_of_quiet hprepare, ← requests_ownEffects, ← Effect.requests_append,
      List.filterMap_nil, List.append_nil]
    exact htakes.arrives hlater.symm hmiddle
  | some prepare =>
    obtain ⟨call, prepared, hready, houtcome, hafter⟩ := prepared_of_answerStep hprepare hrun
    obtain ⟨-, -, hdispatcher⟩ := prepareCall_reaches horigin hworld hnames hprepare hready
    have hkept {name known} (hname : prepared.registries.get? name = some known) :
        after.registries.get? name = some known := by
      rw [hafter]
      exact hname
    obtain ⟨hdemands, -⟩ := (prepareCall_meets hprepare hready).arrives hworld hnames hkept
    have hown : step.ownEffects (Effect.batchRequests origin.requests) state after = [] := by
      cases step with
      | register | registerBatch => cases hprepare
      | _ => rfl
    rw [hown, List.nil_append, stepEvents_of_prepared hprepare hready]
    refine hdemands.trans fun later hleads hlater ↦ ?_
    rw [← hlater] at hdispatcher houtcome ⊢
    exact .call (horigin.leads hleads) hdispatcher houtcome

/-- A session makes its requests, from any moment at which it may begin. -/
theorem runSteps_requests (horigin : origin.Reachable) (hworld : state.world = origin.world)
    (hnames : state.NamesExist) {steps : List Step} {final : State}
    {answers : List (Answer × List TraceRecord)}
    (hrun : (runSteps routing allowance steps).run state = .ok (answers, final)) :
    ∃ later : Moment, origin.Leads later ∧ later.world = final.world ∧
      later.active = origin.active ∧
      later.requests = requests routing allowance steps state origin.requests := by
  induction steps generalizing origin state answers with
  | nil =>
    cases hrun
    exact ⟨origin, .refl, hworld.symm, rfl, rfl⟩
  | cons step rest ih =>
    obtain ⟨answer, middle, others, hstep, hrest, -⟩ := runSteps_cons_ok hrun
    have hanswer := (answerStep_ok_of_runStep hstep).1
    obtain ⟨-, hmiddle⟩ := answerStep_reaches horigin hworld hnames hanswer
    obtain ⟨next, hleads, hnext, hactive, hrequests⟩ :=
      answerStep_requests horigin hworld hnames hanswer
    obtain ⟨later, hlater, hfinal, hstill, hmore⟩ :=
      ih (horigin.leads hleads) hnext.symm hmiddle hrest
    refine ⟨later, hleads.trans hlater, hfinal, hstill.trans hactive, ?_⟩
    rw [hmore, hrequests, requests, hstep]

theorem requests_append {before : List Step} {middle : State} {history : List Effect}
    {answers : List (Answer × List TraceRecord)}
    (hbefore : (runSteps routing allowance before).run state = .ok (answers, middle))
    (rest : List Step) :
    requests routing allowance (before ++ rest) state history =
      requests routing allowance rest middle (requests routing allowance before state history) := by
  induction before generalizing state history answers with
  | nil =>
    cases hbefore
    rfl
  | cons step others ih =>
    obtain ⟨answer, next, later, hstep, hothers, -⟩ := runSteps_cons_ok hbefore
    rw [List.cons_append, requests, requests, hstep]
    exact ih hothers

end Session

end GuestCore
