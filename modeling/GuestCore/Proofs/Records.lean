import GuestCore.Proofs.SessionEvents

/-!
# The Records of a Run

Each effect writes certain records, which can be read off the world before it.  Nothing else writes
to the trace and nothing is ever taken from it, so the trace of a run is what its effects wrote, one
after the other, and a session hands it out step by step.
-/

namespace GuestCore

open Session

/-! ## What effects write -/

namespace World

variable (world : World)

@[simp]
theorem trace_log (record : TraceRecord) : (world.log record).trace = world.trace ++ [record] :=
  List.reverse_cons

@[simp]
theorem trace_foldl_log (records : List TraceRecord) :
    (records.foldl World.log world).trace = world.trace ++ records := by
  induction records generalizing world with
  | nil => exact (List.append_nil _).symm
  | cons record rest ih =>
    rw [List.foldl_cons, ih, trace_log, List.append_assoc, List.cons_append, List.nil_append]

@[simp]
theorem trace_setSite (name : String) (site : Site) :
    (world.setSite name site).trace = world.trace := rfl

@[simp]
theorem trace_modifyRegistry (registry : RegistryId) (change : Registry → Registry) :
    (world.modifyRegistry registry change).trace = world.trace := rfl

@[simp]
theorem trace_modifyFunction (function : FunctionId) (change : FunctionState → FunctionState) :
    (world.modifyFunction function change).trace = world.trace := rfl

@[simp]
theorem trace_addFunction (registry : RegistryId) (name : String)
    (definition : Option Definition) :
    (world.addFunction registry name definition).2.trace = world.trace := rfl

/-- What is written when a site could not serve a call. -/
def slowCallRecords (dispatcher : DispatcherId) (siteName : String) (function : FunctionId) :
    List TraceRecord :=
  let callee := world.functionState function
  match callee.definition with
  | none => []
  | some definition =>
    ((world.site siteName).countSlow.learn (world.configOf dispatcher).cacheLimit callee.name
      { function, definition, generation := callee.generation }).2

theorem trace_noteSlowCall (dispatcher : DispatcherId) (siteName : String)
    (function : FunctionId) :
    (world.noteSlowCall dispatcher siteName function).trace =
      world.trace ++ world.slowCallRecords dispatcher siteName function := by
  unfold noteSlowCall slowCallRecords
  dsimp only
  cases (world.functionState function).definition with
  | none => exact (List.append_nil _).symm
  | some definition => rw [trace_foldl_log, trace_setSite]

/-- What is written when a call is made through a site, up to the call itself. -/
def callRecords (dispatcher : DispatcherId) (siteName : String) (function : FunctionId) :
    List TraceRecord :=
  let callee := world.functionState function
  match (world.site siteName).consult function callee.published with
  | .current _ => [.fastPathHit callee.name]
  | .stale cached =>
    .generationMismatch callee.name cached callee.published ::
      world.slowCallRecords dispatcher siteName function
  | .unknown => world.slowCallRecords dispatcher siteName function

theorem trace_noteCall (dispatcher : DispatcherId) (siteName : String) (function : FunctionId) :
    (world.noteCall dispatcher siteName function).trace =
      world.trace ++ world.callRecords dispatcher siteName function := by
  unfold noteCall callRecords
  dsimp only
  cases (world.site siteName).consult function (world.functionState function).published with
  | current definition => rw [trace_setSite, trace_log]
  | stale cached =>
    rw [trace_noteSlowCall, trace_log, List.append_assoc]
    rfl
  | unknown => exact world.trace_noteSlowCall dispatcher siteName function

end World

/-- Whether the record tells of what a call site remembers. -/
def TraceRecord.isOfSite : TraceRecord → Bool
  | fastPathHit _ | generationMismatch _ _ _ | refreshedSite _ _ | megamorphicSite _ _ => true
  | _ => false

theorem Site.isOfSite_learn (site : Site) (limit : Nat) (name : String) (target : SiteTarget) :
    ∀ record ∈ (site.learn limit name target).2, record.isOfSite = true := by
  unfold learn
  split
  · exact nofun
  split
  · exact List.forall_mem_singleton.mpr rfl
  split
  · exact List.forall_mem_singleton.mpr rfl
  · exact nofun

namespace World

variable (world : World) (dispatcher : DispatcherId) (siteName : String) (function : FunctionId)

theorem isOfSite_slowCallRecords :
    ∀ record ∈ world.slowCallRecords dispatcher siteName function, record.isOfSite = true := by
  unfold slowCallRecords
  dsimp only
  cases (world.functionState function).definition with
  | none => exact nofun
  | some definition => exact Site.isOfSite_learn _ _ _ _

/-- A call through a site writes about the site alone. -/
theorem isOfSite_callRecords :
    ∀ record ∈ world.callRecords dispatcher siteName function, record.isOfSite = true := by
  have hslow := world.isOfSite_slowCallRecords dispatcher siteName function
  unfold callRecords
  dsimp only
  cases (world.site siteName).consult function (world.functionState function).published with
  | current definition => exact List.forall_mem_singleton.mpr rfl
  | stale cached => exact List.forall_mem_cons.mpr ⟨rfl, hslow⟩
  | unknown => exact hslow

end World

namespace Effect

/-- What the effect writes. -/
def records (world : World) : Effect → List TraceRecord
  | find _ name => [.lookup name false]
  | findOrCreate registry name =>
    .lookup name true ::
      if (world.functionNamed? registry name).isSome then [] else [.createdUndefined name]
  | register registry name definition =>
    let (function, after) := world.register registry name definition
    [.register name, .installed name (after.functionState function).generation]
  | beginBatch registry batch =>
    .registerBatch batch.entries.length ::
      if (world.registry registry).applied.contains batch.identity then [.repeatedBatch] else []
  | noteCall dispatcher site function => world.callRecords dispatcher site function
  | refuseCall name limit => [.depthExceeded name limit]
  | _ => []

theorem trace_apply (effect : Effect) (world : World) :
    (effect.apply world).trace = world.trace ++ effect.records world := by
  cases effect with
  | find registry name => exact world.trace_log (.lookup name false)
  | findOrCreate registry name =>
    cases hname : world.functionNamed? registry name with
    | some function => simp [apply, records, World.findOrCreate_of_some hname, hname]
    | none => simp [apply, records, World.findOrCreate_of_none hname, hname]
  | register registry name definition =>
    cases hname : world.functionNamed? registry name with
    | some function =>
      simp only [apply, records, World.register_of_some definition hname, World.trace_log,
        World.trace_modifyFunction, List.append_assoc]
      rfl
    | none =>
      -- A new function is at generation zero.
      have hstate : ((world.register registry name definition).2.functionState
          (world.register registry name definition).1).generation = 0 := by
        rw [World.register_of_none definition hname]
        exact congrArg FunctionState.generation
          ((Table.get_push world.functions { name, definition } _).trans (if_pos rfl))
      simp only [apply, records, hstate]
      simp [World.register_of_none definition hname]
  | beginBatch registry batch =>
    rw [apply, World.beginBatch, records]
    change World.trace (if (world.registry registry).applied.contains batch.identity then _
      else _) = _
    split <;> simp
  | noteCall dispatcher site function => exact world.trace_noteCall dispatcher site function
  | refuseCall name limit => exact world.trace_log (.depthExceeded name limit)
  | freshIdentity | newObject | writeMember | setMembers | newRegistry | newDispatcher =>
    exact (List.append_nil _).symm

end Effect

/-! ## The trace only grows -/

/-- From one moment to a later one, the trace is continued. -/
theorem Moment.Leads.trace_prefix {earlier later : Moment} (hleads : earlier.Leads later) :
    earlier.world.trace <+: later.world.trace := by
  apply hleads.preserves (motive := fun moment ↦ earlier.world.trace <+: moment.world.trace)
  · intro before after hbefore step
    cases step with
    | effect effect _ =>
      rw [effect.trace_apply]
      exact hbefore.trans (List.prefix_append _ _)
    | enter | leave => exact hbefore
  · exact List.prefix_refl _

namespace Session

/-- The records since some world are those by which its trace was continued. -/
theorem recordsSince_of_trace {earlier later : World} {records : List TraceRecord}
    (htrace : later.trace = earlier.trace ++ records) :
    recordsSince earlier.history.length later = records := by
  have hdrop : recordsSince earlier.history.length later =
      later.trace.drop earlier.history.length := List.drop_reverse.symm
  rw [hdrop, htrace]
  exact List.drop_left' List.length_reverse

variable {origin : Moment} {routing : Routing} {allowance : Nat} {state : State}

/-- The records that a session hands out with its answers are what it added to the trace. -/
theorem trace_runSteps (horigin : origin.Reachable) (hworld : state.world = origin.world)
    (hnames : state.NamesExist) {steps : List Step} {final : State}
    {answers : List (Answer × List TraceRecord)}
    (hrun : (runSteps routing allowance steps).run state = .ok (answers, final)) :
    final.world.trace = state.world.trace ++ answers.flatMap Prod.snd := by
  induction steps generalizing origin state answers with
  | nil =>
    cases hrun
    exact (List.append_nil _).symm
  | cons step rest ih =>
    obtain ⟨answer, middle, others, hstep, hrest, rfl⟩ := runSteps_cons_ok hrun
    obtain ⟨hanswer, hrecords⟩ := answerStep_ok_of_runStep hstep
    obtain ⟨hfirst, hmiddle⟩ := answerStep_reaches horigin hworld hnames hanswer
    obtain ⟨later, hlater, hleads⟩ := hfirst.leads
    obtain ⟨more, hmore⟩ := hleads.trace_prefix
    have hadded : middle.world.trace = state.world.trace ++ more := by
      rw [← hlater, ← hmore, hworld]
    rw [ih (horigin.leads hleads) hlater.symm hmiddle hrest, List.flatMap_cons, hrecords,
      recordsSince_of_trace hadded, hadded, List.append_assoc]

theorem trace_execute {config : Config} {steps : List Step} {final : State}
    {answers : List (Answer × List TraceRecord)}
    (hrun : execute routing allowance config steps = .ok (answers, final)) :
    final.world.trace = answers.flatMap Prod.snd :=
  trace_runSteps .start rfl (State.namesExist_start config) hrun

end Session

end GuestCore
