import GuestCore.Proofs.Lockstep

/-!
# Other Settings and Older Records

No program reads the trace, and the depth limit decides only whether a call is entered.  So a world
can be given other depth limits, and older records below its trace, and everything that happens to
it happens as before.  Two worlds that are one world, recast in two ways, go in lockstep.
-/

namespace GuestCore

open Session

namespace Table

variable {α β : Type} [Inhabited α] [Inhabited β] {table : Table α} {index : Nat}

theorem get_of_le (hindex : table.size ≤ index) : table.get index = default := by
  simp [get, Array.getElem?_eq_none hindex]

theorem get_map_of_lt {convert : α → β} (hindex : index < table.size) :
    (table.map convert).get index = convert (table.get index) := by
  have hbound : index < table.cells.size := hindex
  simp [map, get, Array.getElem?_eq_getElem hbound]

end Table

/-- Other settings for all registries, with the same limits for call sites, and records that come
before the trace. -/
structure Recast where
  settings : Config → Config
  older : List TraceRecord
  cacheLimit_eq : ∀ config, (settings config).cacheLimit = config.cacheLimit

namespace World

variable (change : Recast) (world : World)

def recast : World :=
  { world with
    registries := world.registries.map fun registry ↦
      { registry with config := change.settings registry.config }
    history := world.history ++ change.older }

@[simp]
theorem contents_recast : (world.recast change).contents = world.contents := by
  simp only [recast, contents, Table.map, Array.map_map]
  rfl

theorem site_recast (name : String) : (world.recast change).site name = world.site name := rfl

theorem functionNamed?_recast (registry : RegistryId) (name : String) :
    (world.recast change).functionNamed? registry name = world.functionNamed? registry name :=
  eq_of_contents_eq (fun world ↦ world.functionNamed? registry name) (by simp) (by simp)

theorem applied_recast (registry : RegistryId) :
    ((world.recast change).registry registry).applied = (world.registry registry).applied :=
  eq_of_contents_eq (fun world ↦ (world.registry registry).applied) (by simp) (by simp)

variable {world} in
theorem config_recast {registry : RegistryId} (hregistry : world.HasRegistry registry) :
    ((world.recast change).registry registry).config =
      change.settings (world.registry registry).config :=
  congrArg Registry.config (Table.get_map_of_lt hregistry)

theorem cacheLimit_recast (dispatcher : DispatcherId) :
    ((world.recast change).configOf dispatcher).cacheLimit =
      (world.configOf dispatcher).cacheLimit := by
  change ((world.recast change).registry (world.dispatcher dispatcher).registry).config.cacheLimit =
    (world.registry (world.dispatcher dispatcher).registry).config.cacheLimit
  generalize (world.dispatcher dispatcher).registry = registry
  by_cases hregistry : world.HasRegistry registry
  · rw [config_recast change hregistry, change.cacheLimit_eq]
  · have hnone : world.registry registry = default := Table.get_of_le (Nat.le_of_not_lt hregistry)
    have hstill : (world.recast change).registry registry = default := by
      refine Table.get_of_le (Nat.le_of_not_lt ?_)
      rwa [recast, Table.size_map]
    rw [hnone, hstill]

/-! ## Recasting and effects -/

theorem recast_log (record : TraceRecord) :
    (world.log record).recast change = (world.recast change).log record := rfl

theorem recast_foldl_log (records : List TraceRecord) :
    (records.foldl World.log world).recast change =
      records.foldl World.log (world.recast change) := by
  induction records generalizing world with
  | nil => rfl
  | cons record rest ih => exact ih (world.log record)

theorem recast_modifyRegistry {alter : Registry → Registry} (registry : RegistryId)
    (halter : ∀ state, { alter state with config := change.settings (alter state).config } =
      alter { state with config := change.settings state.config }) :
    (world.modifyRegistry registry alter).recast change =
      (world.recast change).modifyRegistry registry alter := by
  simp only [recast, modifyRegistry]
  rw [Table.map_modify halter]

theorem recast_newRegistry (config : Config) :
    (world.newRegistry config).2.recast change =
      ((world.recast change).newRegistry (change.settings config)).2 := by
  simp only [recast, newRegistry]
  rw [Table.map_push]

theorem recast_addFunction (registry : RegistryId) (name : String)
    (definition : Option Definition) :
    (world.addFunction registry name definition).2.recast change =
      ((world.recast change).addFunction registry name definition).2 := by
  refine (recast_modifyRegistry change _ registry ?_).trans rfl
  intro state
  rfl

theorem recast_findOrCreate (registry : RegistryId) (name : String) :
    (world.findOrCreate registry name).2.recast change =
      ((world.recast change).findOrCreate registry name).2 := by
  have hsame := world.functionNamed?_recast change registry name
  cases hname : world.functionNamed? registry name with
  | some function =>
    rw [findOrCreate_of_some hname, findOrCreate_of_some (hsame.trans hname)]
    rfl
  | none =>
    rw [findOrCreate_of_none hname, findOrCreate_of_none (hsame.trans hname), recast_log,
      recast_addFunction]
    rfl

theorem recast_register (registry : RegistryId) (name : String) (definition : Definition) :
    (world.register registry name definition).2.recast change =
      ((world.recast change).register registry name definition).2 := by
  have hsame := world.functionNamed?_recast change registry name
  cases hname : world.functionNamed? registry name with
  | some function =>
    rw [register_of_some definition hname, register_of_some definition (hsame.trans hname)]
    rfl
  | none =>
    rw [register_of_none definition hname, register_of_none definition (hsame.trans hname),
      recast_log, recast_addFunction]
    rfl

theorem recast_beginBatch (registry : RegistryId) (batch : Batch) :
    (world.beginBatch registry batch).recast change =
      (world.recast change).beginBatch registry batch := by
  have happlied (world : World) :
      ((world.log (.registerBatch batch.entries.length)).registry registry).applied =
        (world.registry registry).applied := rfl
  unfold beginBatch
  dsimp only
  rw [happlied, happlied, applied_recast]
  split
  · rfl
  · refine (recast_modifyRegistry change _ registry ?_).trans rfl
    intro state
    rfl

theorem recast_noteSlowCall (dispatcher : DispatcherId) (name : String) (function : FunctionId) :
    (world.noteSlowCall dispatcher name function).recast change =
      (world.recast change).noteSlowCall dispatcher name function := by
  have hstate : (world.recast change).functionState function = world.functionState function := rfl
  unfold noteSlowCall
  dsimp only
  rw [hstate, site_recast, cacheLimit_recast]
  cases (world.functionState function).definition with
  | none => rfl
  | some definition => exact recast_foldl_log change _ _

theorem recast_noteCall (dispatcher : DispatcherId) (name : String) (function : FunctionId) :
    (world.noteCall dispatcher name function).recast change =
      (world.recast change).noteCall dispatcher name function := by
  have hstate : (world.recast change).functionState function = world.functionState function := rfl
  unfold noteCall
  dsimp only
  rw [hstate, site_recast]
  cases (world.site name).consult function (world.functionState function).published with
  | current definition => rfl
  | stale cached => exact recast_noteSlowCall change _ dispatcher name function
  | unknown => exact recast_noteSlowCall change world dispatcher name function

end World

theorem Effect.recast_apply (change : Recast) {effect : Effect}
    (hregistry : ∀ config, effect ≠ .newRegistry config) (world : World) :
    (effect.apply world).recast change = effect.apply (world.recast change) := by
  cases effect with
  | newRegistry config => exact absurd rfl (hregistry config)
  | findOrCreate registry name => exact world.recast_findOrCreate change registry name
  | register registry name definition => exact world.recast_register change registry name definition
  | beginBatch registry batch => exact world.recast_beginBatch change registry batch
  | noteCall dispatcher site function => exact world.recast_noteCall change dispatcher site function
  | _ => rfl

def Event.createsRegistry : Event → Bool
  | effect (.newRegistry _) => true
  | _ => false

/-- Events other than new registries do to a world what they do to it recast. -/
theorem Event.recast_apply (change : Recast) {event : Event}
    (hevent : event.createsRegistry = false) (world : World) :
    (event.apply world).recast change = event.apply (world.recast change) := by
  cases event with
  | enter | leave => rfl
  | effect effect =>
    refine effect.recast_apply change ?_ world
    rintro config rfl
    cases hevent

theorem Event.recast_replay (change : Recast) {events : List Event}
    (hevents : ∀ event ∈ events, event.createsRegistry = false) (world : World) :
    (replay events world).recast change = replay events (world.recast change) := by
  induction events generalizing world with
  | nil => rfl
  | cons event rest ih =>
    obtain ⟨hfirst, hrest⟩ := List.forall_mem_cons.mp hevents
    rw [replay_cons, replay_cons, ih hrest, recast_apply change hfirst]

theorem Event.createsRegistry_of_isOfCall {event : Event} (hcall : event.isOfCall = true) :
    event.createsRegistry = false := by
  cases event with
  | enter | leave => rfl
  | effect effect =>
    cases effect with
    | newRegistry => cases hcall
    | _ => rfl

namespace Traced

variable {α β : Type}

/-- The computation creates no registries. -/
def KeepsRegistries (traced : Traced α) : Prop :=
  ∀ world, ∀ event ∈ (traced world).2, event.createsRegistry = false

namespace KeepsRegistries

variable {first fallback : Traced α}

theorem of_events_eq_nil {traced : Traced α} (hnil : ∀ world, (traced world).2 = []) :
    traced.KeepsRegistries := by
  intro world event hevent
  rw [hnil world] at hevent
  cases hevent

theorem bind {next : α → Traced β} (hfirst : first.KeepsRegistries)
    (hnext : ∀ value, (next value).KeepsRegistries) : KeepsRegistries (first >>= next) := by
  intro world
  have hearly := hfirst world
  change ∀ event ∈ (Traced.bind first next world).2, _
  unfold Traced.bind
  generalize first world = result at hearly
  obtain ⟨outcome, events⟩ := result
  cases outcome with
  | returned value middle => exact List.forall_mem_append.mpr ⟨hearly, hnext value middle⟩
  | raised | exhausted => exact hearly

theorem orElse (hfirst : first.KeepsRegistries) (hfallback : fallback.KeepsRegistries) :
    KeepsRegistries (first.orElse fallback) := by
  intro world
  have hearly := hfirst world
  unfold Traced.orElse
  generalize first world = result at hearly
  obtain ⟨outcome, events⟩ := result
  cases outcome with
  | raised fault middle => exact List.forall_mem_append.mpr ⟨hearly, hfallback middle⟩
  | returned | exhausted => exact hearly

theorem performing (dispatcher : DispatcherId) (part : Body.Leaf α) :
    KeepsRegistries (.performing (part.perform dispatcher) fun world ↦
      part.effects dispatcher world) := by
  intro world
  refine List.forall_mem_map.mpr fun effect heffect ↦ ?_
  have hplain := part.isPlain_effects dispatcher world effect heffect
  cases effect with
  | newRegistry => cases hplain
  | _ => rfl

end KeepsRegistries

section Calls

variable {traced : TracedRunner} {dispatcher : DispatcherId}

theorem activate_keepsRegistries
    (hrun : ∀ definition arguments, (traced dispatcher definition arguments).KeepsRegistries)
    (name : String) (definition : Definition) (arguments : List Value) :
    (activate traced dispatcher arguments name definition).KeepsRegistries := by
  intro world
  unfold activate
  dsimp only
  cases (world.configOf dispatcher).reachedLimit? (world.depth dispatcher) with
  | some limit => exact List.forall_mem_singleton.mpr rfl
  | none =>
    have hinner := hrun definition arguments
      (Event.apply (.enter ⟨dispatcher, world.depth dispatcher⟩) world)
    dsimp only
    generalize traced dispatcher definition arguments _ = result at hinner
    obtain ⟨outcome, events⟩ := result
    refine List.forall_mem_cons.mpr ⟨rfl, List.forall_mem_append.mpr ⟨hinner, ?_⟩⟩
    cases outcome with
    | returned | raised => exact List.forall_mem_singleton.mpr rfl
    | exhausted => exact List.forall_mem_nil _

theorem call_keepsRegistries
    (hrun : ∀ definition arguments, (traced dispatcher definition arguments).KeepsRegistries)
    (arguments : List Value) (routing : Routing) (route : Route) :
    (call traced dispatcher arguments routing route).KeepsRegistries := by
  intro world
  refine List.forall_mem_append.mpr ⟨?_, ?_⟩
  · cases route with
    | direct | executed => exact List.forall_mem_nil _
    | named name => exact List.forall_mem_singleton.mpr rfl
    | throughSite site callee =>
      cases routing with
      | cached => exact List.forall_mem_singleton.mpr rfl
      | generic => exact List.forall_mem_nil _
  · cases route.target routing world dispatcher with
    | ok found => exact activate_keepsRegistries hrun found.1 found.2 arguments _
    | error fault => exact List.forall_mem_nil _

end Calls

theorem keepsRegistries_closed (routing : Routing) (dispatcher : DispatcherId) :
    Closed routing dispatcher KeepsRegistries where
  pure _ := .of_events_eq_nil fun _ ↦ rfl
  bind := .bind
  orElse := .orElse
  leaf := .performing dispatcher
  call hrun arguments route := call_keepsRegistries hrun arguments routing route
  exhausted := .of_events_eq_nil fun _ ↦ rfl

end Traced

/-! ## One world recast in two ways -/

namespace World

variable {world : World}

theorem WellFormed.effect (hworld : world.WellFormed) {effect : Effect}
    (hallowed : effect.Allowed world) : (effect.apply world).WellFormed := by
  have hstep : Moment.Step ⟨world, [], []⟩ ⟨effect.apply world, [], [effect]⟩ :=
    .effect effect hallowed
  exact hstep.wellFormed hworld

theorem WellFormed.newRegistry (hworld : world.WellFormed) (config : Config) :
    (world.newRegistry config).2.WellFormed := by
  have hallowed : (Effect.newRegistry config).Allowed world := trivial
  exact hworld.effect hallowed

theorem WellFormed.setDepth (hworld : world.WellFormed) (dispatcher : DispatcherId)
    (depth : Nat) : (world.setDepth dispatcher depth).WellFormed := by
  intro other hother
  rw [registry_dispatcher_setDepth]
  exact hworld other (by simpa [HasDispatcher] using hother)

theorem WellFormed.event (hworld : world.WellFormed) {event : Event}
    (hcall : event.isOfCall = true) : (event.apply world).WellFormed := by
  cases event with
  | enter | leave => exact hworld.setDepth _ _
  | effect effect =>
    refine hworld.effect ?_
    cases effect with
    | noteCall | refuseCall => trivial
    | _ => cases hcall

theorem hasRegistry_recast {change : Recast} {registry : RegistryId} :
    (world.recast change).HasRegistry registry ↔ world.HasRegistry registry := by
  simp [HasRegistry, recast]

end World

theorem Effect.allowed_recast {change : Recast} {effect : Effect} {world : World} :
    effect.Allowed (world.recast change) ↔ effect.Allowed world := by
  cases effect with
  | newDispatcher | find | findOrCreate | register | beginBatch => exact World.hasRegistry_recast
  | _ => exact Iff.rfl

/-- The records since some moment do not depend on those before. -/
theorem Session.recordsSince_append {earlier later : World} (older : List TraceRecord) :
    recordsSince (earlier.history ++ older).length
        { later with history := later.history ++ older } =
      recordsSince earlier.history.length later := by
  have hle : later.history.length - earlier.history.length ≤ later.history.length :=
    Nat.sub_le _ _
  simp only [recordsSince, List.length_append, Nat.add_sub_add_right,
    List.take_append_of_le_length hle]

/-- Two ways to recast a world, the left one with limits that refuse at least as much. -/
def Recast.lockstep (left right : Recast)
    (hrefused : ∀ {config : Config} {depth limit : Nat},
      (right.settings config).reachedLimit? depth = some limit →
        (left.settings config).reachedLimit? depth = some limit) : Lockstep where
  worlds leftWorld rightWorld := ∃ world : World, world.WellFormed ∧
    leftWorld = world.recast left ∧ rightWorld = world.recast right
  settings leftConfig rightConfig :=
    ∃ config, leftConfig = left.settings config ∧ rightConfig = right.settings config
  sites := Eq
  contents_eq := by
    rintro _ _ ⟨world, -, rfl, rfl⟩
    rw [World.contents_recast, World.contents_recast]
  wellFormed := by
    rintro _ _ ⟨world, hworld, rfl, -⟩ dispatcher hdispatcher
    exact World.hasRegistry_recast.mpr (hworld dispatcher hdispatcher)
  settings_of := by
    rintro _ _ ⟨world, -, rfl, rfl⟩ registry hregistry
    have hexists := World.hasRegistry_recast.mp hregistry
    exact ⟨_, World.config_recast left hexists, World.config_recast right hexists⟩
  sites_of := by
    rintro _ _ ⟨world, -, rfl, rfl⟩ name
    rfl
  effect := by
    rintro _ _ ⟨world, hworld, rfl, rfl⟩ effect hplain hallowed
    have hregistry (config : Config) : effect ≠ .newRegistry config := by
      rintro rfl
      cases hplain
    exact ⟨effect.apply world, hworld.effect (Effect.allowed_recast.mp hallowed),
      (Effect.recast_apply left hregistry world).symm,
      (Effect.recast_apply right hregistry world).symm⟩
  newRegistry := by
    rintro _ _ ⟨world, hworld, rfl, rfl⟩ _ _ ⟨config, rfl, rfl⟩
    exact ⟨(world.newRegistry config).2, hworld.newRegistry config,
      (world.recast_newRegistry left config).symm, (world.recast_newRegistry right config).symm⟩
  event := by
    rintro _ _ ⟨world, hworld, rfl, rfl⟩ event hcall
    have hevent := Event.createsRegistry_of_isOfCall hcall
    exact ⟨event.apply world, hworld.event hcall, (Event.recast_apply left hevent world).symm,
      (Event.recast_apply right hevent world).symm⟩
  site_eq := by
    rintro _ _ ⟨world, -, rfl, rfl⟩ name
    rfl
  records_eq := by
    rintro _ _ _ _ ⟨world, -, rfl, rfl⟩ ⟨later, -, rfl, rfl⟩
    exact (Session.recordsSince_append left.older).trans
      (Session.recordsSince_append right.older).symm
  refused := by
    rintro _ _ ⟨config, rfl, rfl⟩ depth limit hlimit
    exact hrefused hlimit

/-! ## Without the trace -/

/-- The same settings, and records that come before the trace. -/
def Recast.above (older : List TraceRecord) : Recast where
  settings := id
  older := older
  cacheLimit_eq _ := rfl

namespace World

variable {left right : World}

/-- The world without its trace. -/
def untraced (world : World) : World :=
  { world with history := [] }

theorem recast_above (world : World) (older : List TraceRecord) :
    world.recast (.above older) = { world with history := world.history ++ older } := by
  have hregistries : (world.registries.map fun registry ↦
      { registry with config := id registry.config }) = world.registries := by
    simp [Table.map]
  simp only [recast, Recast.above, hregistries]

/-- The trace is put back. -/
theorem recast_untraced (world : World) :
    world.untraced.recast (.above world.history) = world :=
  recast_above world.untraced world.history

theorem untraced_recast (world : World) (older : List TraceRecord) :
    (world.recast (.above older)).untraced = world.untraced := by
  rw [recast_above]
  rfl

/-- What a change of the world does apart from the trace does not depend on the trace. -/
theorem untraced_eq_of_recast {step : World → World}
    (hstep : ∀ (change : Recast) (world : World),
      (step world).recast change = step (world.recast change))
    (hworlds : left.untraced = right.untraced) : (step left).untraced = (step right).untraced := by
  have huntraced (world : World) : (step world).untraced = (step world.untraced).untraced := by
    have hput := hstep (.above world.history) world.untraced
    rw [recast_untraced] at hput
    rw [← hput, untraced_recast]
  rw [huntraced left, hworlds, ← huntraced right]

end World

namespace Session

/-- The state without its trace. -/
def State.untraced (state : State) : State :=
  { state with world := state.world.untraced }

/-- Two states that differ in the trace alone, at a moment at which names and dispatchers are in
order. -/
structure State.Alike (left right : State) : Prop where
  untraced_eq : left.untraced = right.untraced
  names : left.NamesExist
  wellFormed : left.world.WellFormed

theorem Answer.Like.eq {settings : Config → Config → Prop} {left right : Answer}
    (hlike : Answer.Like settings Eq left right)
    (hsettings : ∀ left right, settings left right → left = right) : left = right := by
  cases hlike with
  | same => rfl
  | functions _ _ hrelated | dispatcher _ _ hrelated => rw [hsettings _ _ hrelated]
  | call _ _ hsites | site _ hsites => rw [hsites]

variable {left right : State}

theorem State.untraced_eq_iff :
    left.untraced = right.untraced ↔
      left.world.untraced = right.world.untraced ∧ left.config = right.config ∧
        left.registries = right.registries ∧ left.batches = right.batches ∧
          left.slots = right.slots := by
  constructor
  · intro huntraced
    have hparts := State.mk.inj huntraced
    exact ⟨hparts.2.1, hparts.1, hparts.2.2.1, hparts.2.2.2.1, hparts.2.2.2.2⟩
  · rintro ⟨hworld, hconfig, hregistries, hbatches, hslots⟩
    simp only [untraced, hworld, hconfig, hregistries, hbatches, hslots]

theorem State.Alike.of_untraced_eq {state : State} (halike : left.Alike right)
    (huntraced : state.untraced = left.untraced) : state.Alike right where
  untraced_eq := huntraced.trans halike.untraced_eq
  names := by
    change state.untraced.NamesExist
    rw [huntraced]
    exact halike.names
  wellFormed := by
    change state.untraced.world.WellFormed
    rw [huntraced]
    exact halike.wellFormed

/-- Two traces of one world. -/
abbrev retraced (left right : List TraceRecord) : Lockstep :=
  Recast.lockstep (.above left) (.above right) id

theorem State.Alike.states (halike : left.Alike right) :
    (retraced left.world.history right.world.history).States left right := by
  obtain ⟨hworld, hconfig, hregistries, hbatches, hslots⟩ :=
    State.untraced_eq_iff.mp halike.untraced_eq
  refine ⟨⟨left.world.untraced, halike.wellFormed, ?_, ?_⟩, ⟨left.config, rfl, hconfig.symm⟩,
    hregistries, hbatches, hslots, halike.names⟩
  · rw [World.recast_untraced]
  · rw [hworld, World.recast_untraced]

theorem State.Alike.of_states {leftTrace rightTrace : List TraceRecord}
    (hstates : (retraced leftTrace rightTrace).States left right) : left.Alike right := by
  obtain ⟨world, hworld, hleft, hright⟩ := hstates.worlds
  obtain ⟨config, hleftConfig, hrightConfig⟩ := hstates.settings
  refine ⟨State.untraced_eq_iff.mpr ⟨?_, ?_, hstates.registries, hstates.batches,
    hstates.slots⟩, hstates.names, (retraced leftTrace rightTrace).wellFormed hstates.worlds⟩
  · rw [hleft, hright, World.untraced_recast, World.untraced_recast]
  · rw [hleftConfig, hrightConfig]
    rfl

/-- A step does not depend on the trace. -/
theorem runStep_alike (halike : left.Alike right) (routing : Routing) (allowance : Nat)
    (step : Step) :
    (∃ malformed, (runStep routing allowance step).run left = .error malformed ∧
      (runStep routing allowance step).run right = .error malformed) ∨
    ∃ answer leftAfter rightAfter,
      (runStep routing allowance step).run left = .ok (answer, leftAfter) ∧
        (runStep routing allowance step).run right = .ok (answer, rightAfter) ∧
          leftAfter.Alike rightAfter := by
  have hsettings : ∀ leftConfig rightConfig, (retraced left.world.history
      right.world.history).settings leftConfig rightConfig → leftConfig = rightConfig := by
    rintro _ _ ⟨config, rfl, rfl⟩
    rfl
  rcases Lockstep.answerStep_inStep halike.states routing allowance step with
    ⟨-, -, hanswers⟩ | hparts
  · have hresults := Lockstep.runStep_results halike.states hanswers
    generalize (runStep routing allowance step).run left = leftResult at hresults
    generalize (runStep routing allowance step).run right = rightResult at hresults
    cases hresults with
    | error malformed => exact .inl ⟨malformed, rfl, rfl⟩
    | @ok leftAnswer rightAnswer leftAfter rightAfter htold hafter _ =>
      obtain rfl : leftAnswer = rightAnswer := Prod.ext (htold.1.eq hsettings) htold.2
      exact .inr ⟨leftAnswer, leftAfter, rightAfter, rfl, rfl, .of_states hafter⟩
  · exact absurd hparts (Event.Part.not_of_settings_eq hsettings)

end Session

end GuestCore
