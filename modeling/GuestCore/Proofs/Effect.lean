import GuestCore.Proofs.Visibility

/-!
# Effects

Whatever a running program does to the world, apart from entering and leaving calls, is one of a
few effects: requests to a registry, the bookkeeping of a call site, writes to objects, and
allocations.  An effect on functions comes in three kinds: it changes none, it creates one under a
new name, or it redefines the one that a name has.
-/

namespace GuestCore

namespace World

variable (world : World)

def HasRegistry (registry : RegistryId) : Prop :=
  registry.index < world.registries.size

def HasDispatcher (dispatcher : DispatcherId) : Prop :=
  dispatcher.index < world.dispatchers.size

def HasFunction (function : FunctionId) : Prop :=
  function.index < world.functions.size

def HasObject (object : ObjectId) : Prop :=
  object.index < world.objects.size

instance (registry : RegistryId) : Decidable (world.HasRegistry registry) :=
  inferInstanceAs (Decidable (_ < _))

instance (dispatcher : DispatcherId) : Decidable (world.HasDispatcher dispatcher) :=
  inferInstanceAs (Decidable (_ < _))

instance (function : FunctionId) : Decidable (world.HasFunction function) :=
  inferInstanceAs (Decidable (_ < _))

instance (object : ObjectId) : Decidable (world.HasObject object) :=
  inferInstanceAs (Decidable (_ < _))

/-- The first half of registering a batch: it is noted as applied, or found to be so already. -/
def beginBatch (registry : RegistryId) (batch : Batch) : World :=
  let world := world.log (.registerBatch batch.entries.length)
  if (world.registry registry).applied.contains batch.identity then world.log .repeatedBatch
  else world.modifyRegistry registry fun state ↦
    { state with applied := batch.identity :: state.applied }

/-- A batch that is new to the registry is begun, and then its entries are registered. -/
theorem registerBatch_eq (registry : RegistryId) (batch : Batch) :
    world.registerBatch registry batch =
      if (world.registry registry).applied.contains batch.identity then
        world.beginBatch registry batch
      else (world.beginBatch registry batch).registerAll registry batch.entries := by
  have hregistry : (world.log (.registerBatch batch.entries.length)).registry registry =
      world.registry registry := rfl
  unfold registerBatch beginBatch
  dsimp only
  rw [hregistry]
  split <;> rfl

/-- The bookkeeping of a call that a site could not serve. -/
def noteSlowCall (dispatcher : DispatcherId) (siteName : String) (function : FunctionId) : World :=
  let callee := world.functionState function
  let site := (world.site siteName).countSlow
  match callee.definition with
  | none => world.setSite siteName site
  | some definition =>
    let (site, records) := site.learn (world.configOf dispatcher).cacheLimit callee.name
      { function, definition, generation := callee.generation }
    records.foldl World.log (world.setSite siteName site)

/-- The bookkeeping of a call through a site, up to the call itself. -/
def noteCall (dispatcher : DispatcherId) (siteName : String) (function : FunctionId) : World :=
  let callee := world.functionState function
  let site := world.site siteName
  match site.consult function callee.published with
  | .current _ => (world.log (.fastPathHit callee.name)).setSite siteName site.countFast
  | .stale cached =>
    (world.log (.generationMismatch callee.name cached callee.published)).noteSlowCall
      dispatcher siteName function
  | .unknown => world.noteSlowCall dispatcher siteName function

end World

/-- One thing that a running program does to the world. -/
inductive Effect where
  | freshIdentity
  | newObject (members : Members Value)
  | writeMember (object : ObjectId) (member : String) (content : Value)
  | setMembers (object : ObjectId) (members : Members Value)
  | newRegistry (config : Config)
  | newDispatcher (registry : RegistryId)
  | find (registry : RegistryId) (name : String)
  | findOrCreate (registry : RegistryId) (name : String)
  | register (registry : RegistryId) (name : String) (definition : Definition)
  /-- The entries of the batch follow as registrations of their own. -/
  | beginBatch (registry : RegistryId) (batch : Batch)
  | noteCall (dispatcher : DispatcherId) (site : String) (function : FunctionId)
  /-- A call was refused because of the depth limit. -/
  | refuseCall (name : String) (limit : Nat)

namespace Effect

def apply : Effect → World → World
  | freshIdentity, world => world.freshIdentity.2
  | newObject members, world => (world.newObject members).2
  | writeMember object member content, world =>
    world.modifyMembers object fun members ↦ members.insert member content
  | setMembers object members, world => world.modifyMembers object fun _ ↦ members
  | newRegistry config, world => (world.newRegistry config).2
  | newDispatcher registry, world => (world.newDispatcher registry).2
  | find registry name, world => (world.find registry name).2
  | findOrCreate registry name, world => (world.findOrCreate registry name).2
  | register registry name definition, world => (world.register registry name definition).2
  | beginBatch registry batch, world => world.beginBatch registry batch
  | noteCall dispatcher site function, world => world.noteCall dispatcher site function
  | refuseCall name limit, world => world.log (.depthExceeded name limit)

/-- The world after some effects in a row. -/
def applyAll (effects : List Effect) (world : World) : World :=
  effects.foldl (fun world effect ↦ effect.apply world) world

@[simp]
theorem applyAll_nil (world : World) : applyAll [] world = world := rfl

@[simp]
theorem applyAll_cons (effect : Effect) (rest : List Effect) (world : World) :
    applyAll (effect :: rest) world = applyAll rest (effect.apply world) := rfl

@[simp]
theorem applyAll_append (first second : List Effect) (world : World) :
    applyAll (first ++ second) world = applyAll second (applyAll first world) :=
  List.foldl_append

/-- Requests reach registries that exist. -/
def Allowed : Effect → World → Prop
  | newDispatcher registry, world | find registry _, world | findOrCreate registry _, world
  | register registry _ _, world | beginBatch registry _, world => world.HasRegistry registry
  | _, _ => True

instance (effect : Effect) (world : World) : Decidable (effect.Allowed world) :=
  match effect with
  | newDispatcher registry | find registry _ | findOrCreate registry _ | register registry _ _
  | beginBatch registry _ => inferInstanceAs (Decidable (world.HasRegistry registry))
  | freshIdentity | newObject _ | writeMember _ _ _ | setMembers _ _ | newRegistry _
  | noteCall _ _ _ | refuseCall _ _ => inferInstanceAs (Decidable True)

/-- The name that the effect asks for in a registry, in a way that creates its function. -/
def mentioned? (registry : RegistryId) : Effect → Option String
  | findOrCreate otherRegistry name | register otherRegistry name _ =>
    if otherRegistry = registry then some name else none
  | _ => none

/-- The definition that the effect binds to a name. -/
def definition? (registry : RegistryId) (name : String) : Effect → Option Definition
  | register otherRegistry otherName definition =>
    if otherRegistry = registry ∧ otherName = name then some definition else none
  | _ => none

end Effect

/-! ## Batches -/

/-- The registrations of the entries. -/
def Batch.registrations (registry : RegistryId) (batch : Batch) : List Effect :=
  batch.entries.map fun entry ↦ .register registry entry.1 entry.2

/-- What registering a batch does, one effect after the other. -/
def World.batchEffects (world : World) (registry : RegistryId) (batch : Batch) : List Effect :=
  .beginBatch registry batch ::
    if (world.registry registry).applied.contains batch.identity then []
    else batch.registrations registry

theorem World.mem_batchEffects {world : World} {registry : RegistryId} {batch : Batch}
    {effect : Effect} (heffect : effect ∈ world.batchEffects registry batch) :
    effect = .beginBatch registry batch ∨
      ∃ entry ∈ batch.entries, effect = .register registry entry.1 entry.2 := by
  rcases List.mem_cons.mp heffect with hbegin | hentry
  · exact .inl hbegin
  · split at hentry
    · cases hentry
    · obtain ⟨entry, hmem, heq⟩ := List.mem_map.mp hentry
      exact .inr ⟨entry, hmem, heq.symm⟩

theorem World.applyAll_batchEffects (world : World) (registry : RegistryId) (batch : Batch) :
    Effect.applyAll (world.batchEffects registry batch) world =
      world.registerBatch registry batch := by
  rw [registerBatch_eq, batchEffects, Effect.applyAll_cons]
  split
  · rfl
  · exact List.foldl_map

/-! ## Creating and redefining functions -/

namespace World

variable {world : World} {registry : RegistryId} {name : String} {function : FunctionId}

theorem findOrCreate_of_some (hname : world.functionNamed? registry name = some function) :
    world.findOrCreate registry name = (function, world.log (.lookup name true)) := by
  have hlog : (world.log (.lookup name true)).functionNamed? registry name = some function :=
    hname
  simp only [findOrCreate, hlog]

theorem findOrCreate_of_none (hname : world.functionNamed? registry name = none) :
    world.findOrCreate registry name =
      (⟨world.functions.size⟩,
        ((world.log (.lookup name true)).addFunction registry name none).2.log
          (.createdUndefined name)) := by
  have hlog : (world.log (.lookup name true)).functionNamed? registry name = none := hname
  simp only [findOrCreate, hlog]
  rfl

theorem register_of_some (definition : Definition)
    (hname : world.functionNamed? registry name = some function) :
    world.register registry name definition =
      let after := (world.log (.register name)).modifyFunction function fun state ↦
        state.redefine definition
      (function, after.log (.installed name (after.functionState function).generation)) := by
  have hlog : (world.log (.register name)).functionNamed? registry name = some function := hname
  simp only [register, hlog]

theorem register_of_none (definition : Definition)
    (hname : world.functionNamed? registry name = none) :
    world.register registry name definition =
      (⟨world.functions.size⟩,
        ((world.log (.register name)).addFunction registry name (some definition)).2.log
          (.installed name 0)) := by
  have hlog : (world.log (.register name)).functionNamed? registry name = none := hname
  simp only [register, hlog]
  rfl

/-- A new function is entered under its name in one registry. -/
theorem registry_addFunction (world : World) (registry other : RegistryId) (name : String)
    (definition : Option Definition) (hregistry : world.HasRegistry registry) :
    ((world.addFunction registry name definition).2.registry other).functions =
      if other = registry then
        (world.registry registry).functions.insert name ⟨world.functions.size⟩
      else (world.registry other).functions := by
  have hget := Table.get_modify world.registries registry.index other.index fun state ↦
    { state with functions := state.functions.insert name ⟨world.functions.size⟩ }
  by_cases hother : other = registry
  · subst hother
    rw [if_pos ⟨rfl, hregistry⟩] at hget
    rw [if_pos rfl]
    exact congrArg Registry.functions hget
  · have hindex : ¬ (registry.index = other.index ∧ other.index < world.registries.size) := by
      rintro ⟨heq, -⟩
      exact hother (by cases other; cases registry; simp_all)
    rw [if_neg hindex] at hget
    rw [if_neg hother]
    exact congrArg Registry.functions hget

/-- Nothing but functions and their names differs, and the trace. -/
structure SameBesidesFunctions (world after : World) : Prop where
  objects : after.objects = world.objects
  dispatchers : after.dispatchers = world.dispatchers
  sites : after.sites = world.sites
  size_registries : after.registries.size = world.registries.size
  config : ∀ registry, (after.registry registry).config = (world.registry registry).config

/-- Changes of one registry that keep its settings keep all settings. -/
theorem config_modifyRegistry (world : World) (registry other : RegistryId)
    {change : Registry → Registry} (hchange : ∀ state, (change state).config = state.config) :
    ((world.modifyRegistry registry change).registry other).config =
      (world.registry other).config := by
  have hget := Table.get_modify world.registries registry.index other.index change
  refine (congrArg Registry.config hget).trans ?_
  split
  · exact hchange _
  · rfl

theorem sameBesidesFunctions_addFunction (world : World) (registry : RegistryId) (name : String)
    (definition : Option Definition) :
    world.SameBesidesFunctions (world.addFunction registry name definition).2 where
  objects := rfl
  dispatchers := rfl
  sites := rfl
  size_registries := Table.size_modify ..
  config other := config_modifyRegistry _ registry other fun _ ↦ rfl

theorem sameBesidesFunctions_findOrCreate (world : World) (registry : RegistryId) (name : String) :
    world.SameBesidesFunctions (world.findOrCreate registry name).2 := by
  cases hname : world.functionNamed? registry name with
  | some function =>
    rw [findOrCreate_of_some hname]
    exact ⟨rfl, rfl, rfl, rfl, fun _ ↦ rfl⟩
  | none =>
    rw [findOrCreate_of_none hname]
    obtain ⟨hobjects, hdispatchers, hsites, hsize, hconfig⟩ :=
      sameBesidesFunctions_addFunction (world.log (.lookup name true)) registry name none
    exact ⟨hobjects, hdispatchers, hsites, hsize, hconfig⟩

theorem sameBesidesFunctions_register (world : World) (registry : RegistryId) (name : String)
    (definition : Definition) :
    world.SameBesidesFunctions (world.register registry name definition).2 := by
  cases hname : world.functionNamed? registry name with
  | some function =>
    rw [register_of_some definition hname]
    exact ⟨rfl, rfl, rfl, rfl, fun _ ↦ rfl⟩
  | none =>
    rw [register_of_none definition hname]
    obtain ⟨hobjects, hdispatchers, hsites, hsize, hconfig⟩ :=
      sameBesidesFunctions_addFunction (world.log (.register name)) registry name
        (some definition)
    exact ⟨hobjects, hdispatchers, hsites, hsize, hconfig⟩

theorem sameBesidesFunctions_beginBatch (world : World) (registry : RegistryId) (batch : Batch) :
    world.SameBesidesFunctions (world.beginBatch registry batch) := by
  unfold beginBatch
  dsimp only
  split
  · exact ⟨rfl, rfl, rfl, rfl, fun _ ↦ rfl⟩
  · exact ⟨rfl, rfl, rfl, Table.size_modify .., fun other ↦
      config_modifyRegistry _ registry other fun _ ↦ rfl⟩

end World

/-- What an effect does to the functions of a world and to their names. -/
inductive Effect.FunctionChange (world : World) (effect : Effect) (after : World) : Prop where
  /-- No function and no name changes; all names that are asked for are known. -/
  | unchanged
      (hfunctions : after.functions = world.functions)
      (hnames : ∀ registry, (after.registry registry).functions =
        (world.registry registry).functions)
      (hmentioned : ∀ registry name, effect.mentioned? registry = some name →
        (world.functionNamed? registry name).isSome)
      (hdefinition : ∀ registry name, effect.definition? registry name = none)
  /-- A new name gets a new function. -/
  | created (registry : RegistryId) (name : String) (definition : Option Definition)
      (hnew : world.functionNamed? registry name = none)
      (hfunctions : after.functions = world.functions.push { name, definition })
      (hnames : ∀ other, (after.registry other).functions =
        if other = registry then
          (world.registry registry).functions.insert name ⟨world.functions.size⟩
        else (world.registry other).functions)
      (hmentioned : ∀ otherRegistry, effect.mentioned? otherRegistry =
        if registry = otherRegistry then some name else none)
      (hdefinition : ∀ otherRegistry otherName, effect.definition? otherRegistry otherName =
        if registry = otherRegistry ∧ name = otherName then definition else none)
  /-- The function of a name gets another definition. -/
  | redefined (registry : RegistryId) (name : String) (function : FunctionId)
      (definition : Definition)
      (hknown : world.functionNamed? registry name = some function)
      (hfunctions : after.functions = world.functions.modify function.index fun state ↦
        state.redefine definition)
      (hnames : ∀ other, (after.registry other).functions = (world.registry other).functions)
      (hmentioned : ∀ otherRegistry, effect.mentioned? otherRegistry =
        if registry = otherRegistry then some name else none)
      (hdefinition : ∀ otherRegistry otherName, effect.definition? otherRegistry otherName =
        if registry = otherRegistry ∧ name = otherName then some definition else none)

namespace World

@[simp]
theorem visible_noteSlowCall (world : World) (dispatcher : DispatcherId) (siteName : String)
    (function : FunctionId) :
    (world.noteSlowCall dispatcher siteName function).visible = world.visible := by
  cases hdefinition : (world.functionState function).definition with
  | none => simp [noteSlowCall, hdefinition]
  | some definition => simp [noteSlowCall, hdefinition]

@[simp]
theorem visible_noteCall (world : World) (dispatcher : DispatcherId) (siteName : String)
    (function : FunctionId) :
    (world.noteCall dispatcher siteName function).visible = world.visible := by
  cases hrecall : (world.site siteName).consult function
      (world.functionState function).published with
  | current definition => simp [noteCall, hrecall]
  | stale cached => simp [noteCall, hrecall]
  | unknown => simp [noteCall, hrecall]

theorem registry_newRegistry (world : World) (config : Config) (registry : RegistryId) :
    ((world.newRegistry config).2.registry registry).functions =
      (world.registry registry).functions := by
  have hget := Table.get_push world.registries { config } registry.index
  by_cases hnew : registry.index = world.registries.size
  · have hold : world.registries.get registry.index = default := by
      simp [Table.get, hnew, Table.size]
    rw [if_pos hnew] at hget
    calc
      ((world.newRegistry config).2.registry registry).functions =
          (world.registries.push { config } |>.get registry.index).functions := rfl
      _ = Members.empty := by rw [hget]; rfl
      _ = (world.registries.get registry.index).functions := by rw [hold]; rfl
  · rw [if_neg hnew] at hget
    exact congrArg Registry.functions hget

theorem registry_beginBatch (world : World) (registry other : RegistryId) (batch : Batch) :
    ((world.beginBatch registry batch).registry other).functions =
      (world.registry other).functions := by
  unfold beginBatch
  dsimp only
  split
  · rfl
  · have hget := Table.get_modify world.registries registry.index other.index fun state ↦
      { state with applied := batch.identity :: state.applied }
    refine (congrArg Registry.functions hget).trans ?_
    split <;> rfl

theorem functions_beginBatch (world : World) (registry : RegistryId) (batch : Batch) :
    (world.beginBatch registry batch).functions = world.functions := by
  unfold beginBatch
  dsimp only
  split <;> rfl

end World

namespace Effect

/-- Every effect is of one of the three kinds. -/
theorem functionChange {world : World} {effect : Effect} (hallowed : effect.Allowed world) :
    effect.FunctionChange world (effect.apply world) := by
  cases effect with
  | freshIdentity | newObject | writeMember | setMembers | newDispatcher | find | refuseCall =>
    exact .unchanged rfl (fun _ ↦ rfl) (by simp [mentioned?]) (by simp [definition?])
  | newRegistry config =>
    exact .unchanged rfl (world.registry_newRegistry config) (by simp [mentioned?])
      (by simp [definition?])
  | beginBatch registry batch =>
    exact .unchanged (world.functions_beginBatch registry batch)
      (fun other ↦ world.registry_beginBatch registry other batch) (by simp [mentioned?])
      (by simp [definition?])
  | noteCall dispatcher site function =>
    have hvisible := world.visible_noteCall dispatcher site function
    refine .unchanged (World.functions_eq_of_visible_eq hvisible) (fun registry ↦ ?_)
      (by simp [mentioned?]) (by simp [definition?])
    have hregistries := World.registries_eq_of_visible_eq hvisible
    exact congrArg (fun table ↦ (Table.get table registry.index).functions) hregistries
  | findOrCreate registry name =>
    cases hname : world.functionNamed? registry name with
    | some function =>
      have happly : (Effect.findOrCreate registry name).apply world =
          world.log (.lookup name true) :=
        congrArg Prod.snd (World.findOrCreate_of_some hname)
      rw [happly]
      refine .unchanged rfl (fun _ ↦ rfl) ?_ (by simp [definition?])
      intro otherRegistry otherName hmentioned
      obtain ⟨rfl, rfl⟩ : registry = otherRegistry ∧ name = otherName := by
        simpa [mentioned?] using hmentioned
      rw [hname]
      rfl
    | none =>
      have happly := congrArg Prod.snd (World.findOrCreate_of_none hname)
      refine .created registry name none hname (congrArg World.functions happly)
        (fun other ↦ ?_) (by simp [mentioned?]) (by simp [definition?])
      exact (congrArg (fun after ↦ (after.registry other).functions) happly).trans
        (World.registry_addFunction _ registry other name none hallowed)
  | register registry name definition =>
    cases hname : world.functionNamed? registry name with
    | some function =>
      have happly := congrArg Prod.snd (World.register_of_some definition hname)
      exact .redefined registry name function definition hname (congrArg World.functions happly)
        (fun other ↦ congrArg (fun after ↦ (after.registry other).functions) happly)
        (by simp [mentioned?]) (by simp [definition?])
    | none =>
      have happly := congrArg Prod.snd (World.register_of_none definition hname)
      refine .created registry name (some definition) hname (congrArg World.functions happly)
        (fun other ↦ ?_) (by simp [mentioned?]) (by simp [definition?])
      exact (congrArg (fun after ↦ (after.registry other).functions) happly).trans
        (World.registry_addFunction _ registry other name (some definition) hallowed)

end Effect

/-! ## The states of functions -/

namespace World

variable {world after : World} {function : FunctionId}

theorem functionState_of_push {state : FunctionState}
    (hfunctions : after.functions = world.functions.push state) :
    after.functionState function =
      if function.index = world.functions.size then state else world.functionState function := by
  rw [functionState, hfunctions]
  exact Table.get_push world.functions state function.index

theorem functionState_of_redefine {definition : Definition}
    (hfunctions : after.functions = world.functions.modify function.index fun state ↦
      state.redefine definition) (other : FunctionId) :
    after.functionState other =
      if other = function ∧ world.HasFunction function then
        (world.functionState function).redefine definition
      else world.functionState other := by
  rw [functionState, hfunctions, Table.get_modify]
  by_cases hother : other = function
  · subst hother
    simp only [true_and]
    rfl
  · have hindex : function.index ≠ other.index := by
      intro heq
      exact hother (by cases other; cases function; simp_all)
    rw [if_neg fun h ↦ hindex h.1, if_neg fun h ↦ hother h.1]
    rfl

/-- Only a function that exists has a definition. -/
theorem hasFunction_of_definition {definition : Definition}
    (hdefinition : (world.functionState function).definition = some definition) :
    world.HasFunction function := by
  refine Nat.lt_of_not_le fun habsent ↦ ?_
  have hdefault : world.functionState function = default := by
    simp only [Table.size] at habsent
    simp [functionState, Table.get, habsent]
  rw [hdefault] at hdefinition
  cases hdefinition

end World

/-! ## Registries and dispatchers -/

namespace Effect

variable (effect : Effect) (world : World)

/-- Dispatchers are added and otherwise left alone. -/
theorem dispatchers_apply :
    (effect.apply world).dispatchers = match effect with
      | newDispatcher registry => world.dispatchers.push { registry }
      | _ => world.dispatchers := by
  cases effect with
  | findOrCreate registry name =>
    exact (world.sameBesidesFunctions_findOrCreate registry name).dispatchers
  | register registry name definition =>
    exact (world.sameBesidesFunctions_register registry name definition).dispatchers
  | beginBatch registry batch =>
    exact (world.sameBesidesFunctions_beginBatch registry batch).dispatchers
  | noteCall dispatcher site function =>
    exact World.dispatchers_eq_of_visible_eq (world.visible_noteCall dispatcher site function)
  | _ => rfl

/-- Only the bookkeeping of calls touches the sites. -/
theorem sites_apply :
    (effect.apply world).sites = match effect with
      | noteCall dispatcher site function => (world.noteCall dispatcher site function).sites
      | _ => world.sites := by
  cases effect with
  | findOrCreate registry name =>
    exact (world.sameBesidesFunctions_findOrCreate registry name).sites
  | register registry name definition =>
    exact (world.sameBesidesFunctions_register registry name definition).sites
  | beginBatch registry batch =>
    exact (world.sameBesidesFunctions_beginBatch registry batch).sites
  | _ => rfl

theorem eq_noteCall_or_sites_eq :
    (∃ dispatcher site function, effect = .noteCall dispatcher site function) ∨
      (effect.apply world).sites = world.sites := by
  rw [sites_apply]
  split
  · exact .inl ⟨_, _, _, rfl⟩
  · exact .inr rfl

/-- Registries are added, and the settings of those that exist never change. -/
theorem registries_apply :
    world.registries.size ≤ (effect.apply world).registries.size ∧
      ∀ registry, world.HasRegistry registry →
        ((effect.apply world).registry registry).config = (world.registry registry).config := by
  have hsame {after : World} (hafter : world.SameBesidesFunctions after) :
      world.registries.size ≤ after.registries.size ∧
        ∀ registry, world.HasRegistry registry →
          (after.registry registry).config = (world.registry registry).config :=
    ⟨Nat.le_of_eq hafter.size_registries.symm, fun registry _ ↦ hafter.config registry⟩
  cases effect with
  | newRegistry config =>
    refine ⟨by simp [apply, World.newRegistry], fun registry hregistry ↦ ?_⟩
    have hget := Table.get_push world.registries { config } registry.index
    rw [if_neg (Nat.ne_of_lt hregistry)] at hget
    exact congrArg Registry.config hget
  | findOrCreate registry name =>
    exact hsame (world.sameBesidesFunctions_findOrCreate registry name)
  | register registry name definition =>
    exact hsame (world.sameBesidesFunctions_register registry name definition)
  | beginBatch registry batch =>
    exact hsame (world.sameBesidesFunctions_beginBatch registry batch)
  | noteCall dispatcher site function =>
    have hregistries := World.registries_eq_of_visible_eq
      (world.visible_noteCall dispatcher site function)
    exact ⟨Nat.le_of_eq (congrArg Table.size hregistries).symm,
      fun other _ ↦ by rw [apply, World.registry, hregistries]; rfl⟩
  | _ => exact ⟨Nat.le_refl _, fun _ _ ↦ rfl⟩

end Effect

end GuestCore
