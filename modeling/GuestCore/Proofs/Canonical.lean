import GuestCore.Proofs.Moment

/-!
# Canonical Functions

A registry gives every name that is asked for one function, and keeps it for good.  The function
carries the name, it belongs to no other name and no other registry, and the registry lists its
names in the order in which they were first asked for.
-/

namespace GuestCore

namespace World

variable {world after : World}

/-! ## Names after an effect -/

theorem functionNamed?_of_same
    (hnames : ∀ registry, (after.registry registry).functions =
      (world.registry registry).functions) (registry : RegistryId) (name : String) :
    after.functionNamed? registry name = world.functionNamed? registry name := by
  rw [functionNamed?, hnames]
  rfl

theorem functionNamed?_of_created {registry : RegistryId} {name : String}
    (hnames : ∀ other, (after.registry other).functions =
      if other = registry then
        (world.registry registry).functions.insert name ⟨world.functions.size⟩
      else (world.registry other).functions) (other : RegistryId) (otherName : String) :
    after.functionNamed? other otherName =
      if other = registry ∧ otherName = name then some ⟨world.functions.size⟩
      else world.functionNamed? other otherName := by
  rw [functionNamed?, hnames]
  by_cases hother : other = registry
  · subst hother
    rw [if_pos rfl, Members.get?_insert]
    simp only [true_and]
    rfl
  · rw [if_neg hother, if_neg fun h ↦ hother h.1]
    rfl

theorem isSome_functionNamed? (world : World) (registry : RegistryId) (name : String) :
    (world.functionNamed? registry name).isSome = true ↔
      name ∈ (world.registry registry).functions.keys :=
  (world.registry registry).functions.contains_iff_mem_keys name

/-! ## One function for each name -/

/-- Every name has a function of its own, which carries the name, and there are no others. -/
structure Canonical (world : World) : Prop where
  hasFunction : ∀ {registry : RegistryId} {name : String} {function : FunctionId},
    world.functionNamed? registry name = some function → world.HasFunction function
  name_eq : ∀ {registry : RegistryId} {name : String} {function : FunctionId},
    world.functionNamed? registry name = some function →
      (world.functionState function).name = name
  injective : ∀ {registry other : RegistryId} {name otherName : String} {function : FunctionId},
    world.functionNamed? registry name = some function →
      world.functionNamed? other otherName = some function →
        registry = other ∧ name = otherName
  exists_name : ∀ {function : FunctionId}, world.HasFunction function →
    ∃ registry name, world.functionNamed? registry name = some function

namespace Canonical

/-- A new function is none of those that names have already. -/
theorem ne_new (hcanonical : world.Canonical) {registry : RegistryId} {name : String}
    {function : FunctionId} (hname : world.functionNamed? registry name = some function) :
    function.index ≠ world.functions.size :=
  Nat.ne_of_lt (hcanonical.hasFunction hname)

theorem created (hcanonical : world.Canonical) {registry : RegistryId} {name : String}
    {definition : Option Definition} (hfresh : world.functionNamed? registry name = none)
    (hfunctions : after.functions = world.functions.push { name, definition })
    (hnamed : ∀ other otherName, after.functionNamed? other otherName =
      if other = registry ∧ otherName = name then some ⟨world.functions.size⟩
      else world.functionNamed? other otherName) : after.Canonical where
  hasFunction := by
    intro other otherName function hname
    rw [HasFunction, hfunctions, Table.size_push]
    rw [hnamed] at hname
    split at hname
    · obtain rfl := Option.some.inj hname
      exact Nat.lt_succ_self _
    · exact Nat.lt_succ_of_lt (hcanonical.hasFunction hname)
  name_eq := by
    intro other otherName function hname
    rw [functionState_of_push hfunctions]
    rw [hnamed] at hname
    split at hname
    · next hnew =>
      obtain rfl := Option.some.inj hname
      rw [if_pos rfl]
      exact hnew.2.symm
    · rw [if_neg (hcanonical.ne_new hname)]
      exact hcanonical.name_eq hname
  injective := by
    intro first second firstName secondName function hfirst hsecond
    rw [hnamed] at hfirst hsecond
    split at hfirst
    · next hnew =>
      split at hsecond
      · next hnew' => exact ⟨hnew.1.trans hnew'.1.symm, hnew.2.trans hnew'.2.symm⟩
      · obtain rfl := Option.some.inj hfirst
        exact absurd rfl (hcanonical.ne_new hsecond)
    · split at hsecond
      · obtain rfl := Option.some.inj hsecond
        exact absurd rfl (hcanonical.ne_new hfirst)
      · exact hcanonical.injective hfirst hsecond
  exists_name := by
    intro function hfunction
    rw [HasFunction, hfunctions, Table.size_push] at hfunction
    rcases Nat.lt_succ_iff_lt_or_eq.mp hfunction with hold | hnew
    · obtain ⟨other, otherName, hname⟩ := hcanonical.exists_name hold
      refine ⟨other, otherName, ?_⟩
      rw [hnamed, if_neg]
      · exact hname
      · rintro ⟨rfl, rfl⟩
        exact absurd (hfresh.symm.trans hname) nofun
    · refine ⟨registry, name, ?_⟩
      rw [hnamed, if_pos ⟨rfl, rfl⟩, ← hnew]

/-- Names stay canonical as long as they stay, functions exist, and functions keep their names. -/
theorem congr (hcanonical : world.Canonical)
    (hnamed : ∀ registry name, after.functionNamed? registry name =
      world.functionNamed? registry name)
    (hsize : after.functions.size = world.functions.size)
    (hname : ∀ function, (after.functionState function).name =
      (world.functionState function).name) : after.Canonical where
  hasFunction := by
    intro registry name function hfunction
    rw [hnamed] at hfunction
    rw [HasFunction, hsize]
    exact hcanonical.hasFunction hfunction
  name_eq := by
    intro registry name function hfunction
    rw [hnamed] at hfunction
    rw [hname]
    exact hcanonical.name_eq hfunction
  injective := by
    intro registry other name otherName function hfirst hsecond
    rw [hnamed] at hfirst hsecond
    exact hcanonical.injective hfirst hsecond
  exists_name := by
    intro function hfunction
    rw [HasFunction, hsize] at hfunction
    obtain ⟨registry, name, hname⟩ := hcanonical.exists_name hfunction
    exact ⟨registry, name, (hnamed registry name).trans hname⟩

theorem functionChange (hcanonical : world.Canonical) {effect : Effect}
    (hchange : effect.FunctionChange world after) : after.Canonical := by
  cases hchange with
  | unchanged hfunctions hnames =>
    refine hcanonical.congr (functionNamed?_of_same hnames) (congrArg Table.size hfunctions) ?_
    intro function
    rw [functionState, hfunctions]
    rfl
  | created registry name definition hnew hfunctions hnames =>
    exact hcanonical.created hnew hfunctions (functionNamed?_of_created hnames)
  | redefined registry name function definition _ hfunctions hnames =>
    refine hcanonical.congr (functionNamed?_of_same hnames)
      ((congrArg Table.size hfunctions).trans (Table.size_modify ..)) ?_
    intro other
    rw [functionState_of_redefine hfunctions]
    split
    · next hother => rw [hother.1]; rfl
    · rfl

end Canonical

/-! ## Asking for a name -/

/-- In whatever way the name is asked for, the answer is the function. -/
structure Gives (world : World) (registry : RegistryId) (name : String) (function : FunctionId) :
    Prop where
  find : (world.find registry name).1 = some function
  findOrCreate : (world.findOrCreate registry name).1 = function
  register : ∀ definition, (world.register registry name definition).1 = function
  readMember : (Receiver.functions registry).readMember world name = .ok (.function function)

theorem gives_of_functionNamed? {registry : RegistryId} {name : String} {function : FunctionId}
    (hname : world.functionNamed? registry name = some function) :
    world.Gives registry name function where
  find := hname
  findOrCreate := by rw [findOrCreate_of_some hname]
  register definition := by rw [register_of_some definition hname]
  readMember := by simp only [Receiver.readMember, hname]

theorem functionNamed?_findOrCreate {registry : RegistryId}
    (hregistry : world.HasRegistry registry) (name : String) :
    (world.findOrCreate registry name).2.functionNamed? registry name =
      some (world.findOrCreate registry name).1 := by
  cases hname : world.functionNamed? registry name with
  | some function =>
    rw [findOrCreate_of_some hname]
    exact hname
  | none =>
    rw [findOrCreate_of_none hname]
    have hadded := functionNamed?_of_created
      (registry_addFunction (world.log (.lookup name true)) registry · name none hregistry)
      registry name
    rw [if_pos ⟨rfl, rfl⟩] at hadded
    exact hadded

theorem functionNamed?_register {registry : RegistryId}
    (hregistry : world.HasRegistry registry) (name : String) (definition : Definition) :
    (world.register registry name definition).2.functionNamed? registry name =
      some (world.register registry name definition).1 := by
  cases hname : world.functionNamed? registry name with
  | some function =>
    rw [register_of_some definition hname]
    exact hname
  | none =>
    rw [register_of_none definition hname]
    have hadded := functionNamed?_of_created
      (registry_addFunction (world.log (.register name)) registry · name (some definition)
        hregistry) registry name
    rw [if_pos ⟨rfl, rfl⟩] at hadded
    exact hadded

/-! ## Names are for good -/

/-- The later world gives all names of the earlier one the same functions, and lists them first. -/
structure KeepsNames (earlier later : World) : Prop where
  function : ∀ {registry : RegistryId} {name : String} {function : FunctionId},
    earlier.functionNamed? registry name = some function →
      later.functionNamed? registry name = some function
  keys : ∀ registry, (earlier.registry registry).functions.keys <+:
    (later.registry registry).functions.keys

namespace KeepsNames

theorem refl (world : World) : world.KeepsNames world :=
  ⟨id, fun _ ↦ List.prefix_refl _⟩

theorem trans {earlier later : World} (hfirst : earlier.KeepsNames world)
    (hsecond : world.KeepsNames later) : earlier.KeepsNames later :=
  ⟨fun hname ↦ hsecond.function (hfirst.function hname),
    fun registry ↦ (hfirst.keys registry).trans (hsecond.keys registry)⟩

theorem functionChange {effect : Effect} (hchange : effect.FunctionChange world after) :
    world.KeepsNames after := by
  cases hchange with
  | unchanged _ hnames | redefined _ _ _ _ _ _ hnames =>
    refine ⟨fun hname ↦ (functionNamed?_of_same hnames _ _).trans hname, fun registry ↦ ?_⟩
    simp only [hnames, List.prefix_refl]
  | created registry name definition hnew _ hnames =>
    refine ⟨?_, fun other ↦ ?_⟩
    · intro other otherName function hname
      rw [functionNamed?_of_created hnames, if_neg]
      · exact hname
      · rintro ⟨rfl, rfl⟩
        exact absurd (hnew.symm.trans hname) nofun
    · rw [hnames]
      split
      · next hother =>
        subst hother
        rw [Members.keys_insert]
        split
        · exact List.prefix_refl _
        · exact List.prefix_append _ _
      · exact List.prefix_refl _

end KeepsNames

/-- A name that is asked for is listed at the end, unless it is listed already. -/
theorem keys_functionChange {effect : Effect} (hchange : effect.FunctionChange world after)
    (registry : RegistryId) :
    (after.registry registry).functions.keys =
      (world.registry registry).functions.keys ++
        (effect.mentioned? registry).toList.filter fun name ↦
          name ∉ (world.registry registry).functions.keys := by
  cases hchange with
  | unchanged _ hnames hmentioned =>
    rw [hnames]
    cases hname : effect.mentioned? registry with
    | none => simp
    | some name =>
      have hmem := (world.isSome_functionNamed? registry name).mp (hmentioned registry name hname)
      simp [hmem]
  | created other name definition hnew _ hnames hmentioned =>
    rw [hnames, hmentioned]
    by_cases hother : other = registry
    · subst hother
      have hmem : name ∉ (world.registry other).functions.keys := by
        rw [← isSome_functionNamed?, hnew]
        simp
      rw [if_pos rfl, if_pos rfl, Members.keys_insert, if_neg hmem]
      simp [hmem]
    · rw [if_neg (Ne.symm hother), if_neg hother]
      simp
  | redefined other name function definition hknown _ hnames hmentioned =>
    rw [hnames, hmentioned]
    by_cases hother : other = registry
    · subst hother
      have hmem : name ∈ (world.registry other).functions.keys := by
        rw [← isSome_functionNamed?, hknown]
        rfl
      rw [if_pos rfl]
      simp [hmem]
    · rw [if_neg hother]
      simp

end World

namespace Moment

variable {earlier moment later : Moment}

/-- The names that a registry was asked for, each at its first time. -/
def firstMentions (moment : Moment) (registry : RegistryId) : List String :=
  (moment.journal.filterMap (Effect.mentioned? registry)).eraseDups

theorem Step.canonical (step : earlier.Step later) (hearlier : earlier.world.Canonical) :
    later.world.Canonical := by
  cases step with
  | effect effect hallowed => exact hearlier.functionChange (effect.functionChange hallowed)
  | enter | leave =>
    exact hearlier.congr (fun _ _ ↦ rfl) rfl fun _ ↦ rfl

theorem Reachable.canonical (hreachable : moment.Reachable) : moment.world.Canonical := by
  apply hreachable.invariant (motive := fun moment ↦ moment.world.Canonical)
  · exact ⟨nofun, nofun, nofun, nofun⟩
  · intro before after _ hbefore step
    exact step.canonical hbefore

theorem Step.keepsNames (step : earlier.Step later) : earlier.world.KeepsNames later.world := by
  cases step with
  | effect effect hallowed => exact .functionChange (effect.functionChange hallowed)
  | enter | leave => exact ⟨id, fun _ ↦ List.prefix_refl _⟩

theorem Leads.keepsNames (hleads : earlier.Leads later) :
    earlier.world.KeepsNames later.world := by
  apply hleads.preserves (motive := fun moment ↦ earlier.world.KeepsNames moment.world)
  · intro before after hbefore step
    exact hbefore.trans step.keepsNames
  · exact World.KeepsNames.refl _

/-- Another mention puts the name at the end, unless it is listed already. -/
theorem firstMentions_effect (moment : Moment) (effect : Effect) (registry : RegistryId)
    (world : World) :
    ({ moment with world, journal := moment.journal ++ [effect] } : Moment).firstMentions
        registry =
      moment.firstMentions registry ++
        (effect.mentioned? registry).toList.filter fun name ↦
          name ∉ moment.firstMentions registry := by
  unfold firstMentions
  rw [List.filterMap_append, List.eraseDups_append]
  generalize moment.journal.filterMap (Effect.mentioned? registry) = names
  cases hmentioned : effect.mentioned? registry with
  | none => simp [hmentioned]
  | some name =>
    by_cases hmem : name ∈ names
    · simp [hmentioned, List.cons_removeAll, List.mem_eraseDups, hmem]
    · simp [hmentioned, List.cons_removeAll, List.mem_eraseDups, hmem, List.eraseDups_cons]

theorem Step.keys_eq_firstMentions (step : earlier.Step later)
    (hearlier : ∀ registry, (earlier.world.registry registry).functions.keys =
      earlier.firstMentions registry) (registry : RegistryId) :
    (later.world.registry registry).functions.keys = later.firstMentions registry := by
  cases step with
  | effect effect hallowed =>
    rw [firstMentions_effect, ← hearlier]
    exact World.keys_functionChange (effect.functionChange hallowed) registry
  | enter | leave => exact hearlier registry

theorem Reachable.keys_eq_firstMentions (hreachable : moment.Reachable) :
    ∀ registry, (moment.world.registry registry).functions.keys =
      moment.firstMentions registry := by
  apply hreachable.invariant (motive := fun moment ↦ ∀ registry,
    (moment.world.registry registry).functions.keys = moment.firstMentions registry)
  · intro registry
    rfl
  · intro before after _ hbefore step
    exact step.keys_eq_firstMentions hbefore

/-- Names that were asked for have functions, and no others do. -/
theorem Reachable.isSome_functionNamed? (hreachable : moment.Reachable) (registry : RegistryId)
    (name : String) :
    (moment.world.functionNamed? registry name).isSome = true ↔
      ∃ effect ∈ moment.journal, effect.mentioned? registry = some name := by
  rw [World.isSome_functionNamed?, hreachable.keys_eq_firstMentions, firstMentions,
    List.mem_eraseDups, List.mem_filterMap]

/-- What holds of functions from one moment to a later one. -/
structure FunctionsCanonical (earlier later : Moment) : Prop where
  /-- A name that was created or registered is answered with one function for good, which carries
  the name. -/
  one_function : ∀ registry name,
    (∃ effect ∈ earlier.journal, effect.mentioned? registry = some name) →
      ∃ function, earlier.world.Gives registry name function ∧
        later.world.Gives registry name function ∧
          (later.world.functionState function).name = name
  /-- The request that creates a name is answered with that function already. -/
  created : ∀ registry name, later.world.HasRegistry registry →
    (later.world.findOrCreate registry name).2.Gives registry name
      (later.world.findOrCreate registry name).1
  registered : ∀ registry name definition, later.world.HasRegistry registry →
    (later.world.register registry name definition).2.Gives registry name
      (later.world.register registry name definition).1
  /-- No two names share a function, in one registry or in two. -/
  not_shared : ∀ registry other name otherName function,
    (later.world.find registry name).1 = some function →
      (later.world.find other otherName).1 = some function → registry = other ∧ name = otherName
  /-- Names are only added, at the end. -/
  keys_prefix : ∀ registry, (earlier.world.registry registry).functions.keys <+:
    (later.world.registry registry).functions.keys
  keys_nodup : ∀ registry, (later.world.registry registry).functions.keys.Nodup
  keys_eq : ∀ registry, (later.world.registry registry).functions.keys =
    later.firstMentions registry

theorem Leads.functionsCanonical (hleads : earlier.Leads later) (hearlier : earlier.Reachable) :
    FunctionsCanonical earlier later := by
  have hlater := hearlier.leads hleads
  refine ⟨?_, ?_, ?_, ?_, hleads.keepsNames.keys, fun _ ↦ Members.nodup_keys _,
    hlater.keys_eq_firstMentions⟩
  · intro registry name hmentioned
    have hsome := (hearlier.isSome_functionNamed? registry name).mpr hmentioned
    obtain ⟨function, hname⟩ := Option.isSome_iff_exists.mp hsome
    have hkept := hleads.keepsNames.function hname
    exact ⟨function, World.gives_of_functionNamed? hname, World.gives_of_functionNamed? hkept,
      hlater.canonical.name_eq hkept⟩
  · intro registry name hregistry
    exact World.gives_of_functionNamed? (World.functionNamed?_findOrCreate hregistry name)
  · intro registry name definition hregistry
    exact World.gives_of_functionNamed?
      (World.functionNamed?_register hregistry name definition)
  · intro registry other name otherName function hfirst hsecond
    exact hlater.canonical.injective hfirst hsecond

end Moment

end GuestCore
