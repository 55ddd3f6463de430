import GuestCore.Proofs.Alike.Values
import GuestCore.Proofs.Batches
import GuestCore.Proofs.SiteCalls

/-!
# Worlds That Are Alike

Two worlds are alike if everything in them is, up to names that one of them has without a definition
and the other one not at all.  Such names are called loose.  A call site remembers alike functions
on both sides, from equally many redefinitions ago, so that it serves the same calls.  Every effect
on both worlds that leaves functions alone keeps them alike.
-/

namespace GuestCore

variable {stage later : Stage}

/-! ## Worlds -/

/-- All that every moment of a run has: names, call sites and dispatchers are in order. -/
structure World.Sound (world : World) : Prop where
  canonical : world.Canonical
  coherent : world.Coherent
  wellFormed : world.WellFormed

theorem Moment.Reachable.sound {moment : Moment} (hreachable : moment.Reachable) :
    moment.world.Sound :=
  ⟨hreachable.canonical, hreachable.coherent, hreachable.wellFormed⟩

namespace World

theorem members_modifyMembers (world : World) (object other : ObjectId)
    (change : Members Value → Members Value) :
    (world.modifyMembers object change).members other =
      if object = other ∧ other.index < world.objects.size then change (world.members other)
      else world.members other := by
  refine (Table.get_modify world.objects object.index other.index change).trans ?_
  have hindex : object.index = other.index ↔ object = other := by
    cases object
    cases other
    simp
  simp only [hindex]
  rfl

namespace Sound

variable {world : World}

theorem effect (hsound : world.Sound) (effect : Effect) (hallowed : effect.Allowed world) :
    (effect.apply world).Sound where
  canonical := hsound.canonical.functionChange (effect.functionChange hallowed)
  coherent := hsound.coherent.effect hallowed
  wellFormed :=
    have hstep : Moment.Step { world } _ := .effect effect hallowed
    hstep.wellFormed hsound.wellFormed

/-- Objects, identities and the trace do not matter. -/
theorem congr {after : World} (hsound : world.Sound)
    (hfunctions : after.functions = world.functions)
    (hregistries : after.registries = world.registries)
    (hdispatchers : after.dispatchers = world.dispatchers) (hsites : after.sites = world.sites) :
    after.Sound where
  canonical := by
    refine hsound.canonical.congr (fun registry name ↦ ?_) (congrArg Table.size hfunctions)
      fun function ↦ ?_
    · rw [functionNamed?, World.registry, hregistries]
      rfl
    · rw [functionState, hfunctions]
      rfl
  coherent := hsound.coherent.congr hfunctions hsites
  wellFormed dispatcher hdispatcher := by
    rw [HasDispatcher, hdispatchers] at hdispatcher
    rw [HasRegistry, hregistries, World.dispatcher, hdispatchers]
    exact hsound.wellFormed dispatcher hdispatcher

theorem setDepth (hsound : world.Sound) (dispatcher : DispatcherId) (depth : Nat) :
    (world.setDepth dispatcher depth).Sound where
  canonical := hsound.canonical.congr (fun _ _ ↦ rfl) rfl fun _ ↦ rfl
  coherent := hsound.coherent.congr rfl rfl
  wellFormed caller hcaller := by
    rw [World.registry_dispatcher_setDepth]
    rw [World.HasDispatcher, World.size_dispatchers_setDepth] at hcaller
    exact hsound.wellFormed caller hcaller

end Sound

end World

/-- What a call site remembers on both sides: alike functions and definitions, from equally many
redefinitions ago. -/
structure SiteTarget.Alike (stage : Stage) (leftGeneration rightGeneration : FunctionId → Nat)
    (left right : SiteTarget) : Prop where
  function : stage.functions left.function right.function
  definition : left.definition.Alike stage right.definition
  age_eq : left.generation + rightGeneration right.function =
    right.generation + leftGeneration left.function

structure Site.Alike (stage : Stage) (leftGeneration rightGeneration : FunctionId → Nat)
    (left right : Site) : Prop where
  targets : List.Forall₂ (SiteTarget.Alike stage leftGeneration rightGeneration) left.targets
    right.targets
  megamorphic_eq : left.megamorphic = right.megamorphic
  fastHits_eq : left.fastHits = right.fastHits
  slowCalls_eq : left.slowCalls = right.slowCalls

/-- Sites stay alike while functions that are alike are redefined equally often. -/
theorem Site.Alike.mono {leftGeneration rightGeneration leftLater rightLater : FunctionId → Nat}
    {left right : Site} (halike : Site.Alike stage leftGeneration rightGeneration left right)
    (hlater : stage ≤ later)
    (hgrowth : ∀ {function other}, stage.functions function other →
      leftLater function + rightGeneration other = rightLater other + leftGeneration function) :
    Site.Alike later leftLater rightLater left right where
  targets := halike.targets.imp fun target other htarget ↦ by
    refine ⟨hlater.functions htarget.function, htarget.definition.mono hlater, ?_⟩
    have hage := htarget.age_eq
    have hmore := hgrowth htarget.function
    omega
  megamorphic_eq := halike.megamorphic_eq
  fastHits_eq := halike.fastHits_eq
  slowCalls_eq := halike.slowCalls_eq

/-- What a name has on both sides: alike definitions, at the same generation unless the name is
loose.  A loose name may be there on the right only, without a definition. -/
inductive NamedAlike (loose : Bool) (stage : Stage) :
    Option FunctionState → Option FunctionState → Prop where
  | absent : NamedAlike loose stage none none
  | extra {state : FunctionState} (hloose : loose = true) (hundefined : state.definition = none) :
    NamedAlike loose stage none (some state)
  | both {left right : FunctionState}
      (hdefinition : Option.Rel (Definition.Alike stage) left.definition right.definition)
      (hgeneration : loose = false → left.generation = right.generation) :
    NamedAlike loose stage (some left) (some right)

theorem NamedAlike.mono {loose : Bool} {left right : Option FunctionState}
    (halike : NamedAlike loose stage left right) (hlater : stage ≤ later) :
    NamedAlike loose later left right := by
  cases halike with
  | absent => exact .absent
  | extra hloose hundefined => exact .extra hloose hundefined
  | both hdefinition hgeneration =>
    exact .both (optionRel_mono hdefinition fun halike ↦ halike.mono hlater) hgeneration

namespace World

/-- The state of the function that a name has. -/
def stateNamed? (world : World) (registry : RegistryId) (name : String) : Option FunctionState :=
  (world.functionNamed? registry name).map world.functionState

def generationOf (world : World) (function : FunctionId) : Nat :=
  (world.functionState function).generation

/-- The functions have the same name in the same registry. -/
def Paired (left right : World) (function other : FunctionId) : Prop :=
  ∃ registry name, left.functionNamed? registry name = some function ∧
    right.functionNamed? registry name = some other

/-- Two worlds in which everything is alike and the stage knows what there is.  Loose names may
differ in their generation, and in whether and where they are listed while they have no
definition. -/
structure Alike (loose : RegistryId → String → Bool) (stage : Stage) (left right : World) :
    Prop where
  soundLeft : left.Sound
  soundRight : right.Sound
  functions_iff : ∀ {function other}, stage.functions function other ↔
    left.Paired right function other
  named : ∀ registry name, NamedAlike (loose registry name) stage
    (left.stateNamed? registry name) (right.stateNamed? registry name)
  listed_eq : ∀ registry,
    (left.registry registry).functions.keys.filter (fun name ↦ !loose registry name) =
      (right.registry registry).functions.keys.filter fun name ↦ !loose registry name
  size_registries_eq : left.registries.size = right.registries.size
  config_eq : ∀ registry, (left.registry registry).config = (right.registry registry).config
  applied_eq : ∀ registry, (left.registry registry).applied = (right.registry registry).applied
  dispatchers_eq : left.dispatchers = right.dispatchers
  objects_iff : ∀ {object}, stage.objects object ↔ left.HasObject object
  size_objects_eq : left.objects.size = right.objects.size
  members : ∀ object, stage.objects object →
    Members.Related (Value.Alike stage) (left.members object) (right.members object)
  sites : ∀ name,
    Site.Alike stage left.generationOf right.generationOf (left.site name) (right.site name)
  nextIdentity_eq : left.nextIdentity = right.nextIdentity
  hasRegistry : ∀ {registry}, stage.registries registry → left.HasRegistry registry
  hasDispatcher : ∀ {dispatcher}, stage.dispatchers dispatcher → left.HasDispatcher dispatcher

namespace Alike

variable {loose : RegistryId → String → Bool} {left right : World}

/-! ### Reading -/

theorem name_eq (halike : Alike loose stage left right) {function other : FunctionId}
    (hfunctions : stage.functions function other) :
    (left.functionState function).name = (right.functionState other).name := by
  obtain ⟨registry, name, hleft, hright⟩ := halike.functions_iff.mp hfunctions
  rw [halike.soundLeft.canonical.name_eq hleft, halike.soundRight.canonical.name_eq hright]

/-- Functions that are alike are so on both sides. -/
theorem function_eq_iff (halike : Alike loose stage left right)
    {function function' other other' : FunctionId} (hfirst : stage.functions function other)
    (hsecond : stage.functions function' other') : function = function' ↔ other = other' := by
  obtain ⟨registry, name, hleft, hright⟩ := halike.functions_iff.mp hfirst
  obtain ⟨registry', name', hleft', hright'⟩ := halike.functions_iff.mp hsecond
  constructor
  · rintro rfl
    obtain ⟨rfl, rfl⟩ := halike.soundLeft.canonical.injective hleft hleft'
    exact Option.some.inj (hright.symm.trans hright')
  · rintro rfl
    obtain ⟨rfl, rfl⟩ := halike.soundRight.canonical.injective hright hright'
    exact Option.some.inj (hleft.symm.trans hleft')

theorem definition (halike : Alike loose stage left right) {function other : FunctionId}
    (hfunctions : stage.functions function other) :
    Option.Rel (Definition.Alike stage) (left.functionState function).definition
      (right.functionState other).definition := by
  obtain ⟨registry, name, hleft, hright⟩ := halike.functions_iff.mp hfunctions
  have hnamed := halike.named registry name
  rw [stateNamed?, stateNamed?, hleft, hright] at hnamed
  cases hnamed with
  | both hdefinition => exact hdefinition

theorem dispatcher_eq (halike : Alike loose stage left right) (dispatcher : DispatcherId) :
    left.dispatcher dispatcher = right.dispatcher dispatcher :=
  congrArg (Table.get · dispatcher.index) halike.dispatchers_eq

theorem depth_eq (halike : Alike loose stage left right) (dispatcher : DispatcherId) :
    left.depth dispatcher = right.depth dispatcher :=
  congrArg Dispatcher.depth (halike.dispatcher_eq dispatcher)

theorem configOf_eq (halike : Alike loose stage left right) (dispatcher : DispatcherId) :
    left.configOf dispatcher = right.configOf dispatcher := by
  rw [configOf, configOf, halike.dispatcher_eq, halike.config_eq]

theorem hasHome (halike : Alike loose stage left right) {dispatcher : DispatcherId}
    (hdispatcher : stage.dispatchers dispatcher) :
    left.HasRegistry (left.dispatcher dispatcher).registry :=
  halike.soundLeft.wellFormed dispatcher (halike.hasDispatcher hdispatcher)

theorem hasRegistry_right (halike : Alike loose stage left right) {registry : RegistryId}
    (hregistry : left.HasRegistry registry) : right.HasRegistry registry := by
  rwa [HasRegistry, ← halike.size_registries_eq]

/-! ### Effects that leave functions alone -/

theorem log (halike : Alike loose stage left right) (record other : TraceRecord) :
    Alike loose stage (left.log record) (right.log other) :=
  { halike with
    soundLeft := halike.soundLeft.congr rfl rfl rfl rfl
    soundRight := halike.soundRight.congr rfl rfl rfl rfl }

theorem freshIdentity (halike : Alike loose stage left right) :
    Alike loose stage left.freshIdentity.2 right.freshIdentity.2 :=
  { halike with
    soundLeft := halike.soundLeft.congr rfl rfl rfl rfl
    soundRight := halike.soundRight.congr rfl rfl rfl rfl
    nextIdentity_eq := congrArg (· + 1) halike.nextIdentity_eq }

theorem setDepth (halike : Alike loose stage left right) (dispatcher : DispatcherId)
    (depth : Nat) :
    Alike loose stage (left.setDepth dispatcher depth) (right.setDepth dispatcher depth) :=
  { halike with
    soundLeft := halike.soundLeft.setDepth dispatcher depth
    soundRight := halike.soundRight.setDepth dispatcher depth
    dispatchers_eq := congrArg (Table.modify · _ _) halike.dispatchers_eq
    hasDispatcher := fun hknown ↦ by
      rw [HasDispatcher, size_dispatchers_setDepth]
      exact halike.hasDispatcher hknown }

/-- Both sides change the members of an object. -/
theorem modifyMembers (halike : Alike loose stage left right) {object : ObjectId}
    {change other : Members Value → Members Value}
    (hchange : Members.Related (Value.Alike stage) (change (left.members object))
      (other (right.members object))) :
    Alike loose stage (left.modifyMembers object change) (right.modifyMembers object other) :=
  { halike with
    soundLeft := halike.soundLeft.congr rfl rfl rfl rfl
    soundRight := halike.soundRight.congr rfl rfl rfl rfl
    objects_iff := fun {asked} ↦ by
      rw [HasObject, World.modifyMembers, Table.size_modify]
      exact halike.objects_iff
    size_objects_eq := by
      simp only [World.modifyMembers, Table.size_modify, halike.size_objects_eq]
    members := fun asked hasked ↦ by
      rw [members_modifyMembers, members_modifyMembers, halike.size_objects_eq]
      split
      · next hsame => exact hsame.1 ▸ hchange
      · exact halike.members asked hasked }

/-- More registries and dispatchers are known. -/
theorem know (halike : Alike loose stage left right) (hlater : stage ≤ later)
    (hfunctions : later.functions = stage.functions) (hobjects : later.objects = stage.objects)
    (hregistries : ∀ {registry}, later.registries registry → left.HasRegistry registry)
    (hdispatchers : ∀ {dispatcher}, later.dispatchers dispatcher → left.HasDispatcher dispatcher) :
    Alike loose later left right :=
  { halike with
    functions_iff := fun {function other} ↦ by
      rw [hfunctions]
      exact halike.functions_iff
    named := fun registry name ↦ (halike.named registry name).mono hlater
    objects_iff := fun {object} ↦ by
      rw [hobjects]
      exact halike.objects_iff
    members := fun object hobject ↦ by
      rw [hobjects] at hobject
      exact (halike.members object hobject).mono fun hvalue ↦ hvalue.mono hlater
    sites := fun name ↦ (halike.sites name).mono hlater fun _ ↦ Nat.add_comm _ _
    hasRegistry := hregistries
    hasDispatcher := hdispatchers }

theorem members_newObject (world : World) (members : Members Value) (object : ObjectId) :
    (world.newObject members).2.members object =
      if object.index = world.objects.size then members else world.members object :=
  Table.get_push world.objects members object.index

theorem hasObject_newObject (world : World) (members : Members Value) (object : ObjectId) :
    (world.newObject members).2.HasObject object ↔
      world.HasObject object ∨ object = (world.newObject members).1 := by
  rw [HasObject, World.newObject, Table.size_push, Nat.lt_succ_iff_lt_or_eq, ObjectId.mk.injEq]
  rfl

/-- Both sides create the same object. -/
theorem newObject (halike : Alike loose stage left right) {members others : Members Value}
    (hmembers : Members.Related (Value.Alike stage) members others) :
    Alike loose (stage.withObject (left.newObject members).1) (left.newObject members).2
      (right.newObject others).2 :=
  have hlater := stage.le_withObject (left.newObject members).1
  { halike with
    soundLeft := halike.soundLeft.congr rfl rfl rfl rfl
    soundRight := halike.soundRight.congr rfl rfl rfl rfl
    named := fun registry name ↦ (halike.named registry name).mono hlater
    objects_iff := fun {object} ↦ by
      rw [hasObject_newObject, ← halike.objects_iff]
      rfl
    size_objects_eq := by
      simp only [World.newObject, Table.size_push, halike.size_objects_eq]
    members := fun object hobject ↦ by
      rw [members_newObject, members_newObject, ← halike.size_objects_eq]
      split
      · exact hmembers.mono fun hvalue ↦ hvalue.mono hlater
      · next hother =>
        have hold := hobject.resolve_right fun hnew ↦ hother (congrArg ObjectId.index hnew)
        exact (halike.members object hold).mono fun hvalue ↦ hvalue.mono hlater
    sites := fun name ↦ (halike.sites name).mono hlater fun _ ↦ Nat.add_comm _ _ }

theorem newRegistry (halike : Alike loose stage left right) (config : Config) :
    Alike loose (stage.withRegistry (left.newRegistry config).1) (left.newRegistry config).2
      (right.newRegistry config).2 := by
  have hnamed (world : World) (registry : RegistryId) (name : String) :
      (world.newRegistry config).2.functionNamed? registry name =
        world.functionNamed? registry name :=
    functionNamed?_of_same (world.registry_newRegistry config) registry name
  have hstate (world : World) (registry : RegistryId) (name : String) :
      (world.newRegistry config).2.stateNamed? registry name =
        world.stateNamed? registry name := by
    rw [stateNamed?, hnamed]
    rfl
  have hget (world : World) (registry : RegistryId) :
      (world.newRegistry config).2.registry registry =
        if registry.index = world.registries.size then { config } else world.registry registry :=
    Table.get_push world.registries { config } registry.index
  have hsame : Alike loose stage (left.newRegistry config).2 (right.newRegistry config).2 :=
    { halike with
      soundLeft := halike.soundLeft.effect (.newRegistry config) trivial
      soundRight := halike.soundRight.effect (.newRegistry config) trivial
      functions_iff := by
        simp only [Paired, hnamed]
        exact halike.functions_iff
      named := fun registry name ↦ by
        rw [hstate, hstate]
        exact halike.named registry name
      listed_eq := fun registry ↦ by
        rw [registry_newRegistry, registry_newRegistry]
        exact halike.listed_eq registry
      size_registries_eq := by
        simp only [World.newRegistry, Table.size_push, halike.size_registries_eq]
      config_eq := fun registry ↦ by
        rw [hget, hget, ← halike.size_registries_eq]
        split
        · rfl
        · exact halike.config_eq registry
      applied_eq := fun registry ↦ by
        rw [hget, hget, ← halike.size_registries_eq]
        split
        · rfl
        · exact halike.applied_eq registry
      hasRegistry := fun hknown ↦
        (Extends.effect (.newRegistry config) left).hasRegistry (halike.hasRegistry hknown) }
  refine hsame.know (stage.le_withRegistry _) rfl rfl ?_ hsame.hasDispatcher
  rintro registry (hold | rfl)
  · exact hsame.hasRegistry hold
  · simp [HasRegistry, World.newRegistry]

theorem newDispatcher (halike : Alike loose stage left right) {registry : RegistryId}
    (hregistry : stage.registries registry) :
    Alike loose (stage.withDispatcher (left.newDispatcher registry).1)
      (left.newDispatcher registry).2 (right.newDispatcher registry).2 := by
  have hexists := halike.hasRegistry hregistry
  have hsame : Alike loose stage (left.newDispatcher registry).2
      (right.newDispatcher registry).2 :=
    { halike with
      soundLeft := halike.soundLeft.effect (.newDispatcher registry) hexists
      soundRight := halike.soundRight.effect (.newDispatcher registry)
        (halike.hasRegistry_right hexists)
      dispatchers_eq := congrArg (Table.push · _) halike.dispatchers_eq
      hasDispatcher := fun hknown ↦
        (Extends.effect (.newDispatcher registry) left).hasDispatcher
          (halike.hasDispatcher hknown) }
  refine hsame.know (stage.le_withDispatcher _) rfl rfl hsame.hasRegistry ?_
  rintro dispatcher (hold | rfl)
  · exact hsame.hasDispatcher hold
  · simp [HasDispatcher, World.newDispatcher]

end Alike

end World

/-! ## Call sites -/

namespace Site

section Alike

variable {leftGeneration rightGeneration : FunctionId → Nat} {left right : Site}
  (halike : Site.Alike stage leftGeneration rightGeneration left right)
  (hinjective : ∀ {function function' other other'}, stage.functions function other →
    stage.functions function' other' → (function = function' ↔ other = other'))
include halike

theorem Alike.countFast : Site.Alike stage leftGeneration rightGeneration left.countFast
    right.countFast :=
  { halike with fastHits_eq := congrArg (· + 1) halike.fastHits_eq }

theorem Alike.countSlow : Site.Alike stage leftGeneration rightGeneration left.countSlow
    right.countSlow :=
  { halike with slowCalls_eq := congrArg (· + 1) halike.slowCalls_eq }

include hinjective

theorem Alike.target? {function other : FunctionId} (hfunction : stage.functions function other) :
    Option.Rel (SiteTarget.Alike stage leftGeneration rightGeneration) (left.target? function)
      (right.target? other) := by
  have htargets := halike.targets
  unfold Site.target?
  generalize left.targets = targets, right.targets = others at htargets
  induction htargets with
  | nil => exact .none
  | @cons target target' _ _ htarget _ ih =>
    have hsame := hinjective htarget.function hfunction
    by_cases heq : target.function = function
    · rw [List.find?_cons_of_pos (by simpa using heq),
        List.find?_cons_of_pos (by simpa using hsame.mp heq)]
      exact .some htarget
    · rw [List.find?_cons_of_neg (by simpa using heq),
        List.find?_cons_of_neg (by simpa using fun h ↦ heq (hsame.mpr h))]
      exact ih

/-- A site knows a function on one side if it does so on the other, and equally well. -/
theorem Alike.consult {function other : FunctionId} (hfunction : stage.functions function other) :
    (∃ definition definition',
      left.consult function (leftGeneration function) = .current definition ∧
        right.consult other (rightGeneration other) = .current definition') ∨
    ((∀ definition, left.consult function (leftGeneration function) ≠ .current definition) ∧
      ∀ definition, right.consult other (rightGeneration other) ≠ .current definition) := by
  have htarget := halike.target? hinjective hfunction
  unfold Site.consult
  rw [← halike.megamorphic_eq]
  split
  · exact .inr ⟨nofun, nofun⟩
  · generalize hleft : left.target? function = known, hright : right.target? other = known'
      at htarget
    cases htarget with
    | none => exact .inr ⟨nofun, nofun⟩
    | @some target target' halike =>
      have hage := halike.age_eq
      have hfound : target.function = function := by simpa using List.find?_some hleft
      have hfound' : target'.function = other := by simpa using List.find?_some hright
      rw [hfound, hfound'] at hage
      dsimp only
      by_cases hcurrent : target.generation = leftGeneration function
      · have hcurrent' : target'.generation = rightGeneration other := by omega
        rw [if_pos hcurrent, if_pos hcurrent']
        exact .inl ⟨_, _, rfl, rfl⟩
      · have hcurrent' : target'.generation ≠ rightGeneration other := by omega
        rw [if_neg hcurrent, if_neg hcurrent']
        exact .inr ⟨nofun, nofun⟩

theorem Alike.learn (limit : Nat) {name name' : String} {target target' : SiteTarget}
    (htarget : target.Alike stage leftGeneration rightGeneration target') :
    Site.Alike stage leftGeneration rightGeneration (left.learn limit name target).1
      (right.learn limit name' target').1 := by
  have hknown := halike.target? hinjective htarget.function
  have hlength := halike.targets.length_eq
  have hisSome : (left.target? target.function).isSome =
      (right.target? target'.function).isSome := by
    generalize left.target? target.function = known, right.target? target'.function = known'
      at hknown
    cases hknown <;> rfl
  unfold Site.learn
  rw [← halike.megamorphic_eq, ← hisSome, ← hlength]
  split
  · exact halike
  · split
    · refine { halike with targets := ?_, megamorphic_eq := rfl }
      refine List.forall₂_map_left_iff.mpr (List.forall₂_map_right_iff.mpr ?_)
      refine halike.targets.imp fun known known' hknown ↦ ?_
      have hsame := hinjective hknown.function htarget.function
      by_cases heq : known.function = target.function
      · rw [if_pos heq, if_pos (hsame.mp heq)]
        exact htarget
      · rw [if_neg heq, if_neg fun h ↦ heq (hsame.mpr h)]
        exact hknown
    · split
      · exact { halike with targets := .nil, megamorphic_eq := rfl }
      · exact { halike with
          targets := List.rel_append halike.targets (.cons htarget .nil)
          megamorphic_eq := rfl }

/-- The bookkeeping of calls of alike functions. -/
theorem Alike.note {call call' : SiteCall}
    (hfunction : stage.functions call.function call'.function)
    (hdefinition : Option.Rel (Definition.Alike stage) call.callee.definition
      call'.callee.definition)
    (hleft : call.callee.generation = leftGeneration call.function ∧
      call.callee.published = leftGeneration call.function)
    (hright : call'.callee.generation = rightGeneration call'.function ∧
      call'.callee.published = rightGeneration call'.function)
    (hlimit : call.cacheLimit = call'.cacheLimit) :
    Site.Alike stage leftGeneration rightGeneration (left.note call) (right.note call') := by
  have hslow : Site.Alike stage leftGeneration rightGeneration (left.noteSlow call)
      (right.noteSlow call') := by
    unfold Site.noteSlow
    generalize call.callee.definition = known, call'.callee.definition = known' at hdefinition
    cases hdefinition with
    | none => exact halike.countSlow
    | some hdefinition =>
      rw [← hlimit]
      refine halike.countSlow.learn hinjective call.cacheLimit ⟨hfunction, hdefinition, ?_⟩
      dsimp only
      rw [hleft.1, hright.1, Nat.add_comm]
  unfold Site.note
  rw [hleft.2, hright.2]
  rcases halike.consult hinjective hfunction with ⟨_, _, hcurrent, hcurrent'⟩ | ⟨hother, hother'⟩
  · rw [hcurrent, hcurrent']
    exact halike.countFast
  · generalize left.consult call.function _ = known, right.consult call'.function _ = known'
      at hother hother'
    cases known with
    | current definition => exact absurd rfl (hother definition)
    | stale | unknown =>
      cases known' with
      | current definition => exact absurd rfl (hother' definition)
      | stale | unknown => exact hslow

end Alike

end Site

namespace World

theorem eq_of_visible {world after : World} (hvisible : after.visible = world.visible) :
    after = { world with sites := after.sites, history := after.history } := by
  obtain ⟨hobjects, hfunctions, hregistries, hdispatchers, hidentity⟩ := visible_eq_iff.mp hvisible
  rw [← hobjects, ← hfunctions, ← hregistries, ← hdispatchers, ← hidentity]

namespace Alike

variable {loose : RegistryId → String → Bool} {left right : World}

/-- The bookkeeping of a call through a site. -/
theorem noteCall (halike : Alike loose stage left right) (dispatcher : DispatcherId)
    (site : String) {function other : FunctionId} (hfunctions : stage.functions function other) :
    Alike loose stage (left.noteCall dispatcher site function)
      (right.noteCall dispatcher site other) := by
  have hsites (name : String) : Site.Alike stage left.generationOf right.generationOf
      ((left.noteCall dispatcher site function).site name)
      ((right.noteCall dispatcher site other).site name) := by
    rw [site_noteCall, site_noteCall]
    split
    · refine (halike.sites site).note halike.function_eq_iff hfunctions
        (halike.definition hfunctions) ⟨rfl, halike.soundLeft.coherent.published_eq function⟩
        ⟨rfl, halike.soundRight.coherent.published_eq other⟩ ?_
      exact congrArg Config.cacheLimit (halike.configOf_eq dispatcher)
    · exact halike.sites name
  have hleft := halike.soundLeft.effect (.noteCall dispatcher site function) trivial
  have hright := halike.soundRight.effect (.noteCall dispatcher site other) trivial
  change (left.noteCall dispatcher site function).Sound at hleft
  change (right.noteCall dispatcher site other).Sound at hright
  rw [eq_of_visible (left.visible_noteCall dispatcher site function)] at hsites hleft ⊢
  rw [eq_of_visible (right.visible_noteCall dispatcher site other)] at hsites hright ⊢
  exact { halike with soundLeft := hleft, soundRight := hright, sites := hsites }

end Alike

end World

end GuestCore
