import GuestCore.Proofs.Simulation

/-!
# Simulations of Scripts

Under a simulation of worlds the scripts of two sessions relate: from related states they end with
the same error, or with related values in related states.  This passes through sequencing, reading
and writing, and through the creation of registries on first use.  What is built, and what is
asked of a world, is the same on both sides but for call sites and settings.
-/

namespace GuestCore

open Session

namespace Session

/-- The named registries exist, and so do their dispatchers. -/
def State.NamesExist (state : State) : Prop :=
  ∀ (name : String) (known : RegistryId × DispatcherId),
    state.registries.get? name = some known →
      state.world.HasRegistry known.1 ∧ state.world.HasDispatcher known.2

theorem State.NamesExist.setWorld {state : State} {world : World} (hnames : state.NamesExist)
    (hextends : state.world.Extends world) : NamesExist { state with world } := by
  intro name known hname
  obtain ⟨hregistry, hdispatcher⟩ := hnames name known hname
  exact ⟨hextends.hasRegistry hregistry, hextends.hasDispatcher hdispatcher⟩

theorem State.namesExist_start (config : Config) : State.NamesExist { config } := by
  intro name known hname
  exact absurd hname (by simp [Members.get?])

/-- The handles of the next registry and dispatcher. -/
def State.newNames (state : State) : RegistryId × DispatcherId :=
  (⟨state.world.registries.size⟩, ⟨state.world.dispatchers.size⟩)

/-- The state with a new registry and its dispatcher under a name. -/
def State.addNames (state : State) (name : String) : State :=
  { state with
    world := ((state.world.newRegistry state.config).2.newDispatcher state.newNames.1).2
    registries := state.registries.insert name state.newNames }

/-- The new registry and its dispatcher exist, and so does everything that existed before. -/
theorem State.addNames_exist (state : State) (name : String) :
    state.world.Extends (state.addNames name).world ∧
      (state.addNames name).world.HasRegistry state.newNames.1 ∧
        (state.addNames name).world.HasDispatcher state.newNames.2 := by
  refine ⟨?_, ?_, ?_⟩
  · exact (World.Extends.effect (.newRegistry state.config) state.world).trans
      (World.Extends.effect (.newDispatcher state.newNames.1) _)
  · simp [World.HasRegistry, World.newRegistry, World.newDispatcher, State.addNames, State.newNames]
  · simp [World.HasDispatcher, World.newRegistry, World.newDispatcher, State.addNames,
      State.newNames]

theorem State.NamesExist.addNames {state : State} (hnames : state.NamesExist) (name : String) :
    (state.addNames name).NamesExist := by
  obtain ⟨hextends, hexist⟩ := state.addNames_exist name
  intro other known hother
  change (state.registries.insert name state.newNames).get? other = some known at hother
  rw [Members.get?_insert] at hother
  split at hother
  · obtain rfl := Option.some.inj hother
    exact hexist
  · exact hnames.setWorld hextends other known hother

variable {α : Type}

theorem Script.run_registry (name : String) (state : State) :
    (Script.registry name).run state =
      match state.registries.get? name with
      | some known => .ok (known, state)
      | none => .ok (state.newNames, state.addNames name) := by
  change (match state.registries.get? name with
    | some known => _
    | none => _ : Script (RegistryId × DispatcherId)).run state = _
  cases state.registries.get? name <;> rfl

theorem Script.run_perform (action : Action α) (state : State) :
    (Script.perform action).run state =
      match action state.world with
      | .returned value world => .ok (.ok value, { state with world })
      | .raised fault world => .ok (.error fault, { state with world })
      | .exhausted => .error .exhausted := by
  change (match action state.world with
    | .returned value world => _
    | .raised fault world => _
    | .exhausted => _ : Script (Except Fault α)).run state = _
  cases action state.world <;> rfl

end Session

namespace Simulation

variable {α β : Type} {simulation : Simulation} {base : World}

/-- Two states of a session that differ as the simulation allows. -/
structure States (simulation : Simulation) (left right : State) : Prop where
  worlds : simulation.worlds left.world right.world
  settings : simulation.settings left.config right.config
  registries : left.registries = right.registries
  batches : left.batches = right.batches
  slots : left.slots = right.slots
  names : left.NamesExist

/-- Two results with the same error, or with related values in related states after a world. -/
inductive Results (simulation : Simulation) (base : World) (same : World → α → α → Prop) :
    Except Malformed (α × State) → Except Malformed (α × State) → Prop where
  | ok {leftValue rightValue : α} {left right : State}
      (hsame : same left.world leftValue rightValue) (hstates : simulation.States left right)
      (hextends : base.Extends left.world) :
    Results simulation base same (.ok (leftValue, left)) (.ok (rightValue, right))
  | error (malformed : Malformed) :
    Results simulation base same (.error malformed) (.error malformed)

theorem Results.of_later {same : World → α → α → Prop} {later : World}
    {left right : Except Malformed (α × State)}
    (hresults : simulation.Results later same left right) (hlater : base.Extends later) :
    simulation.Results base same left right := by
  cases hresults with
  | ok hsame hstates hextends => exact .ok hsame hstates (hlater.trans hextends)
  | error malformed => exact .error malformed

/-- From related states after a world two scripts end alike. -/
def Relates (simulation : Simulation) (base : World) (same : World → α → α → Prop)
    (left right : Script α) : Prop :=
  ∀ ⦃leftState rightState : State⦄, simulation.States leftState rightState →
    base.Extends leftState.world →
      simulation.Results leftState.world same (left.run leftState) (right.run rightState)

/-- The script gives the same value on both sides. -/
abbrev Steady (simulation : Simulation) (base : World) (script : Script α) : Prop :=
  simulation.Relates base (fun _ ↦ Eq) script script

namespace States

variable {left right : State}

theorem setWorld {leftWorld rightWorld : World} (hstates : simulation.States left right)
    (hafter : simulation.After left.world leftWorld rightWorld) :
    simulation.States { left with world := leftWorld } { right with world := rightWorld } :=
  ⟨hafter.worlds, hstates.settings, hstates.registries, hstates.batches, hstates.slots,
    hstates.names.setWorld hafter.extends_base⟩

theorem newNames_eq (hstates : simulation.States left right) :
    left.newNames = right.newNames :=
  World.eq_of_contents_eq (fun world ↦ ((⟨world.registries.size⟩, ⟨world.dispatchers.size⟩) :
    RegistryId × DispatcherId)) (fun world ↦ by simp [World.contents])
    (simulation.contents_eq hstates.worlds)

/-- The same new registry and dispatcher on both sides. -/
theorem addNames (hstates : simulation.States left right) (name : String) :
    simulation.States (left.addNames name) (right.addNames name) ∧
      left.world.Extends (left.addNames name).world ∧
        (left.addNames name).world.HasRegistry left.newNames.1 ∧
          (left.addNames name).world.HasDispatcher left.newNames.2 := by
  obtain ⟨hextends, hregistry, hdispatcher⟩ := left.addNames_exist name
  have hworlds := simulation.effect (simulation.newRegistry hstates.worlds hstates.settings)
    (.newDispatcher left.newNames.1) rfl hregistry
  refine ⟨⟨?_, hstates.settings, ?_, hstates.batches, hstates.slots, hstates.names.addNames name⟩,
    hextends, hregistry, hdispatcher⟩
  · simp only [State.addNames, ← hstates.newNames_eq]
    exact hworlds
  · simp only [State.addNames, hstates.newNames_eq, hstates.registries]

end States

/-! ## Combining scripts -/

namespace Relates

variable {same : World → α → α → Prop} {sameNext : World → β → β → Prop} {left right : Script α}

theorem pure {leftValue rightValue : α}
    (hsame : ∀ later, base.Extends later → same later leftValue rightValue) :
    simulation.Relates base same (Pure.pure leftValue) (Pure.pure rightValue) :=
  fun _ _ hstates hbase ↦ .ok (hsame _ hbase) hstates (World.Extends.refl _)

theorem throw (malformed : Malformed) :
    simulation.Relates base same (MonadExcept.throw malformed) (MonadExcept.throw malformed) :=
  fun _ _ _ _ ↦ .error malformed

theorem later {after : World} (hrelates : simulation.Relates base same left right)
    (hafter : base.Extends after) : simulation.Relates after same left right :=
  fun _ _ hstates hextends ↦ hrelates hstates (hafter.trans hextends)

theorem bind {leftNext rightNext : α → Script β} (hfirst : simulation.Relates base same left right)
    (hnext : ∀ after leftValue rightValue, base.Extends after → same after leftValue rightValue →
      simulation.Relates after sameNext (leftNext leftValue) (rightNext rightValue)) :
    simulation.Relates base sameNext (left >>= leftNext) (right >>= rightNext) := by
  intro leftState rightState hstates hbase
  have hends := hfirst hstates hbase
  rw [StateT.run_bind, StateT.run_bind]
  generalize left.run leftState = leftResult at hends
  generalize right.run rightState = rightResult at hends
  cases hends with
  | error malformed => exact .error malformed
  | @ok leftValue rightValue leftMiddle rightMiddle hsame hmiddle hextends =>
    have hrest := hnext leftMiddle.world leftValue rightValue (hbase.trans hextends) hsame hmiddle
      (World.Extends.refl _)
    exact hrest.of_later hextends

/-- Sequencing after scripts that give the same value. -/
theorem next {leftNext rightNext : α → Script β}
    (hfirst : simulation.Relates base (fun _ ↦ Eq) left right)
    (hnext : ∀ value, simulation.Relates base sameNext (leftNext value) (rightNext value)) :
    simulation.Relates base sameNext (left >>= leftNext) (right >>= rightNext) := by
  refine hfirst.bind ?_
  rintro after value _ hafter rfl
  exact (hnext value).later hafter

theorem weaken {weaker : World → α → α → Prop} (hrelates : simulation.Relates base same left right)
    (hweaker : ∀ later leftValue rightValue, same later leftValue rightValue →
      weaker later leftValue rightValue) : simulation.Relates base weaker left right := by
  intro leftState rightState hstates hbase
  have hends := hrelates hstates hbase
  generalize left.run leftState = leftResult at hends
  generalize right.run rightState = rightResult at hends
  cases hends with
  | ok hsame hafter hextends => exact .ok (hweaker _ _ _ hsame) hafter hextends
  | error malformed => exact .error malformed

/-- Both sides read the state. -/
theorem getState {leftNext rightNext : State → Script β}
    (hnext : ∀ leftState rightState : State, simulation.States leftState rightState →
      simulation.Relates base sameNext (leftNext leftState) (rightNext rightState)) :
    simulation.Relates base sameNext (get >>= leftNext) (get >>= rightNext) :=
  fun _ _ hstates hbase ↦ hnext _ _ hstates hstates hbase

/-- Both sides read the world. -/
theorem getWorld {leftNext rightNext : World → Script β}
    (hnext : ∀ leftWorld rightWorld : World, simulation.After base leftWorld rightWorld →
      simulation.Relates base sameNext (leftNext leftWorld) (rightNext rightWorld)) :
    simulation.Relates base sameNext (Script.world >>= leftNext) (Script.world >>= rightNext) :=
  fun _ _ hstates hbase ↦ hnext _ _ ⟨hstates.worlds, hbase⟩ hstates hbase

/-- Both sides answer a question about the contents of the world. -/
theorem answer {look : World → α} (hlook : ∀ world : World, look world.contents = look world)
    (hsame : ∀ later value, same later value value) :
    simulation.Relates base same (Script.world >>= fun world ↦ Pure.pure (look world))
      (Script.world >>= fun world ↦ Pure.pure (look world)) := by
  refine getWorld fun leftWorld rightWorld hafter ↦ .pure fun later _ ↦ ?_
  rw [hafter.look_eq look hlook]
  exact hsame later _

/-- Both sides change the world. -/
theorem change {leftStep rightStep : World → α × World}
    (hstep : ∀ later, base.Extends later →
      StepsAgree (simulation.After later) leftStep rightStep) :
    simulation.Relates base (fun _ ↦ Eq) (Script.change leftStep) (Script.change rightStep) := by
  intro leftState rightState hstates hbase
  obtain ⟨hvalue, hafter⟩ := hstep leftState.world hbase
    (⟨hstates.worlds, World.Extends.refl _⟩ : simulation.After _ _ _)
  exact .ok hvalue (hstates.setWorld hafter) hafter.extends_base

/-- Both sides perform an action. -/
theorem perform {leftAction rightAction : Action α}
    (haction : ∀ later, base.Extends later →
      Action.Agree (simulation.After later) leftAction rightAction) :
    simulation.Relates base (fun _ ↦ Eq) (Script.perform leftAction)
      (Script.perform rightAction) := by
  intro leftState rightState hstates hbase
  have hends := haction leftState.world hbase
    (⟨hstates.worlds, World.Extends.refl _⟩ : simulation.After _ _ _)
  rw [Script.run_perform, Script.run_perform]
  generalize leftAction leftState.world = leftOutcome at hends
  generalize rightAction rightState.world = rightOutcome at hends
  cases hends with
  | returned value hafter => exact .ok rfl (hstates.setWorld hafter) hafter.extends_base
  | raised fault hafter => exact .ok rfl (hstates.setWorld hafter) hafter.extends_base
  | exhausted => exact .error _

/-- Both sides write to slots or batches. -/
theorem modifyNames {write : State → State}
    (hwrite : ∀ leftState rightState, simulation.States leftState rightState →
      simulation.States (write leftState) (write rightState))
    (hworld : ∀ state, (write state).world = state.world) :
    simulation.Steady base (modify write) := by
  intro leftState rightState hstates _
  refine .ok rfl (hwrite _ _ hstates) ?_
  rw [hworld]
  exact World.Extends.refl _

/-- The registry of a name and its dispatcher exist once they have been asked for. -/
theorem registry (name : String) :
    simulation.Relates base
      (fun later left right ↦ left = right ∧ later.HasRegistry left.1 ∧ later.HasDispatcher left.2)
      (Script.registry name) (Script.registry name) := by
  intro leftState rightState hstates _
  rw [Script.run_registry, Script.run_registry, ← hstates.registries, ← hstates.newNames_eq]
  cases hname : leftState.registries.get? name with
  | some known =>
    exact .ok ⟨rfl, hstates.names name known hname⟩ hstates (World.Extends.refl _)
  | none =>
    obtain ⟨hafter, hextends, hexist⟩ := hstates.addNames name
    exact .ok ⟨rfl, hexist⟩ hafter hextends

/-- Both sides look a registry up; what follows begins where it exists. -/
theorem onRegistry (name : String) {leftNext rightNext : RegistryId × DispatcherId → Script α}
    (hnext : ∀ (after : World) (registry : RegistryId) (dispatcher : DispatcherId),
      after.HasRegistry registry → after.HasDispatcher dispatcher →
        simulation.Relates after same (leftNext (registry, dispatcher))
          (rightNext (registry, dispatcher))) :
    simulation.Relates base same (Script.registry name >>= leftNext)
      (Script.registry name >>= rightNext) := by
  refine (registry name).bind ?_
  rintro after ⟨registry, dispatcher⟩ _ _ ⟨rfl, hregistry, hdispatcher⟩
  exact hnext after registry dispatcher hregistry hdispatcher

end Relates

end Simulation

end GuestCore
