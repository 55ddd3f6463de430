import GuestCore.Proofs.Interpretation

/-!
# Agreeing Runs

Two actions agree under a relation between worlds if from related worlds they end alike: with the
same value, the same fault or both exhausted, and in related worlds.  Agreement passes through
every way of combining actions.  Bodies run alike therefore, as soon as their calls and the few
things that they do to the world agree.
-/

namespace GuestCore

variable {α β : Type} {related : World → World → Prop}

/-- Two outcomes with the same result in related worlds. -/
inductive Outcome.Agree (related : World → World → Prop) : Outcome α → Outcome α → Prop where
  | returned (value : α) {left right : World} (hrelated : related left right) :
    Agree related (.returned value left) (.returned value right)
  | raised (fault : Fault) {left right : World} (hrelated : related left right) :
    Agree related (.raised fault left) (.raised fault right)
  | exhausted : Agree related .exhausted .exhausted

theorem Outcome.Agree.mono {weaker : World → World → Prop} {left right : Outcome α}
    (hagree : left.Agree related right)
    (hweaker : ∀ leftWorld rightWorld, related leftWorld rightWorld →
      weaker leftWorld rightWorld) : left.Agree weaker right := by
  cases hagree with
  | returned value hrelated => exact .returned value (hweaker _ _ hrelated)
  | raised fault hrelated => exact .raised fault (hweaker _ _ hrelated)
  | exhausted => exact .exhausted

/-- From related worlds two actions end alike. -/
def Action.Agree (related : World → World → Prop) (left right : Action α) : Prop :=
  ∀ ⦃leftWorld rightWorld : World⦄, related leftWorld rightWorld →
    (left leftWorld).Agree related (right rightWorld)

/-- From related worlds two steps give equal values and related worlds. -/
def StepsAgree (related : World → World → Prop) (left right : World → α × World) : Prop :=
  ∀ ⦃leftWorld rightWorld : World⦄, related leftWorld rightWorld →
    (left leftWorld).1 = (right rightWorld).1 ∧ related (left leftWorld).2 (right rightWorld).2

namespace Action.Agree

variable {left right : Action α}

theorem pure (value : α) :
    Action.Agree related (Pure.pure value : Action α) (Pure.pure value) :=
  fun _ _ hrelated ↦ .returned value hrelated

theorem raise (fault : Fault) : Action.Agree related (.raise fault : Action α) (.raise fault) :=
  fun _ _ hrelated ↦ .raised fault hrelated

theorem bind {leftNext rightNext : α → Action β} (hfirst : Action.Agree related left right)
    (hnext : ∀ value, Action.Agree related (leftNext value) (rightNext value)) :
    Action.Agree related (left >>= leftNext) (right >>= rightNext) := by
  intro leftWorld rightWorld hrelated
  change (Action.bind left leftNext leftWorld).Agree related
    (Action.bind right rightNext rightWorld)
  have hends := hfirst hrelated
  unfold Action.bind
  generalize left leftWorld = leftOutcome at hends
  generalize right rightWorld = rightOutcome at hends
  cases hends with
  | returned value hafter => exact hnext value hafter
  | raised fault hafter => exact .raised fault hafter
  | exhausted => exact .exhausted

theorem orElse {leftFallback rightFallback : Action α} (hfirst : Action.Agree related left right)
    (hfallback : Action.Agree related leftFallback rightFallback) :
    Action.Agree related (left.orElse leftFallback) (right.orElse rightFallback) := by
  intro leftWorld rightWorld hrelated
  have hends := hfirst hrelated
  unfold Action.orElse
  generalize left leftWorld = leftOutcome at hends
  generalize right rightWorld = rightOutcome at hends
  cases hends with
  | returned value hafter => exact .returned value hafter
  | raised fault hafter => exact hfallback hafter
  | exhausted => exact .exhausted

/-- Steps that cannot fail agree if they give equal values and related worlds. -/
theorem state {leftStep rightStep : World → α × World}
    (hstep : StepsAgree related leftStep rightStep) :
    Action.Agree related (.state leftStep) (.state rightStep) := by
  intro leftWorld rightWorld hrelated
  obtain ⟨hvalue, hafter⟩ := hstep hrelated
  change Outcome.Agree related (.returned (leftStep leftWorld).1 (leftStep leftWorld).2)
    (.returned (rightStep rightWorld).1 (rightStep rightWorld).2)
  rw [hvalue]
  exact .returned _ hafter

theorem read {leftLook rightLook : World → α}
    (hlook : ∀ {leftWorld rightWorld : World}, related leftWorld rightWorld →
      leftLook leftWorld = rightLook rightWorld) :
    Action.Agree related (.read leftLook) (.read rightLook) := by
  intro leftWorld rightWorld hrelated
  unfold Action.read
  rw [hlook hrelated]
  exact .returned _ hrelated

/-- Questions that may fail agree if their answers are equal. -/
theorem ofExcept {leftLook rightLook : World → Except Fault α}
    (hlook : ∀ {leftWorld rightWorld : World}, related leftWorld rightWorld →
      leftLook leftWorld = rightLook rightWorld) :
    Action.Agree related (fun world ↦ Action.ofExcept (leftLook world) world)
      (fun world ↦ Action.ofExcept (rightLook world) world) := by
  intro leftWorld rightWorld hrelated
  dsimp only
  rw [hlook hrelated]
  cases rightLook rightWorld with
  | ok value => exact .returned value hrelated
  | error fault => exact .raised fault hrelated

end Action.Agree

/-! ## Bodies -/

namespace Body

variable {leftRouting rightRouting : Routing} {leftRun rightRun : Runner}
  {dispatcher : DispatcherId}

/-- What bodies do to the world, and the calls they make, agree. -/
structure LeavesAgree (related : World → World → Prop) (leftRouting rightRouting : Routing)
    (leftRun rightRun : Runner) (dispatcher : DispatcherId) : Prop where
  leaf : ∀ {α : Type} (part : Leaf α),
    Action.Agree related (part.perform dispatcher) (part.perform dispatcher)
  call : ∀ (route : Route) (arguments : List Value), Action.Agree related
    (route.call leftRouting leftRun dispatcher arguments)
    (route.call rightRouting rightRun dispatcher arguments)

/-- Bodies agree if what they do to the world and their calls agree. -/
theorem eval_agree
    (hleaves : LeavesAgree related leftRouting rightRouting leftRun rightRun dispatcher)
    (arguments : List Value) (body : Body Value) :
    Action.Agree related (body.eval leftRouting leftRun dispatcher arguments)
      (body.eval rightRouting rightRun dispatcher arguments) := by
  have hparts : Interpretation.Corresponds (.running leftRouting leftRun dispatcher)
      (.running rightRouting rightRun dispatcher) (Action.Agree related) :=
    { pure := .pure
      bind := .bind
      orElse := .orElse
      leaf := hleaves.leaf
      call := hleaves.call }
  rw [eval_eq_interpret, eval_eq_interpret]
  exact interpret_related hparts arguments body

end Body

end GuestCore
