import GuestCore.Proofs.Events

/-!
# Limited Calls End

Bodies have no loops, so a call can go on for ever only if calls nest without bound.  On a
dispatcher with a depth limit they cannot, whatever the functions are bound to and whatever they
bind while they run: every way of calling passes the limit.  The allowance that a call needs is
the number of calls that the limit leaves, and with more than that it ends no differently.
-/

namespace GuestCore

/-! ## A dispatcher with a limit -/

/-- The dispatcher has the limit, and that many calls are active on it. -/
structure World.Limited (world : World) (dispatcher : DispatcherId) (limit depth : Nat) :
    Prop where
  hasDispatcher : world.HasDispatcher dispatcher
  limit_eq : (world.configOf dispatcher).depthLimit = some limit
  depth_eq : world.depth dispatcher = depth

namespace World.Limited

variable {world : World} {dispatcher : DispatcherId} {limit depth : Nat}

/-- A registry without settings of its own has no limit, so there is a registry. -/
theorem hasRegistry (hlimited : world.Limited dispatcher limit depth) :
    world.HasRegistry (world.dispatcher dispatcher).registry := by
  refine Nat.lt_of_not_le fun habsent ↦ ?_
  have hdefault : world.registry (world.dispatcher dispatcher).registry = default := by
    simp only [Table.size] at habsent
    simp [World.registry, Table.get, habsent]
  have hlimit := hlimited.limit_eq
  rw [configOf, hdefault] at hlimit
  cases hlimit

theorem effect (hlimited : world.Limited dispatcher limit depth) (effect : Effect) :
    (effect.apply world).Limited dispatcher limit depth where
  hasDispatcher := (Extends.effect effect world).hasDispatcher hlimited.hasDispatcher
  limit_eq := by
    have hextends := Extends.effect effect world
    rw [configOf, hextends.home _ hlimited.hasDispatcher, hextends.config _ hlimited.hasRegistry]
    exact hlimited.limit_eq
  depth_eq := (effect.depth_apply world dispatcher).trans hlimited.depth_eq

theorem replay (hlimited : world.Limited dispatcher limit depth) (effects : List Effect) :
    (Event.replay (effects.map .effect) world).Limited dispatcher limit depth := by
  induction effects generalizing world with
  | nil => exact hlimited
  | cons effect rest ih => exact ih (hlimited.effect effect)

theorem setDepth (hlimited : world.Limited dispatcher limit depth) (next : Nat) :
    (world.setDepth dispatcher next).Limited dispatcher limit next where
  hasDispatcher := (Extends.setDepth world dispatcher next).hasDispatcher hlimited.hasDispatcher
  limit_eq := by
    rw [configOf, registry_dispatcher_setDepth]
    exact hlimited.limit_eq
  depth_eq := by rw [World.depth_setDepth _ hlimited.hasDispatcher, if_pos rfl]

end World.Limited

/-! ## Ending alike -/

/-- From every world with a property both actions end, in the same way, and the property still
holds. -/
def Action.EndAlike {α : Type} (holds : World → Prop) (left right : Action α) : Prop :=
  ∀ world, holds world →
    left world = right world ∧ ∃ after, (left world).world? = some after ∧ holds after

namespace Action.EndAlike

variable {α β : Type} {holds : World → Prop} {left right : Action α}

theorem pure (value : α) : EndAlike holds (Pure.pure value : Action α) (Pure.pure value) :=
  fun world hworld ↦ ⟨rfl, world, rfl, hworld⟩

theorem bind {leftNext rightNext : α → Action β} (hfirst : EndAlike holds left right)
    (hnext : ∀ value, EndAlike holds (leftNext value) (rightNext value)) :
    EndAlike holds (left >>= leftNext) (right >>= rightNext) := by
  intro world hworld
  change Action.bind left leftNext world = Action.bind right rightNext world ∧
    ∃ after, (Action.bind left leftNext world).world? = some after ∧ holds after
  obtain ⟨heq, after, hafter, hholds⟩ := hfirst world hworld
  unfold Action.bind
  rw [← heq]
  cases hend : left world with
  | returned value middle =>
    rw [hend] at hafter
    obtain rfl := Option.some.inj hafter
    exact hnext value middle hholds
  | raised fault middle =>
    rw [hend] at hafter
    exact ⟨rfl, after, hafter, hholds⟩
  | exhausted =>
    rw [hend] at hafter
    cases hafter

theorem orElse {leftFallback rightFallback : Action α} (hfirst : EndAlike holds left right)
    (hfallback : EndAlike holds leftFallback rightFallback) :
    EndAlike holds (left.orElse leftFallback) (right.orElse rightFallback) := by
  intro world hworld
  obtain ⟨heq, after, hafter, hholds⟩ := hfirst world hworld
  unfold Action.orElse
  rw [← heq]
  cases hend : left world with
  | returned value middle =>
    rw [hend] at hafter
    exact ⟨rfl, after, hafter, hholds⟩
  | raised fault middle =>
    rw [hend] at hafter
    obtain rfl := Option.some.inj hafter
    exact hfallback middle hholds
  | exhausted =>
    rw [hend] at hafter
    cases hafter

theorem of_world? {action : Action α}
    (hends : ∀ world, holds world → ∃ after, (action world).world? = some after ∧ holds after) :
    EndAlike holds action action :=
  fun world hworld ↦ ⟨rfl, hends world hworld⟩

end Action.EndAlike

/-! ## Runs with enough allowance -/

section Limited

variable {dispatcher : DispatcherId} {limit depth : Nat} {leftRun rightRun : Runner}

/-- Runs of bodies end alike, with that many calls active. -/
def RunsEndAlike (dispatcher : DispatcherId) (limit depth : Nat) (leftRun rightRun : Runner) :
    Prop :=
  ∀ (definition : Definition) (arguments : List Value),
    Action.EndAlike (fun world ↦ world.Limited dispatcher limit depth)
      (leftRun dispatcher definition arguments) (rightRun dispatcher definition arguments)

/-- A call is refused, or its body runs with one more call active. -/
theorem Dispatch.activate_endAlike
    (hrun : depth < limit → RunsEndAlike dispatcher limit (depth + 1) leftRun rightRun)
    (name : String) (definition : Definition) (arguments : List Value) :
    Action.EndAlike (fun world ↦ world.Limited dispatcher limit depth)
      (activate leftRun dispatcher name definition arguments)
      (activate rightRun dispatcher name definition arguments) := by
  intro world hlimited
  unfold activate
  dsimp only
  rw [hlimited.depth_eq]
  cases hreached : (world.configOf dispatcher).reachedLimit? depth with
  | some reached =>
    exact ⟨rfl, _, rfl, hlimited.effect (.refuseCall name reached)⟩
  | none =>
    have hbelow := Config.lt_of_reachedLimit?_eq_none hreached hlimited.limit_eq
    obtain ⟨heq, after, hafter, hinner⟩ :=
      hrun hbelow definition arguments _ (hlimited.setDepth (depth + 1))
    unfold Action.restoring
    rw [← heq]
    refine ⟨rfl, after.setDepth dispatcher depth, ?_, hinner.setDepth depth⟩
    generalize leftRun dispatcher definition arguments _ = outcome at hafter
    cases outcome with
    | returned value final | raised fault final =>
      obtain rfl := Option.some.inj hafter
      rfl
    | exhausted => cases hafter

theorem Route.call_endAlike
    (hrun : depth < limit → RunsEndAlike dispatcher limit (depth + 1) leftRun rightRun)
    (routing : Routing) (arguments : List Value) (route : Route) :
    Action.EndAlike (fun world ↦ world.Limited dispatcher limit depth)
      (route.call routing leftRun dispatcher arguments)
      (route.call routing rightRun dispatcher arguments) := by
  intro world hlimited
  have hentrance := hlimited.replay (route.effects routing world dispatcher)
  rw [call_eq_enter, call_eq_enter]
  cases route.target routing world dispatcher with
  | ok target => exact Dispatch.activate_endAlike hrun target.1 target.2 arguments _ hentrance
  | error fault => exact ⟨rfl, _, rfl, hentrance⟩

theorem Body.eval_endAlike
    (hrun : depth < limit → RunsEndAlike dispatcher limit (depth + 1) leftRun rightRun)
    (routing : Routing) (arguments : List Value) (body : Body Value) :
    Action.EndAlike (fun world ↦ world.Limited dispatcher limit depth)
      (body.eval routing leftRun dispatcher arguments)
      (body.eval routing rightRun dispatcher arguments) := by
  have hparts : Interpretation.Corresponds (.running routing leftRun dispatcher)
      (.running routing rightRun dispatcher)
      (Action.EndAlike fun world ↦ world.Limited dispatcher limit depth) :=
    { pure := .pure
      bind := .bind
      orElse := .orElse
      leaf := fun part ↦ .of_world? fun world hlimited ↦
        ⟨_, part.world?_perform dispatcher world, hlimited.replay _⟩
      call := fun route arguments ↦ route.call_endAlike hrun routing arguments }
  rw [eval_eq_interpret, eval_eq_interpret]
  exact interpret_related hparts arguments body

/-- With the calls that are active and the calls that are allowed, both runs get past the limit,
so neither gives up and they do the same. -/
theorem run_endAlike (routing : Routing) (limit : Nat) {first second depth : Nat}
    (hdepth : depth ≤ limit) (hfirst : limit < depth + first) (hsecond : limit < depth + second) :
    RunsEndAlike dispatcher limit depth (run routing first) (run routing second) := by
  induction first generalizing second depth with
  | zero => omega
  | succ first ih =>
    cases second with
    | zero => omega
    | succ second =>
      intro definition arguments
      refine Body.eval_endAlike (fun hbelow ↦ ?_) routing arguments definition.body
      exact ih hbelow (by omega) (by omega)

theorem Receiver.execute_endAlike
    (hrun : depth < limit → RunsEndAlike dispatcher limit (depth + 1) leftRun rightRun)
    (routing : Routing) (arguments : List Value) (receiver : Receiver) :
    Action.EndAlike (fun world ↦ world.Limited dispatcher limit depth)
      (receiver.execute routing leftRun dispatcher arguments)
      (receiver.execute routing rightRun dispatcher arguments) := by
  have hraise (fault : Fault) :
      Action.EndAlike (fun world ↦ world.Limited dispatcher limit depth)
        (.raise fault : Action Value) (.raise fault) :=
    .of_world? fun world hlimited ↦ ⟨world, rfl, hlimited⟩
  induction receiver with
  | native value =>
    unfold Receiver.execute Value.execute
    cases value.function? with
    | some callee => exact Route.call_endAlike hrun routing arguments (.direct callee)
    | none => exact hraise _
  | descriptor | functions => exact hraise _
  | foreign value =>
    unfold Receiver.execute
    cases value.body? with
    | some body => exact Body.eval_endAlike hrun routing arguments body
    | none => exact hraise _
  | view delegate ih => exact ih

end Limited

/-! ## Every call ends -/

/-- With every allowance that is large enough the outcome is the same, and it is a value or a
fault. -/
def EndsFrom (enough : Nat) (outcome : Nat → Outcome Value) : Prop :=
  ∃ ending, ((∃ value after, ending = .returned value after) ∨
      ∃ fault after, ending = .raised fault after) ∧
    ∀ allowance, enough ≤ allowance → outcome allowance = ending

theorem Action.EndAlike.endsFrom {holds : World → Prop} {enough : Nat}
    {action : Nat → Action Value} {world : World} (hworld : holds world)
    (halike : ∀ allowance, enough ≤ allowance →
      Action.EndAlike holds (action enough) (action allowance)) :
    EndsFrom enough fun allowance ↦ action allowance world := by
  obtain ⟨-, after, hafter, -⟩ := halike enough (Nat.le_refl enough) world hworld
  refine ⟨action enough world, ?_, fun allowance henough ↦ ?_⟩
  · cases hend : action enough world with
    | returned value final => exact .inl ⟨value, final, rfl⟩
    | raised fault final => exact .inr ⟨fault, final, rfl⟩
    | exhausted =>
      rw [hend] at hafter
      cases hafter
  · exact (halike allowance henough world hworld).1.symm

/-- On a dispatcher with a depth limit every call ends, with a value or with a fault: in every
world, with any functions and objects in it, and in every way of calling.  It is enough to allow
as many nested calls as the limit leaves. -/
theorem limited_calls_end (world : World) (dispatcher : DispatcherId) (limit : Nat)
    (hdispatcher : world.HasDispatcher dispatcher)
    (hlimit : (world.configOf dispatcher).depthLimit = some limit) (routing : Routing)
    (arguments : List Value) :
    (∀ route : Route, EndsFrom (limit - world.depth dispatcher) fun allowance ↦
      route.call routing (run routing allowance) dispatcher arguments world) ∧
    ∀ receiver : Receiver, EndsFrom (limit - world.depth dispatcher) fun allowance ↦
      receiver.execute routing (run routing allowance) dispatcher arguments world := by
  have hlimited : world.Limited dispatcher limit (world.depth dispatcher) :=
    ⟨hdispatcher, hlimit, rfl⟩
  have hruns (allowance : Nat) (henough : limit - world.depth dispatcher ≤ allowance)
      (hbelow : world.depth dispatcher < limit) :
      RunsEndAlike dispatcher limit (world.depth dispatcher + 1)
        (run routing (limit - world.depth dispatcher)) (run routing allowance) :=
    run_endAlike routing limit hbelow (by omega) (by omega)
  constructor
  · intro route
    exact Action.EndAlike.endsFrom hlimited fun allowance henough ↦
      route.call_endAlike (hruns allowance henough) routing arguments
  · intro receiver
    exact Action.EndAlike.endsFrom hlimited fun allowance henough ↦
      receiver.execute_endAlike (hruns allowance henough) routing arguments

/-- A registry whose only function calls itself through a call site. -/
def selfCalling (depthLimit : Option Nat) : World :=
  (Moment.start.after [.newRegistry { depthLimit }, .newDispatcher ⟨0⟩,
    .register ⟨0⟩ "f" { body := .callAt "site" "f" [] }]).world

/-- With a limit of three, the function that calls itself ends. -/
theorem limited_calls_end_selfCalling :
    (selfCalling (some 3)).HasDispatcher ⟨0⟩ ∧
      ((selfCalling (some 3)).configOf ⟨0⟩).depthLimit = some 3 ∧
      EndsFrom 3 fun allowance ↦
        (Route.throughSite "site" ⟨0⟩).call .cached (run .cached allowance) ⟨0⟩ []
          (selfCalling (some 3)) :=
  ⟨by decide, rfl, (limited_calls_end (selfCalling (some 3)) ⟨0⟩ 3 (by decide) rfl .cached []).1
    (.throughSite "site" ⟨0⟩)⟩

end GuestCore
