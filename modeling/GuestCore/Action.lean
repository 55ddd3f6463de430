import GuestCore.World

/-!
# Actions

An action runs in a world and ends in one of three ways: it returns a value, it raises a fault, or
the allowance of nested calls runs out before it is finished.  The world survives a fault, so what
was done before the fault stays done.
-/

namespace GuestCore

inductive Outcome (α : Type) where
  | returned (value : α) (world : World)
  | raised (fault : Fault) (world : World)
  | exhausted

def Action (α : Type) : Type :=
  World → Outcome α

namespace Action

variable {α β : Type}

@[inline]
def pure (value : α) : Action α :=
  fun world ↦ .returned value world

@[inline]
def bind (action : Action α) (next : α → Action β) : Action β :=
  fun world ↦
    match action world with
    | .returned value world => next value world
    | .raised fault world => .raised fault world
    | .exhausted => .exhausted

@[inline]
def raise (fault : Fault) : Action α :=
  fun world ↦ .raised fault world

/-- The fallback runs in the world that the failed action left behind. -/
@[inline]
def orElse (action fallback : Action α) : Action α :=
  fun world ↦
    match action world with
    | .returned value world => .returned value world
    | .raised _ world => fallback world
    | .exhausted => .exhausted

/-- The action, with the world passed through a final step however it ends. -/
@[inline]
def restoring (action : Action α) (restore : World → World) : Action α :=
  fun world ↦
    match action world with
    | .returned value world => .returned value (restore world)
    | .raised fault world => .raised fault (restore world)
    | .exhausted => .exhausted

/-- A step that cannot fail. -/
@[inline]
def state (step : World → α × World) : Action α :=
  fun world ↦
    let (value, world) := step world
    .returned value world

@[inline]
def read (look : World → α) : Action α :=
  fun world ↦ .returned (look world) world

@[inline]
def update (step : World → World) : Action Unit :=
  fun world ↦ .returned () (step world)

@[inline]
def ofExcept : Except Fault α → Action α
  | .ok value => pure value
  | .error fault => raise fault

end Action

instance : Monad Action where
  pure := Action.pure
  bind := Action.bind

end GuestCore
