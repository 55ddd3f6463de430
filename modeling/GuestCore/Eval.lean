import GuestCore.Dispatch
import GuestCore.Operator

/-!
# Evaluation of Bodies

Evaluation follows the body; only calls leave it, and they go through the runner.  The runner
itself is `run`, whose allowance bounds how deeply calls may nest: with allowance `n + 1` a body
runs, and the calls in it run with allowance `n`.
-/

namespace GuestCore

namespace Value

/-- Calls a value, which must be a function. -/
def execute (run : Runner) (dispatcher : DispatcherId) (callee : Value)
    (arguments : List Value) : Action Value :=
  match callee.function? with
  | some id => Dispatch.call run dispatcher id arguments
  | none => .raise (.unsupportedMessage "execute")

/-- Calls a value through a call site. -/
def executeAt (routing : Routing) (run : Runner) (dispatcher : DispatcherId) (site : String)
    (callee : Value) (arguments : List Value) : Action Value :=
  match callee.function? with
  | some id => Dispatch.callAt routing run dispatcher site id arguments
  | none => .raise (.unsupportedMessage "execute")

end Value

namespace Body

mutual

def eval (routing : Routing) (run : Runner) (dispatcher : DispatcherId)
    (arguments : List Value) : Body Value → Action Value
  | constant value => pure value
  | argument index => pure (arguments.getD index .null)
  | argumentCount => pure (.integer arguments.length)
  | depth => .read fun world ↦ .integer (world.depth dispatcher)
  | lookup name => .state fun world ↦
    let (function, world) := world.findOrCreate (world.dispatcher dispatcher).registry name
    (.function function, world)
  | list items => do
    let values ← evalAll routing run dispatcher arguments items
    .state fun world ↦ world.newList values
  | operator op operation left right => do
    let leftValue ← eval routing run dispatcher arguments left
    let rightValue ← eval routing run dispatcher arguments right
    Operator.run op operation (.native leftValue) (.native rightValue)
  | choose condition thenBranch elseBranch => do
    match ← eval routing run dispatcher arguments condition with
    | .boolean true => eval routing run dispatcher arguments thenBranch
    | _ => eval routing run dispatcher arguments elseBranch
  | call name parts => do
    let values ← evalAll routing run dispatcher arguments parts
    Dispatch.callNamed run dispatcher name values
  | execute callee parts => do
    let function ← eval routing run dispatcher arguments callee
    let values ← evalAll routing run dispatcher arguments parts
    function.execute run dispatcher values
  | callAt site name parts => do
    let values ← evalAll routing run dispatcher arguments parts
    let function ← .state fun world ↦
      world.findOrCreate (world.dispatcher dispatcher).registry name
    Dispatch.callAt routing run dispatcher site function values
  | executeAt site callee parts => do
    let function ← eval routing run dispatcher arguments callee
    let values ← evalAll routing run dispatcher arguments parts
    function.executeAt routing run dispatcher site values
  | sequence items => do
    let values ← evalAll routing run dispatcher arguments items
    pure (values.getLastD .null)
  | register name body location => .state fun world ↦
    let (function, world) :=
      world.register (world.dispatcher dispatcher).registry name { body, location }
    (.function function, world)
  | registerBatch identity names bodies => .state fun world ↦
    (.null, world.registerBatch (world.dispatcher dispatcher).registry
      (.ofBodies identity names bodies))
  | readMember object member => do
    let value ← eval routing run dispatcher arguments object
    fun world ↦ Action.ofExcept (value.readMember world member) world
  | writeMember object member content => do
    let value ← eval routing run dispatcher arguments object
    let contentValue ← eval routing run dispatcher arguments content
    value.writeMember member contentValue
    pure contentValue
  | removeMember object member => do
    let value ← eval routing run dispatcher arguments object
    value.removeMember member
    pure .null
  | fail member => .raise (.unknownMember member)
  | attempt body fallback =>
    (eval routing run dispatcher arguments body).orElse
      (eval routing run dispatcher arguments fallback)

def evalAll (routing : Routing) (run : Runner) (dispatcher : DispatcherId)
    (arguments : List Value) : List (Body Value) → Action (List Value)
  | [] => pure []
  | body :: rest => do
    let value ← eval routing run dispatcher arguments body
    let values ← evalAll routing run dispatcher arguments rest
    pure (value :: values)

end

end Body

/-- Runs bodies with calls nested at most as deeply as the allowance. -/
def run (routing : Routing) : Nat → Runner
  | 0 => fun _ _ _ _ ↦ .exhausted
  | allowance + 1 => fun dispatcher definition arguments ↦
    definition.body.eval routing (run routing allowance) dispatcher arguments

namespace Receiver

/-- Calls a receiver.  The body of a foreign value runs as it is, without becoming one more active
call. -/
def execute (routing : Routing) (run : Runner) (dispatcher : DispatcherId)
    (arguments : List Value) : Receiver → Action Value
  | native value => value.execute run dispatcher arguments
  | descriptor _ | functions _ => .raise (.unsupportedMessage "execute")
  | foreign value =>
    match value.body? with
    | some body => body.eval routing run dispatcher arguments
    | none => .raise (.unsupportedMessage "execute")
  | view delegate => delegate.execute routing run dispatcher arguments

end Receiver

end GuestCore
