import GuestCore.Eval
import GuestCore.Session.Step

/-!
# Building

Turns descriptions into values, receivers and definitions.  Parts are built from left to right,
and whatever a description looks up or creates on the way is done in that order.
-/

namespace GuestCore

namespace Body

variable {m : Type → Type} [Monad m] {κ μ : Type}

mutual

/-- The body with every constant replaced, in the order in which the constants stand. -/
def mapConstants (convert : κ → m μ) : Body κ → m (Body μ)
  | constant value => do return constant (← convert value)
  | argument index => return argument index
  | argumentCount => return argumentCount
  | depth => return depth
  | lookup name => return lookup name
  | list items => do return list (← mapConstantsAll convert items)
  | operator op operation left right => do
    let left ← mapConstants convert left
    let right ← mapConstants convert right
    return operator op operation left right
  | choose condition thenBranch elseBranch => do
    let condition ← mapConstants convert condition
    let thenBranch ← mapConstants convert thenBranch
    let elseBranch ← mapConstants convert elseBranch
    return choose condition thenBranch elseBranch
  | call name arguments => do return call name (← mapConstantsAll convert arguments)
  | execute callee arguments => do
    let callee ← mapConstants convert callee
    let arguments ← mapConstantsAll convert arguments
    return execute callee arguments
  | callAt site name arguments => do
    return callAt site name (← mapConstantsAll convert arguments)
  | executeAt site callee arguments => do
    let callee ← mapConstants convert callee
    let arguments ← mapConstantsAll convert arguments
    return executeAt site callee arguments
  | sequence items => do return sequence (← mapConstantsAll convert items)
  | register name body location => do
    return register name (← mapConstants convert body) location
  | registerBatch identity names bodies => do
    return registerBatch identity names (← mapConstantsAll convert bodies)
  | readMember object member => do return readMember (← mapConstants convert object) member
  | writeMember object member value => do
    let object ← mapConstants convert object
    let value ← mapConstants convert value
    return writeMember object member value
  | removeMember object member => do
    return removeMember (← mapConstants convert object) member
  | fail member => return fail member
  | attempt body fallback => do
    let body ← mapConstants convert body
    let fallback ← mapConstants convert fallback
    return attempt body fallback

def mapConstantsAll (convert : κ → m μ) : List (Body κ) → m (List (Body μ))
  | [] => return []
  | body :: rest => do
    let body ← mapConstants convert body
    let rest ← mapConstantsAll convert rest
    return body :: rest

end

end Body

namespace Session

/-- Why a session could not go on: a step refers to something that the session does not have, or
calls nest more deeply than the allowance. -/
inductive Malformed where
  | unknownSlot (name : String)
  | slotNotNative (name : String)
  | unknownBatch (name : String)
  | notAnObject
  | notAFunction
  | notComparable
  | exhausted
deriving DecidableEq, Repr

namespace Malformed

def message : Malformed → String
  | unknownSlot name => "no slot named " ++ name
  | slotNotNative name => "no native value in slot " ++ name
  | unknownBatch name => "no batch named " ++ name
  | notAnObject => "an object is needed here"
  | notAFunction => "a function is needed here"
  | notComparable => "two texts or two lists are needed here"
  | exhausted => "calls are nested too deeply"

end Malformed

/-- The state between the steps of a session. -/
structure State where
  /-- The settings of every registry of the session. -/
  config : Config := {}
  world : World := {}
  /-- Registries by name, each with its dispatcher. -/
  registries : Members (RegistryId × DispatcherId) := {}
  batches : Members Batch := {}
  slots : Members Place := {}

abbrev Script := StateT State (Except Malformed)

namespace Script

/-- A change of the world that cannot fail. -/
def change {α : Type} (step : World → α × World) : Script α := do
  let state ← get
  let (value, world) := step state.world
  set { state with world }
  return value

def world : Script World :=
  return (← get).world

/-- The outcome of an action: its value, or the fault that it raised. -/
def perform {α : Type} (action : Action α) : Script (Except Fault α) := do
  let state ← get
  match action state.world with
  | .returned value world => set { state with world }; return .ok value
  | .raised fault world => set { state with world }; return .error fault
  | .exhausted => throw .exhausted

/-- The registry of a name and its dispatcher, which are created on first use. -/
def registry (name : String) : Script (RegistryId × DispatcherId) := do
  let state ← get
  match state.registries.get? name with
  | some known => return known
  | none =>
    let (registry, world) := state.world.newRegistry state.config
    let (dispatcher, world) := world.newDispatcher registry
    let created := (registry, dispatcher)
    set { state with world, registries := state.registries.insert name created }
    return created

def place (slot : String) : Script Place := do
  match (← get).slots.get? slot with
  | some place => return place
  | none => throw (.unknownSlot slot)

end Script

namespace ValueSpec

/-- A value inside that many lists of one element. -/
def wrap (value : Value) : Nat → World → Value × World
  | 0, world => (value, world)
  | depth + 1, world =>
    let (inner, world) := wrap value depth world
    world.newList [inner]

mutual

def build : ValueSpec → Script Value
  | null => return .null
  | boolean value => return .boolean value
  | integer value => return .integer value
  | text content => Script.change fun world ↦ world.newText content
  | list items => do
    let values ← buildAll items
    Script.change fun world ↦ world.newList values
  | slot name => do
    match (← Script.place name).receiver.native? with
    | some value => return value
    | none => throw (.slotNotNative name)
  | function name registry => do
    let (registry, _) ← Script.registry registry
    return .function (← Script.change fun world ↦ world.findOrCreate registry name)
  | object fields => do
    let members ← buildFields {} fields
    return .object (← Script.change fun world ↦ world.newObject members)
  | nested depth item => do
    let value ← build item
    Script.change (wrap value depth)

def buildAll : List ValueSpec → Script (List Value)
  | [] => return []
  | spec :: rest => do
    let value ← build spec
    let values ← buildAll rest
    return value :: values

def buildFields (members : Members Value) : List (String × ValueSpec) → Script (Members Value)
  | [] => return members
  | (key, spec) :: rest => do
    let value ← build spec
    buildFields (members.insert key value) rest

end

end ValueSpec

def DefinitionSpec.build (spec : DefinitionSpec) : Script Definition := do
  let body ← spec.body.mapConstants ValueSpec.build
  return { body, location := if spec.plain then none else spec.location }

namespace ForeignSpec

/-- The answer of a foreign value: what it gives, or the fault of a message it does not know. -/
def answer {α : Type} (given : Option α) (fault : Fault) : Except Fault α :=
  match given with
  | some value => .ok value
  | none => .error fault

def build (spec : ForeignSpec) : Script Foreign := do
  let native? ← spec.native.mapM ValueSpec.build
  let members? ← spec.members.mapM ValueSpec.build
  let elements? ← spec.elements.mapM ValueSpec.build
  let body? ← spec.body.mapM (Body.mapConstants ValueSpec.build)
  let handle ← Script.change World.freshIdentity
  return {
    handle, native?, members?, elements?, body?
    display := spec.display
    isNull := spec.isNull
    isBoolean := spec.isBoolean
    asBoolean := answer spec.asBoolean (.unsupportedMessage "as_boolean")
    isText := spec.isText
    asText := answer spec.asText (.unsupportedMessage "as_string")
    isNumber := spec.isNumber
    asInteger := answer spec.asInteger (.unsupportedConversion "big integer")
    hasMembers := spec.hasMembers
    hasElements := spec.hasElements
    isExecutable := spec.isExecutable
    location? := spec.location
    identity := fun _ ↦ spec.identity.getD .unknown
    identityHash := answer (spec.identityHash.map .number) (.unsupportedMessage "identity_hash") }

end ForeignSpec

namespace ReceiverSpec

def build : ReceiverSpec → Script Receiver
  | slot name => return (← Script.place name).receiver
  | view delegate => return .view (← delegate.build)
  | descriptor type => return .descriptor type
  | functions registry => return .functions (← Script.registry registry).1
  | foreign spec => return .foreign (← spec.build)
  | value spec => return .native (← spec.build)

/-- The receiver in its place: that of the slot, or a new one. -/
def buildPlace : ReceiverSpec → Script Place
  | slot name => Script.place name
  | spec => do
    let receiver ← spec.build
    let address ← Script.change World.freshIdentity
    return { address, receiver }

end ReceiverSpec

end Session

end GuestCore
