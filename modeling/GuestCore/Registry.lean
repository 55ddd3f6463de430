import GuestCore.World

/-!
# The Registry

A registry gives every name one function for good.  Looking a name up may create its function
before it is defined; registering a definition under a name that has a function replaces the old
one in place and moves to the next generation.  A batch of definitions is applied to a registry
once.
-/

namespace GuestCore

/-- Definitions that are registered together, in order.  Two batches with the same entries are still
two batches: what counts is the identity. -/
structure Batch where
  identity : Nat
  entries : List (String × Definition)

namespace Batch

/-- The batch of names and bodies that stand in the same position. -/
def ofBodies (identity : Nat) (names : List (String × Option Location))
    (bodies : List (Body Value)) : Batch where
  identity
  entries := names.zipWith (fun header body ↦ (header.1, { body, location := header.2 })) bodies

def names (batch : Batch) : List String :=
  batch.entries.map Prod.fst

def debug (batch : Batch) : String :=
  Text.bracketed (batch.names.map Text.quoted)

end Batch

namespace World

/-- The function of a name. -/
def functionNamed? (world : World) (registry : RegistryId) (name : String) : Option FunctionId :=
  (world.registry registry).functions.get? name

/-- A new function at generation zero, entered under its name. -/
def addFunction (world : World) (registry : RegistryId) (name : String)
    (definition : Option Definition) : FunctionId × World :=
  let (function, world) := world.newFunction { name, definition }
  (function, world.modifyRegistry registry fun state ↦
    { state with functions := state.functions.insert name function })

/-- Looks a name up without creating anything. -/
def find (world : World) (registry : RegistryId) (name : String) : Option FunctionId × World :=
  (world.functionNamed? registry name, world.log (.lookup name false))

/-- Looks a name up; a new name gets a function without a definition. -/
def findOrCreate (world : World) (registry : RegistryId) (name : String) : FunctionId × World :=
  let world := world.log (.lookup name true)
  match world.functionNamed? registry name with
  | some function => (function, world)
  | none =>
    let (function, world) := world.addFunction registry name none
    (function, world.log (.createdUndefined name))

/-- Binds a definition to a name. -/
def register (world : World) (registry : RegistryId) (name : String)
    (definition : Definition) : FunctionId × World :=
  let world := world.log (.register name)
  match world.functionNamed? registry name with
  | none =>
    let (function, world) := world.addFunction registry name (some definition)
    (function, world.log (.installed name 0))
  | some function =>
    let world := world.modifyFunction function fun state ↦ state.redefine definition
    (function, world.log (.installed name (world.functionState function).generation))

def registerAll (world : World) (registry : RegistryId) (entries : List (String × Definition)) :
    World :=
  entries.foldl (fun world entry ↦ (world.register registry entry.1 entry.2).2) world

/-- Registers every entry of a batch, unless the batch was applied to this registry before. -/
def registerBatch (world : World) (registry : RegistryId) (batch : Batch) : World :=
  let world := world.log (.registerBatch batch.entries.length)
  if (world.registry registry).applied.contains batch.identity then world.log .repeatedBatch
  else
    let world := world.modifyRegistry registry fun state ↦
      { state with applied := batch.identity :: state.applied }
    world.registerAll registry batch.entries

/-- The functions of a registry in the order of their names. -/
def functionsByName (world : World) (registry : RegistryId) : List FunctionId :=
  (world.registry registry).functions.values.mergeSort fun left right ↦
    (world.functionState left).name ≤ (world.functionState right).name

/-- The diagnostic text of a registry. -/
def debugRegistry (world : World) (registry : RegistryId) : String :=
  let state := world.registry registry
  Text.openRecord "FunctionRegistry"
    [("functions", Text.bracketed (state.functions.keys.map Text.quoted)),
      ("config", state.config.debug)]

end World

end GuestCore
