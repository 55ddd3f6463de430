import GuestCore.Body
import GuestCore.Config
import GuestCore.Members
import GuestCore.Table

/-!
# The World

The world is everything that a running program can change: objects, functions, registries,
dispatchers and call sites, the supply of fresh identities, and the trace.  Handles are numbers
of cells in the world's tables, so two handles denote the same thing exactly if they are equal.
-/

namespace GuestCore

structure RegistryId where
  index : Nat
deriving DecidableEq, Repr, Inhabited

structure DispatcherId where
  index : Nat
deriving DecidableEq, Repr, Inhabited

/-- The state of a function: a name for life, and a definition that can be replaced.  The
generation counts replacements; its published copy is what call sites compare with. -/
structure FunctionState where
  name : String
  definition : Option Definition
  generation : Nat := 0
  published : Nat := 0
deriving Inhabited

namespace FunctionState

def isDefined (state : FunctionState) : Bool :=
  state.definition.isSome

/-- Where the current body was written. -/
def location (state : FunctionState) : Option Location :=
  state.definition.bind Definition.location

/-- The function with a new definition, at the next generation. -/
def redefine (state : FunctionState) (definition : Definition) : FunctionState :=
  { state with
    definition := some definition
    generation := state.generation + 1
    published := state.generation + 1 }

def debug (state : FunctionState) : String :=
  Text.record "Function"
    [("name", Text.quoted state.name), ("generation", state.published.repr),
      ("defined", Text.truth state.isDefined)]

end FunctionState

/-- The functions of one name space, the batches already applied to it, and its settings. -/
structure Registry where
  functions : Members FunctionId := {}
  applied : List Nat := []
  config : Config := {}
deriving Inhabited

/-- Calls run on a dispatcher, which counts the ones that are active. -/
structure Dispatcher where
  registry : RegistryId
  depth : Nat := 0
deriving Inhabited

/-- A function that a call site remembers, with the definition it had at some generation. -/
structure SiteTarget where
  function : FunctionId
  definition : Definition
  generation : Nat
deriving Inhabited

/-- A call site: what it remembers, whether it has given up remembering, and how many of its
calls did and did not use what it remembered. -/
structure Site where
  targets : List SiteTarget := []
  megamorphic : Bool := false
  fastHits : Nat := 0
  slowCalls : Nat := 0
deriving Inhabited

structure World where
  objects : Table (Members Value) := {}
  functions : Table FunctionState := {}
  registries : Table Registry := {}
  dispatchers : Table Dispatcher := {}
  /-- Call sites by name; a site that is not listed is new. -/
  sites : Members Site := {}
  nextIdentity : Nat := 0
  /-- All trace records, newest first. -/
  history : List TraceRecord := []
deriving Inhabited

namespace World

/-! ## Reading -/

def members (world : World) (object : ObjectId) : Members Value :=
  world.objects.get object.index

def functionState (world : World) (function : FunctionId) : FunctionState :=
  world.functions.get function.index

def registry (world : World) (registry : RegistryId) : Registry :=
  world.registries.get registry.index

def dispatcher (world : World) (dispatcher : DispatcherId) : Dispatcher :=
  world.dispatchers.get dispatcher.index

/-- The settings that govern calls on a dispatcher. -/
def configOf (world : World) (dispatcher : DispatcherId) : Config :=
  (world.registry (world.dispatcher dispatcher).registry).config

def depth (world : World) (dispatcher : DispatcherId) : Nat :=
  (world.dispatcher dispatcher).depth

def site (world : World) (name : String) : Site :=
  (world.sites.get? name).getD {}

/-- The trace in the order in which it was written. -/
def trace (world : World) : List TraceRecord :=
  world.history.reverse

/-! ## Writing -/

def log (world : World) (record : TraceRecord) : World :=
  { world with history := record :: world.history }

def modifyMembers (world : World) (object : ObjectId)
    (change : Members Value → Members Value) : World :=
  { world with objects := world.objects.modify object.index change }

def modifyFunction (world : World) (function : FunctionId)
    (change : FunctionState → FunctionState) : World :=
  { world with functions := world.functions.modify function.index change }

def modifyRegistry (world : World) (registry : RegistryId)
    (change : Registry → Registry) : World :=
  { world with registries := world.registries.modify registry.index change }

def setDepth (world : World) (dispatcher : DispatcherId) (depth : Nat) : World :=
  { world with
    dispatchers := world.dispatchers.modify dispatcher.index fun state ↦
      { state with depth := depth } }

def setSite (world : World) (name : String) (site : Site) : World :=
  { world with sites := world.sites.insert name site }

/-! ## Allocating -/

/-- A number that was never given out before. -/
def freshIdentity (world : World) : Nat × World :=
  (world.nextIdentity, { world with nextIdentity := world.nextIdentity + 1 })

def newObject (world : World) (members : Members Value) : ObjectId × World :=
  (⟨world.objects.size⟩, { world with objects := world.objects.push members })

/-- A function that belongs to no registry yet. -/
def newFunction (world : World) (state : FunctionState) : FunctionId × World :=
  (⟨world.functions.size⟩, { world with functions := world.functions.push state })

def newRegistry (world : World) (config : Config) : RegistryId × World :=
  (⟨world.registries.size⟩, { world with registries := world.registries.push { config } })

def newDispatcher (world : World) (registry : RegistryId) : DispatcherId × World :=
  (⟨world.dispatchers.size⟩, { world with dispatchers := world.dispatchers.push { registry } })

def newText (world : World) (content : String) : Value × World :=
  let (identity, world) := world.freshIdentity
  (.text ⟨identity⟩ content, world)

def newList (world : World) (items : List Value) : Value × World :=
  let (identity, world) := world.freshIdentity
  (.list ⟨identity⟩ items, world)

end World

end GuestCore
