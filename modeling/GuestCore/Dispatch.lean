import GuestCore.Action
import GuestCore.Registry
import GuestCore.Site

/-!
# Dispatch

A call runs a function's body on a dispatcher, which counts the calls that are active and refuses
to go beyond the configured depth.  Functions are called directly, by name, or through a call
site.  The body itself is run by a `Runner`, which is passed in.
-/

namespace GuestCore

/-- Runs a definition on a dispatcher with the given arguments. -/
abbrev Runner := DispatcherId → Definition → List Value → Action Value

/-- How calls at call sites find the definition to run. -/
inductive Routing where
  /-- Use and maintain what the site remembers. -/
  | cached
  /-- Leave the site alone and read the function's current definition. -/
  | generic
deriving DecidableEq, Repr

namespace Dispatch

/-- Runs a definition as one more active call.  The depth is restored however the call ends. -/
def activate (run : Runner) (dispatcher : DispatcherId) (name : String)
    (definition : Definition) (arguments : List Value) : Action Value := fun world ↦
  let depth := world.depth dispatcher
  match (world.configOf dispatcher).reachedLimit? depth with
  | some limit => .raised (.depthExceeded limit) (world.log (.depthExceeded name limit))
  | none =>
    (run dispatcher definition arguments).restoring
      (fun after ↦ after.setDepth dispatcher depth) (world.setDepth dispatcher (depth + 1))

/-- Calls a function with its current definition. -/
def call (run : Runner) (dispatcher : DispatcherId) (function : FunctionId)
    (arguments : List Value) : Action Value := fun world ↦
  let callee := world.functionState function
  match callee.definition with
  | none => .raised (.undefinedFunction callee.name) world
  | some definition => activate run dispatcher callee.name definition arguments world

/-- Calls the function that a name has in the dispatcher's registry. -/
def callNamed (run : Runner) (dispatcher : DispatcherId) (name : String)
    (arguments : List Value) : Action Value := fun world ↦
  match world.find (world.dispatcher dispatcher).registry name with
  | (some function, world) => call run dispatcher function arguments world
  | (none, world) => .raised (.undefinedFunction name) world

/-- A call that the site could not serve: counted, remembered, and run with the current
definition. -/
def callSlowly (run : Runner) (dispatcher : DispatcherId) (siteName : String)
    (function : FunctionId) (arguments : List Value) : Action Value := fun world ↦
  let callee := world.functionState function
  let site := (world.site siteName).countSlow
  match callee.definition with
  | none => .raised (.undefinedFunction callee.name) (world.setSite siteName site)
  | some definition =>
    let (site, records) := site.learn (world.configOf dispatcher).cacheLimit callee.name
      { function, definition, generation := callee.generation }
    let world := records.foldl World.log (world.setSite siteName site)
    activate run dispatcher callee.name definition arguments world

/-- Calls a function through a call site, with the remembered definition if it is still
current. -/
def callThroughCache (run : Runner) (dispatcher : DispatcherId) (siteName : String)
    (function : FunctionId) (arguments : List Value) : Action Value := fun world ↦
  let callee := world.functionState function
  let site := world.site siteName
  match site.consult function callee.published with
  | .current definition =>
    let world := (world.log (.fastPathHit callee.name)).setSite siteName site.countFast
    activate run dispatcher callee.name definition arguments world
  | .stale cached =>
    let world := world.log (.generationMismatch callee.name cached callee.published)
    callSlowly run dispatcher siteName function arguments world
  | .unknown => callSlowly run dispatcher siteName function arguments world

def callAt (routing : Routing) (run : Runner) (dispatcher : DispatcherId) (siteName : String)
    (function : FunctionId) (arguments : List Value) : Action Value :=
  match routing with
  | .cached => callThroughCache run dispatcher siteName function arguments
  | .generic => call run dispatcher function arguments

end Dispatch

def Dispatcher.debug (dispatcher : Dispatcher) : String :=
  Text.openRecord "Dispatcher" [("depth", dispatcher.depth.repr)]

end GuestCore
