import GuestCore.Text.Layout

/-!
# Trace Records

While it works the library keeps a record of what it decides: spans for the operations it enters
and events for what happens inside them.  Every record has a level, a title and named fields, and
all field values are text.
-/

namespace GuestCore

inductive TraceLevel where
  | trace
  | debug
  | warn
deriving DecidableEq, Repr

def TraceLevel.name : TraceLevel → String
  | trace => "TRACE"
  | debug => "DEBUG"
  | warn => "WARN"

/-- One record of the trace. -/
inductive TraceRecord where
  /-- A name is looked up in a registry. -/
  | lookup (name : String) (create : Bool)
  | createdUndefined (name : String)
  /-- A definition is about to be bound to a name. -/
  | register (name : String)
  | installed (name : String) (generation : Nat)
  | registerBatch (entries : Nat)
  | repeatedBatch
  | depthExceeded (function : String) (limit : Nat)
  | fastPathHit (function : String)
  | generationMismatch (function : String) (cached current : Nat)
  | refreshedSite (function : String) (generation : Nat)
  | megamorphicSite (function : String) (limit : Nat)
  /-- The text of a variable is not a valid setting. -/
  | ignoredSetting (variableName value : String)
deriving DecidableEq, Repr

namespace TraceRecord

def level : TraceRecord → TraceLevel
  | lookup .. | createdUndefined .. | repeatedBatch | fastPathHit .. | generationMismatch ..
  | refreshedSite .. => .trace
  | register .. | installed .. | registerBatch .. | depthExceeded .. | megamorphicSite .. =>
    .debug
  | ignoredSetting .. => .warn

/-- Whether the record opens a span; all others are events. -/
def isSpan : TraceRecord → Bool
  | lookup .. | register .. | registerBatch .. => true
  | _ => false

def title : TraceRecord → String
  | lookup .. => "lookup"
  | createdUndefined .. => "created undefined function"
  | register .. => "register"
  | installed .. => "installed call unit"
  | registerBatch .. => "register_batch"
  | repeatedBatch => "batch already registered"
  | depthExceeded .. => "call depth exceeded"
  | fastPathHit .. => "fast-path hit"
  | generationMismatch .. => "generation mismatch"
  | refreshedSite .. => "refreshed call site"
  | megamorphicSite .. => "call site turned megamorphic"
  | ignoredSetting .. => "ignoring invalid value"

def fields : TraceRecord → List (String × String)
  | lookup name create => [("name", name), ("create", Text.truth create)]
  | createdUndefined name => [("name", name)]
  | register name => [("name", name)]
  | installed name generation => [("name", name), ("generation", generation.repr)]
  | registerBatch entries => [("entries", entries.repr)]
  | repeatedBatch => []
  | depthExceeded function limit => [("function", function), ("max", limit.repr)]
  | fastPathHit function => [("function", function)]
  | generationMismatch function cached current =>
    [("function", function), ("cached", cached.repr), ("current", current.repr)]
  | refreshedSite function generation =>
    [("function", function), ("generation", generation.repr)]
  | megamorphicSite function limit => [("function", function), ("limit", limit.repr)]
  | ignoredSetting variableName value => [("var", variableName), ("value", value)]

end TraceRecord

end GuestCore
