import GuestCore.Text.Blank
import GuestCore.Trace

/-!
# Configuration

Two settings govern a registry and all calls dispatched through it: how many functions a call
site remembers, and how deeply calls may nest.  Both can be overridden by named variables.  Text
that is no valid setting leaves the default in place and is reported.
-/

namespace GuestCore

/-- The settings of one registry; no depth limit is `none`. -/
structure Config where
  cacheLimit : Nat := 2
  depthLimit : Option Nat := none
deriving DecidableEq, Inhabited

namespace Config

/-- The depth limit, if that many calls are already active. -/
def reachedLimit? (config : Config) (depth : Nat) : Option Nat :=
  config.depthLimit.filter fun limit ↦ limit ≤ depth

/-! ## Reading settings -/

def cacheLimitVariable : String := "VALK_INLINE_CACHE_LIMIT"

def depthLimitVariable : String := "VALK_MAX_CALL_DEPTH"

/-- A count: an optional plus sign and decimal digits that denote a number below `2 ^ 64`. -/
def count? (chars : List Char) : Option Nat :=
  let digits := match chars with
    | '+' :: rest => rest
    | _ => chars
  if digits.isEmpty || !digits.all Char.isDigit then none
  else
    let value := Nat.ofDigitChars 10 digits 0
    if value < UInt64.size then some value else none

/-- Whether the characters spell `none` in any mixture of cases. -/
def spellsNone (chars : List Char) : Bool :=
  chars.map Char.toLower == ['n', 'o', 'n', 'e']

def cacheLimit? (text : String) : Option Nat :=
  count? (Text.trim text.toList)

/-- A depth limit: a count, or `none` for no limit. -/
def depthLimit? (text : String) : Option (Option Nat) :=
  let chars := Text.trim text.toList
  if spellsNone chars then some none else (count? chars).map some

/-- The value of a setting after a variable was consulted, and the complaint if its text is not
valid. -/
def override {α : Type} (read? : String → Option α) (variableName : String)
    (text? : Option String) (default : α) : α × List TraceRecord :=
  match text? with
  | none => (default, [])
  | some text =>
    match read? text with
    | some value => (value, [])
    | none => (default, [.ignoredSetting variableName text])

/-- The defaults overridden by the variables that `lookup` knows, with one complaint for each
variable whose text is not valid. -/
def ofLookup (lookup : String → Option String) : Config × List TraceRecord :=
  let (cacheLimit, cacheComplaints) :=
    override cacheLimit? cacheLimitVariable (lookup cacheLimitVariable) ({} : Config).cacheLimit
  let (depthLimit, depthComplaints) :=
    override depthLimit? depthLimitVariable (lookup depthLimitVariable) ({} : Config).depthLimit
  ({ cacheLimit, depthLimit }, cacheComplaints ++ depthComplaints)

def debug (config : Config) : String :=
  Text.record "RuntimeConfig"
    [("inline_cache_limit", config.cacheLimit.repr),
      ("max_call_depth", Text.optional (config.depthLimit.map Nat.repr))]

end Config

end GuestCore
