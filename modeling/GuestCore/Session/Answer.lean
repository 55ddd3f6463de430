import GuestCore.Eval

/-!
# Answers

What the steps of a session answer.  Handles mean nothing outside the session, so a value is shown
by what can be told of it when the answer is given.
-/

namespace GuestCore.Session

/-- A value as an answer shows it: a function by name and generation, an object by the names of
its members. -/
inductive Shown where
  | null
  | boolean (value : Bool)
  | integer (value : Int)
  | text (content : String)
  | function (name : String) (generation : Nat)
  | object (members : List String)
  | list (items : List Shown)
deriving Inhabited

namespace Shown

mutual

def ofValue (world : World) : Value → Shown
  | .null => null
  | .boolean value => boolean value
  | .integer value => integer value
  | .text _ content => text content
  | .function id => function (world.functionState id).name (world.functionState id).published
  | .object id => object (world.members id).keys
  | .list _ items => list (ofValues world items)

def ofValues (world : World) : List Value → List Shown
  | [] => []
  | value :: rest => ofValue world value :: ofValues world rest

end

def names (items : List String) : Shown :=
  list (items.map text)

end Shown

/-- What a message answers if it succeeds. -/
inductive Payload where
  | shown (value : Shown)
  | count (value : Nat)
  | location (value : Location)

/-- All that can be asked of a receiver without changing anything. -/
structure Probe where
  flags : List String
  display : String
  type : Except Fault LanguageType
  viewDisplay : String
  viewType : Option LanguageType
  asBoolean : Except Fault Bool
  asText : Except Fault String
  asInteger : Except Fault Int
  narrowed : List (Integer.Target × Except Fault Integer.Narrowed)
  elementCount : Except Fault Nat
  location : Except Fault Location
  simpleName : Except Fault String
  qualifiedName : Except Fault String
  memberNames : Except Fault (List String)
  identityHash : Except Fault String
  /-- Which kinds the native value is of, if there is one. -/
  native : Option (List String)

structure MemberFlags where
  readable : Bool
  writable : Bool
  removable : Bool
  insertable : Bool

/-- A function as it stands. -/
structure FunctionInfo where
  name : String
  generation : Nat
  defined : Bool
  location : Option Location
  debug : String

def FunctionInfo.ofState (state : FunctionState) : FunctionInfo where
  name := state.name
  generation := state.published
  defined := state.isDefined
  location := state.location
  debug := state.debug

/-- A call site as it stands. -/
structure SiteInfo where
  fastHits : Nat
  slowCalls : Nat
  cached : Nat
  megamorphic : Bool

def SiteInfo.ofSite (site : Site) : SiteInfo where
  fastHits := site.fastHits
  slowCalls := site.slowCalls
  cached := site.targets.length
  megamorphic := site.megamorphic

/-- The answer to a request to the members of an object. -/
inductive StoreOutcome where
  | result (result : Except Fault Shown)
  | found (content : Option Shown)
  | written
  | insertion (content : Shown) (inserted : Bool)
  | presence (present insertable : Bool)

/-- The members of an object after a request. -/
structure StoreState where
  keys : List String
  values : List String
  size : Nat
  isEmpty : Bool

inductive Answer where
  | text (content : String)
  | probe (probe : Probe)
  | texts (equal shared : Bool) (debug : String) (byteLength : Nat)
  | lists (shared : Bool) (debug : String) (length : Nat)
  | result (result : Except Fault Payload)
  | identity (identical : Bool) (leftAnswer rightAnswer : IdentityAnswer) (sameHash : Option Bool)
  | classes (accepting : List LanguageType) (first : Option LanguageType)
  | memberFlags (flags : MemberFlags)
  | store (outcome : StoreOutcome) (state : StoreState)
  | operation (operation : Operation) (operator : Option BinaryOperator)
  | locations (left right : Location)
  | fault (fault : Fault)
  | madeFault (fault : Fault)
  | function (info : Option FunctionInfo)
  | functions (infos : List FunctionInfo) (debug : String)
  | sameFunction (same : Bool)
  | batch (names : List String) (debug : String)
  | registered (infos : List FunctionInfo)
  | call (result : Except Fault Shown) (depth : Nat) (site : Option SiteInfo)
  | site (info : SiteInfo) (debug : String)
  | dispatcher (debug : String) (depth : Nat) (config : Config)

end GuestCore.Session
