import GuestCore.Session.Answer
import GuestCore.Session.Build

/-!
# Running a Session

A session runs its steps one after another; each gives an answer, and the records that the trace
gained meanwhile.  Calls are routed as the caller of the session asks, and nest at most as deeply
as its allowance.
-/

namespace GuestCore.Session

/-! ## What is told of receivers -/

/-- The probes that a receiver answers with yes, by message name. -/
def flags (world : World) (receiver : Receiver) : List String :=
  let fits := Integer.Target.all.map fun target ↦ ("fits_in_" ++ target.name, receiver.fits target)
  let probes :=
    [("is_null", receiver.isNull), ("is_boolean", receiver.isBoolean),
      ("is_string", receiver.isText), ("fits_in_big_integer", receiver.isNumber)] ++ fits ++
    [("has_members", receiver.hasMembers), ("has_array_elements", receiver.hasElements),
      ("is_executable", receiver.isExecutable),
      ("has_source_location", receiver.hasLocation world),
      ("is_meta_object", receiver.isDescriptor), ("has_type", receiver.type?.isSome)]
  (probes.filter Prod.snd).map Prod.fst

/-- The kinds that a native value is of. -/
def nativeKinds (value : Value) : List String :=
  let kinds :=
    [("as_integer", value.integer?.isSome), ("as_bool", value.boolean?.isSome),
      ("as_str", value.text?.isSome), ("as_function", value.function?.isSome),
      ("as_object", value.object?.isSome), ("as_list", value.list?.isSome),
      ("is_null", value.isNull)]
  (kinds.filter Prod.snd).map Prod.fst

/-- The identity hash of a receiver as text; that of a function or an object is an address, whose
number means nothing. -/
def hashText (receiver : Receiver) : Except Fault String :=
  receiver.identityHash.map fun hash ↦
    match receiver.native?, hash with
    | some (.function _), _ | some (.object _), _ => "address"
    | _, .number value => value.repr
    | _, _ => "address"

def probe (world : World) (receiver : Receiver) : Probe where
  flags := flags world receiver
  display := receiver.display world
  type := receiver.type
  viewDisplay := (Receiver.view receiver).display world
  viewType := receiver.type?
  asBoolean := receiver.asBoolean
  asText := receiver.asText
  asInteger := receiver.asInteger
  narrowed := Integer.Target.all.map fun target ↦ (target, receiver.narrow target)
  elementCount := receiver.elementCount
  location := receiver.location world
  simpleName := receiver.simpleName
  qualifiedName := receiver.qualifiedName
  memberNames := receiver.memberNames world
  identityHash := hashText receiver
  native := receiver.native?.map nativeKinds

/-! ## Steps -/

def identity (left right : Place) : Answer :=
  let sameHash := match left.receiver.identityHash, right.receiver.identityHash with
    | .ok leftHash, .ok rightHash => some (leftHash == rightHash)
    | _, _ => none
  .identity (left.identical right) (left.receiver.identityAnswer right.receiver)
    (right.receiver.identityAnswer left.receiver) sameHash

def compareCells (world : World) : Value → Value → Script Answer
  | .text leftCell left, .text rightCell right =>
    return .texts (left == right) (leftCell == rightCell) (Text.quoted left) left.utf8ByteSize
  | .list leftCell left, .list rightCell _ =>
    return .lists (leftCell == rightCell) (Text.bracketed (Value.debugAll world left)) left.length
  | _, _ => throw .notComparable

def functionInfos (world : World) (registry : RegistryId) : List FunctionInfo :=
  (world.functionsByName registry).map fun function ↦ .ofState (world.functionState function)

def shownResult (world : World) (result : Except Fault Value) : Except Fault Shown :=
  result.map (Shown.ofValue world)

/-- An answer that reads without changing anything. -/
def payload {α : Type} (convert : α → Payload) (result : Except Fault α) : Answer :=
  .result (result.map convert)

def textPayload (content : String) : Payload :=
  .shown (.text content)

/-- Sends a message; its arguments are built after the receiver. -/
def answerMessage (routing : Routing) (allowance : Nat) (receiver : Receiver) :
    Message → Script Answer
  | .readMember member => do
    let world ← Script.world
    return payload (fun value ↦ .shown (.ofValue world value)) (receiver.readMember world member)
  | .writeMember member content => do
    let content ← content.build
    return payload (fun _ ↦ .shown .null)
      (← Script.perform (receiver.writeMember member content))
  | .removeMember member =>
    return payload (fun _ ↦ .shown .null) (← Script.perform (receiver.removeMember member))
  | .memberFlags member => do
    let world ← Script.world
    return .memberFlags
      { readable := receiver.isMemberReadable world member
        writable := receiver.isMemberWritable world member
        removable := receiver.isMemberRemovable world member
        insertable := receiver.isMemberInsertable world member }
  | .memberNames =>
    return payload (fun names ↦ .shown (.names names)) (receiver.memberNames (← Script.world))
  | .elementCount => return payload .count receiver.elementCount
  | .element index => do
    let world ← Script.world
    return payload (fun value ↦ .shown (.ofValue world value)) (receiver.element index)
  | .execute arguments registry => do
    let values ← ValueSpec.buildAll arguments
    let (_, dispatcher) ← Script.registry registry
    let result ← Script.perform
      (receiver.execute routing (run routing allowance) dispatcher values)
    let world ← Script.world
    return payload (fun value ↦ .shown (.ofValue world value)) result
  | .describes candidate => do
    let candidate ← candidate.build
    return payload (fun verdict ↦ .shown (.boolean verdict)) (receiver.describes candidate)
  | .identityHash => return payload textPayload (hashText receiver)
  | .location => return payload .location (receiver.location (← Script.world))
  | .type => return payload (fun type ↦ textPayload type.name) receiver.type
  | .asBoolean => return payload (fun value ↦ .shown (.boolean value)) receiver.asBoolean
  | .asText => return payload textPayload receiver.asText
  | .asLong => return payload longText (receiver.narrow .long)
  | .asInteger =>
    return payload (fun value ↦ textPayload (Integer.display value)) receiver.asInteger
  | .simpleName => return payload textPayload receiver.simpleName
where
  longText : Integer.Narrowed → Payload
    | .integral value => textPayload (Integer.display value)
    | .single pattern | .double pattern => textPayload pattern.repr

/-- Sends a request to the members of an object. -/
def answerStore (object : ObjectId) (key : String) : StoreRequest → Script StoreOutcome
  | .read => do
    let world ← Script.world
    return .result (shownResult world ((world.members object).read key))
  | .remove => do
    let world ← Script.world
    match (world.members object).remove key with
    | .ok (value, rest) =>
      Script.change fun world ↦ ((), world.modifyMembers object fun _ ↦ rest)
      return .result (.ok (.ofValue (← Script.world) value))
    | .error fault => return .result (.error fault)
  | .get => do
    let world ← Script.world
    return .found (((world.members object).get? key).map (Shown.ofValue world))
  | .write content => do
    let value ← content.build
    Script.change fun world ↦
      ((), world.modifyMembers object fun members ↦ members.insert key value)
    return .written
  | .getOrInsert content => do
    let initial ← content.build
    let world ← Script.world
    let (value, inserted, members) := (world.members object).getOrInsert key initial
    Script.change fun world ↦ ((), world.modifyMembers object fun _ ↦ members)
    return .insertion (.ofValue (← Script.world) value) inserted
  | .contains => do
    let members := (← Script.world).members object
    return .presence (members.contains key) (members.isInsertable key)

def storeState (world : World) (object : ObjectId) : StoreState :=
  let members := world.members object
  { keys := members.keys
    values := members.values.map (Value.display world)
    size := members.size
    isEmpty := members.isEmpty }

def functionOf (value : Value) : Script FunctionId :=
  match value.function? with
  | some function => return function
  | none => throw .notAFunction

/-- Builds what a call step calls, and makes the call. -/
def performCall (routing : Routing) (allowance : Nat) (dispatcher : DispatcherId)
    (arguments : List Value) : Callee → Script (Except Fault Value)
  | .named name =>
    Script.perform (Dispatch.callNamed (run routing allowance) dispatcher name arguments)
  | .function function => do
    let function ← functionOf (← function.build)
    Script.perform (Dispatch.call (run routing allowance) dispatcher function arguments)
  | .throughSite site function => do
    let function ← functionOf (← function.build)
    Script.perform
      (Dispatch.callAt routing (run routing allowance) dispatcher site function arguments)

def siteInfo? (world : World) : Callee → Option SiteInfo
  | .throughSite site _ => some (.ofSite (world.site site))
  | _ => none

/-- Builds the entries of a batch in order. -/
def buildEntries : List (String × DefinitionSpec) → Script (List (String × Definition))
  | [] => return []
  | (name, spec) :: rest => do
    let definition ← spec.build
    let definitions ← buildEntries rest
    return (name, definition) :: definitions

def buildReceivers : List ReceiverSpec → Script (List Receiver)
  | [] => return []
  | spec :: rest => do
    let receiver ← spec.build
    let receivers ← buildReceivers rest
    return receiver :: receivers

def answerStep (routing : Routing) (allowance : Nat) : Step → Script Answer
  | .define slot receiver => do
    let place ← receiver.buildPlace
    modify fun state ↦ { state with slots := state.slots.insert slot place }
    return .text (place.receiver.display (← Script.world))
  | .probe receiver => do
    let receiver ← receiver.build
    return .probe (probe (← Script.world) receiver)
  | .display receiver => do
    let receiver ← receiver.build
    return .text (receiver.display (← Script.world))
  | .debug receiver => do
    let receiver ← receiver.build
    return .text (receiver.debug (← Script.world))
  | .compareCells left right => do
    let left ← left.build
    let right ← right.build
    compareCells (← Script.world) left right
  | .operate operator operation left right => do
    let left ← left.build
    let right ← right.build
    let result ← Script.perform (Operator.run operator operation.toOperation left right)
    let world ← Script.world
    return payload (fun value ↦ .shown (.ofValue world value)) result
  | .identical left right => do
    let left ← left.buildPlace
    let right ← right.buildPlace
    return identity left right
  | .classify receiver => do
    let receiver ← receiver.build
    return .classes (LanguageType.precedence.filter receiver.isInstance) receiver.type?
  | .message receiver message => do
    let receiver ← receiver.build
    answerMessage routing allowance receiver message
  | .store object key request => do
    match (← object.build).object? with
    | some id =>
      let outcome ← answerStore id key request
      return .store outcome (storeState (← Script.world) id)
    | none => throw .notAnObject
  | .operation spec => return .operation spec.toOperation spec.operator
  | .location left right => return .locations left right
  | .typeError operation operands => do
    let operands ← buildReceivers operands
    return .fault (Operator.typeError (← Script.world) operation.toOperation operands)
  | .makeFault kind location => return .madeFault { kind, location }
  | .register name definition registry => do
    let definition ← definition.build
    let (registry, _) ← Script.registry registry
    let function ← Script.change fun world ↦ world.register registry name definition
    return .function (some (.ofState ((← Script.world).functionState function)))
  | .lookup name create registry => do
    let (registry, _) ← Script.registry registry
    let found ← Script.change fun world ↦
      if create then
        let (function, world) := world.findOrCreate registry name
        (some function, world)
      else world.find registry name
    let world ← Script.world
    return .function (found.map fun function ↦ .ofState (world.functionState function))
  | .functions registry => do
    let (registry, _) ← Script.registry registry
    let world ← Script.world
    return .functions (functionInfos world registry) (world.debugRegistry registry)
  | .sameFunction left right => do
    let left ← functionOf (← left.build)
    let right ← functionOf (← right.build)
    return .sameFunction (left == right)
  | .batch name entries => do
    let entries ← buildEntries entries
    let identity ← Script.change World.freshIdentity
    let batch : Batch := { identity, entries }
    modify fun state ↦ { state with batches := state.batches.insert name batch }
    return .batch batch.names batch.debug
  | .registerBatch name registry => do
    match (← get).batches.get? name with
    | some batch =>
      let (registry, _) ← Script.registry registry
      Script.change fun world ↦ ((), world.registerBatch registry batch)
      return .registered (functionInfos (← Script.world) registry)
    | none => throw (.unknownBatch name)
  | .call callee arguments registry => do
    let arguments ← ValueSpec.buildAll arguments
    let (_, dispatcher) ← Script.registry registry
    let result ← performCall routing allowance dispatcher arguments callee
    let world ← Script.world
    return .call (shownResult world result) (world.depth dispatcher) (siteInfo? world callee)
  | .site name => do
    let world ← Script.world
    return .site (.ofSite (world.site name)) (world.debugSite (world.site name))
  | .dispatcher registry => do
    let (_, dispatcher) ← Script.registry registry
    let world ← Script.world
    return .dispatcher (world.dispatcher dispatcher).debug (world.depth dispatcher)
      (world.configOf dispatcher)

/-! ## Sessions -/

/-- The records that the trace gained since it had the given length. -/
def recordsSince (length : Nat) (world : World) : List TraceRecord :=
  (world.history.take (world.history.length - length)).reverse

/-- Runs a step and collects the records that it wrote. -/
def runStep (routing : Routing) (allowance : Nat) (step : Step) :
    Script (Answer × List TraceRecord) := do
  let length := (← Script.world).history.length
  let answer ← answerStep routing allowance step
  return (answer, recordsSince length (← Script.world))

def runSteps (routing : Routing) (allowance : Nat) :
    List Step → Script (List (Answer × List TraceRecord))
  | [] => return []
  | step :: rest => do
    let answer ← runStep routing allowance step
    let answers ← runSteps routing allowance rest
    return answer :: answers

/-- Runs a session from the beginning: its answers with their records, and the final state. -/
def execute (routing : Routing) (allowance : Nat) (config : Config) (steps : List Step) :
    Except Malformed (List (Answer × List TraceRecord) × State) :=
  (runSteps routing allowance steps).run { config }

end GuestCore.Session
