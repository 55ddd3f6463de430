import GuestCore.Proofs.ScriptSimulation
import Mathlib.Data.List.Forall2

/-!
# Simulations of Sessions

What a session builds, and what it answers without calling anything, relates under every
simulation.  Answers differ at most in what they tell of call sites and of settings.  A step that
calls something is prepared first; then the call is made, and then the step answers.
-/

namespace GuestCore

open Session

variable {simulation : Simulation} {base : World}

/-! ## Building -/

namespace Body

variable {κ μ : Type} {convert : κ → Script μ}

mutual

/-- A body is built alike if its constants are. -/
theorem mapConstants_steady (hconvert : ∀ value, simulation.Steady base (convert value)) :
    (body : Body κ) → simulation.Steady base (body.mapConstants convert)
  | constant value => by
    rw [mapConstants]
    exact (hconvert value).next fun _ ↦ .pure fun _ _ ↦ rfl
  | argument _ | argumentCount | depth | lookup _ | fail _ => by
    rw [mapConstants]
    exact .pure fun _ _ ↦ rfl
  | list items | sequence items | call _ items | callAt _ _ items | registerBatch _ _ items => by
    rw [mapConstants]
    exact (mapConstantsAll_steady hconvert items).next fun _ ↦ .pure fun _ _ ↦ rfl
  | operator _ _ left right | writeMember left _ right | attempt left right => by
    rw [mapConstants]
    apply (mapConstants_steady hconvert left).next
    intro _
    exact (mapConstants_steady hconvert right).next fun _ ↦ .pure fun _ _ ↦ rfl
  | choose condition thenBranch elseBranch => by
    rw [mapConstants]
    apply (mapConstants_steady hconvert condition).next
    intro _
    apply (mapConstants_steady hconvert thenBranch).next
    intro _
    exact (mapConstants_steady hconvert elseBranch).next fun _ ↦ .pure fun _ _ ↦ rfl
  | execute callee arguments | executeAt _ callee arguments => by
    rw [mapConstants]
    apply (mapConstants_steady hconvert callee).next
    intro _
    exact (mapConstantsAll_steady hconvert arguments).next fun _ ↦ .pure fun _ _ ↦ rfl
  | register _ body _ | readMember body _ | removeMember body _ => by
    rw [mapConstants]
    exact (mapConstants_steady hconvert body).next fun _ ↦ .pure fun _ _ ↦ rfl

theorem mapConstantsAll_steady (hconvert : ∀ value, simulation.Steady base (convert value)) :
    (bodies : List (Body κ)) → simulation.Steady base (mapConstantsAll convert bodies)
  | [] => by
    rw [mapConstantsAll]
    exact .pure fun _ _ ↦ rfl
  | body :: rest => by
    rw [mapConstantsAll]
    apply (mapConstants_steady hconvert body).next
    intro _
    exact (mapConstantsAll_steady hconvert rest).next fun _ ↦ .pure fun _ _ ↦ rfl

end

end Body

namespace Session

theorem Script.place_steady (slot : String) : simulation.Steady base (Script.place slot) := by
  apply Simulation.Relates.getState
  intro leftState rightState hstates
  rw [hstates.slots]
  cases rightState.slots.get? slot with
  | some place => exact .pure fun _ _ ↦ rfl
  | none => exact .throw _

theorem Script.freshIdentity_steady :
    simulation.Steady base (Script.change World.freshIdentity) :=
  .change fun _ _ ↦ Simulation.freshIdentity_agree

theorem Script.findOrCreate_steady {registry : RegistryId}
    (hregistry : base.HasRegistry registry) (name : String) :
    simulation.Steady base (Script.change fun world ↦ world.findOrCreate registry name) :=
  .change fun _ hlater _ _ hafter ↦
    hafter.findOrCreate (hafter.hasRegistry (hlater.hasRegistry hregistry)) name

namespace ValueSpec

theorem wrap_agree (value : Value) : (depth : Nat) →
    StepsAgree (simulation.After base) (wrap value depth) (wrap value depth)
  | 0 => fun _ _ hafter ↦ ⟨rfl, hafter⟩
  | depth + 1 => by
    intro left right hafter
    obtain ⟨hinner, hwrapped⟩ := wrap_agree value depth hafter
    have hwrap : ∀ world, wrap value (depth + 1) world =
        (wrap value depth world).2.newList [(wrap value depth world).1] := fun _ ↦ rfl
    rw [hwrap, hwrap, ← hinner]
    exact Simulation.newList_agree [(wrap value depth left).1] hwrapped

mutual

theorem build_steady {base : World} :
    (spec : ValueSpec) → simulation.Steady base spec.build
  | null | boolean _ | integer _ => by
    rw [build]
    exact .pure fun _ _ ↦ rfl
  | text content => by
    rw [build]
    exact .change fun _ _ ↦ Simulation.newText_agree content
  | list items => by
    rw [build]
    apply (buildAll_steady items).next
    intro values
    exact .change fun _ _ ↦ Simulation.newList_agree values
  | slot name => by
    rw [build]
    apply (Script.place_steady name).next
    intro place
    cases place.receiver.native? with
    | some value => exact .pure fun _ _ ↦ rfl
    | none => exact .throw _
  | function name registry => by
    rw [build]
    apply Simulation.Relates.onRegistry registry
    intro after registry _ hregistry _
    exact (Script.findOrCreate_steady hregistry name).next fun _ ↦ .pure fun _ _ ↦ rfl
  | object fields => by
    rw [build]
    apply (buildFields_steady {} fields).next
    intro members
    exact (Simulation.Relates.change fun _ _ ↦ Simulation.newObject_agree members).next
      fun _ ↦ .pure fun _ _ ↦ rfl
  | nested depth item => by
    rw [build]
    apply (build_steady item).next
    intro value
    exact .change fun _ _ ↦ wrap_agree value depth

theorem buildAll_steady {base : World} :
    (specs : List ValueSpec) → simulation.Steady base (buildAll specs)
  | [] => by
    rw [buildAll]
    exact .pure fun _ _ ↦ rfl
  | spec :: rest => by
    rw [buildAll]
    apply (build_steady spec).next
    intro _
    exact (buildAll_steady rest).next fun _ ↦ .pure fun _ _ ↦ rfl

theorem buildFields_steady {base : World} (members : Members Value) :
    (fields : List (String × ValueSpec)) → simulation.Steady base (buildFields members fields)
  | [] => by
    rw [buildFields]
    exact .pure fun _ _ ↦ rfl
  | (key, spec) :: rest => by
    rw [buildFields]
    apply (build_steady spec).next
    intro value
    exact buildFields_steady (members.insert key value) rest

end

end ValueSpec

theorem DefinitionSpec.build_steady (spec : DefinitionSpec) : simulation.Steady base spec.build :=
  (Body.mapConstants_steady ValueSpec.build_steady spec.body).next fun _ ↦ .pure fun _ _ ↦ rfl

/-- An optional part is built alike if the part is. -/
theorem Script.mapM_steady {σ τ : Type} {build : σ → Script τ}
    (hbuild : ∀ spec, simulation.Steady base (build spec)) (spec? : Option σ) :
    simulation.Steady base (spec?.mapM build) := by
  cases spec? with
  | none => exact .pure fun _ _ ↦ rfl
  | some spec => exact (hbuild spec).next fun _ ↦ .pure fun _ _ ↦ rfl

theorem ForeignSpec.build_steady (spec : ForeignSpec) : simulation.Steady base spec.build := by
  have hvalue (spec? : Option ValueSpec) : simulation.Steady base (spec?.mapM ValueSpec.build) :=
    Script.mapM_steady ValueSpec.build_steady spec?
  apply (hvalue spec.native).next
  intro _
  apply (hvalue spec.members).next
  intro _
  apply (hvalue spec.elements).next
  intro _
  refine (Script.mapM_steady (Body.mapConstants_steady ValueSpec.build_steady)
    spec.body).next fun _ ↦ ?_
  exact Script.freshIdentity_steady.next fun _ ↦ .pure fun _ _ ↦ rfl

namespace ReceiverSpec

theorem build_steady (spec : ReceiverSpec) : simulation.Steady base spec.build := by
  induction spec with
  | slot name => exact (Script.place_steady name).next fun _ ↦ .pure fun _ _ ↦ rfl
  | view delegate ih => exact ih.next fun _ ↦ .pure fun _ _ ↦ rfl
  | descriptor type => exact .pure fun _ _ ↦ rfl
  | functions registry => exact .onRegistry registry fun _ _ _ _ _ ↦ .pure fun _ _ ↦ rfl
  | foreign spec => exact (ForeignSpec.build_steady spec).next fun _ ↦ .pure fun _ _ ↦ rfl
  | value spec => exact (ValueSpec.build_steady spec).next fun _ ↦ .pure fun _ _ ↦ rfl

theorem buildPlace_steady (spec : ReceiverSpec) : simulation.Steady base spec.buildPlace := by
  cases spec with
  | slot name => exact Script.place_steady name
  | view | descriptor | functions | foreign | value =>
    apply (build_steady _).next
    intro _
    exact Script.freshIdentity_steady.next fun _ ↦ .pure fun _ _ ↦ rfl

end ReceiverSpec

theorem buildEntries_steady :
    (entries : List (String × DefinitionSpec)) → simulation.Steady base (buildEntries entries)
  | [] => .pure fun _ _ ↦ rfl
  | (_, spec) :: rest =>
    (DefinitionSpec.build_steady spec).next fun _ ↦
      (buildEntries_steady rest).next fun _ ↦ .pure fun _ _ ↦ rfl

theorem buildReceivers_steady :
    (specs : List ReceiverSpec) → simulation.Steady base (buildReceivers specs)
  | [] => .pure fun _ _ ↦ rfl
  | spec :: rest =>
    (ReceiverSpec.build_steady spec).next fun _ ↦
      (buildReceivers_steady rest).next fun _ ↦ .pure fun _ _ ↦ rfl

theorem functionOf_steady (value : Value) : simulation.Steady base (functionOf value) := by
  unfold functionOf
  cases value.function? with
  | some function => exact .pure fun _ _ ↦ rfl
  | none => exact .throw _

/-! ## Answers -/

/-- The diagnostic text of a registry with some names and settings. -/
def registryText (names : List String) (config : Config) : String :=
  Text.openRecord "FunctionRegistry"
    [("functions", Text.bracketed (names.map Text.quoted)), ("config", config.debug)]

theorem debugRegistry_eq (world : World) (registry : RegistryId) :
    world.debugRegistry registry =
      registryText (world.registry registry).functions.keys (world.registry registry).config :=
  rfl

/-- Two answers that differ at most in what they tell of settings and of call sites. -/
inductive Answer.Like (settings : Config → Config → Prop) (sites : Site → Site → Prop) :
    Answer → Answer → Prop where
  | same (answer : Answer) : Like settings sites answer answer
  | functions (infos : List FunctionInfo) (names : List String) {left right : Config}
      (hsettings : settings left right) :
    Like settings sites (.functions infos (registryText names left))
      (.functions infos (registryText names right))
  | call (result : Except Fault Shown) (depth : Nat) {left right : Site}
      (hsites : sites left right) :
    Like settings sites (.call result depth (some (.ofSite left)))
      (.call result depth (some (.ofSite right)))
  | site (world : World) {left right : Site} (hsites : sites left right) :
    Like settings sites (.site (.ofSite left) (world.debugSite left))
      (.site (.ofSite right) (world.debugSite right))
  | dispatcher (debug : String) (depth : Nat) {left right : Config}
      (hsettings : settings left right) :
    Like settings sites (.dispatcher debug depth left) (.dispatcher debug depth right)

theorem Answer.Like.mono {settings others : Config → Config → Prop} {sites : Site → Site → Prop}
    {left right : Answer} (hlike : Answer.Like settings sites left right)
    (hsettings : ∀ left right, settings left right → others left right) :
    Answer.Like others sites left right := by
  cases hlike with
  | same => exact .same _
  | functions infos names hrelated => exact .functions infos names (hsettings _ _ hrelated)
  | call result depth hsites => exact .call result depth hsites
  | site world hsites => exact .site world hsites
  | dispatcher debug depth hrelated => exact .dispatcher debug depth (hsettings _ _ hrelated)

end Session

/-- Answers that differ as the simulation allows. -/
abbrev Simulation.Answers (simulation : Simulation) : Answer → Answer → Prop :=
  Answer.Like simulation.settings simulation.sites

namespace Receiver

theorem writeMember_agree (member : String) (content : Value) (receiver : Receiver) :
    Action.Agree (simulation.After base) (receiver.writeMember member content)
      (receiver.writeMember member content) := by
  induction receiver with
  | native value => exact Simulation.writeMember_agree value member content
  | descriptor | functions => exact .raise _
  | foreign value =>
    unfold Receiver.writeMember
    cases value.members? with
    | some backing => exact Simulation.writeMember_agree backing member content
    | none => exact .raise _
  | view delegate ih => exact ih

theorem removeMember_agree (member : String) (receiver : Receiver) :
    Action.Agree (simulation.After base) (receiver.removeMember member)
      (receiver.removeMember member) := by
  induction receiver with
  | native value => exact Simulation.removeMember_agree value member
  | descriptor | functions => exact .raise _
  | foreign value =>
    unfold Receiver.removeMember
    cases value.members? with
    | some backing => exact Simulation.removeMember_agree backing member
    | none => exact .raise _
  | view delegate ih => exact ih

end Receiver

namespace Session

/-! ## Calls -/

/-- What a step calls. -/
inductive Callable where
  | route (route : Route)
  | receiver (receiver : Receiver)

/-- How a step tells the outcome of its call. -/
inductive Reply where
  | call (callee : Callee)
  | result

/-- A call that is ready to be made. -/
structure PreparedCall where
  callable : Callable
  dispatcher : DispatcherId
  arguments : List Value
  reply : Reply

namespace PreparedCall

def perform (call : PreparedCall) (routing : Routing) (allowance : Nat) : Action Value :=
  match call.callable with
  | .route route => route.call routing (run routing allowance) call.dispatcher call.arguments
  | .receiver receiver =>
    receiver.execute routing (run routing allowance) call.dispatcher call.arguments

def answer (call : PreparedCall) (result : Except Fault Value) (world : World) : Answer :=
  match call.reply with
  | .call callee =>
    .call (shownResult world result) (world.depth call.dispatcher) (siteInfo? world callee)
  | .result => payload (fun value ↦ .shown (.ofValue world value)) result

theorem answer_like {left right : World} (hworlds : simulation.worlds left right)
    (call : PreparedCall) (result : Except Fault Value) :
    simulation.Answers (call.answer result left) (call.answer result right) := by
  have hcontents := simulation.contents_eq hworlds
  unfold answer
  cases call.reply with
  | result =>
    have hvalue := World.eq_of_contents_eq
      (fun world ↦ payload (fun value ↦ .shown (.ofValue world value)) result) (by simp) hcontents
    dsimp only at hvalue ⊢
    rw [hvalue]
    exact .same _
  | call callee =>
    have hshown :=
      World.eq_of_contents_eq (fun world ↦ shownResult world result) (by simp) hcontents
    have hdepth := World.eq_of_contents_eq (fun world ↦ world.depth call.dispatcher) (by simp)
      hcontents
    dsimp only at hshown hdepth ⊢
    rw [hshown, hdepth]
    cases callee with
    | named | function => exact .same _
    | throughSite site => exact .call _ _ (simulation.sites_of hworlds site)

end PreparedCall

/-- The way to call what a call step describes. -/
def calleeRoute : Callee → Script Route
  | .named name => return .named name
  | .function function => return .direct (← functionOf (← function.build))
  | .throughSite site function => return .throughSite site (← functionOf (← function.build))

/-- Gets a step that calls something ready for the call. -/
def prepareCall? : Step → Option (Script PreparedCall)
  | .call callee arguments registry => some do
    let arguments ← ValueSpec.buildAll arguments
    let (_, dispatcher) ← Script.registry registry
    let route ← calleeRoute callee
    return { callable := .route route, dispatcher, arguments, reply := .call callee }
  | .message receiver (.execute arguments registry) => some do
    let receiver ← receiver.build
    let arguments ← ValueSpec.buildAll arguments
    let (_, dispatcher) ← Script.registry registry
    return { callable := .receiver receiver, dispatcher, arguments, reply := .result }
  | _ => none

/-- A step that calls something is prepared, then the call is made, and then the step answers. -/
theorem answerStep_eq_prepared {step : Step} {prepare : Script PreparedCall}
    (hprepare : prepareCall? step = some prepare) (routing : Routing) (allowance : Nat) :
    answerStep routing allowance step = do
      let call ← prepare
      let result ← Script.perform (call.perform routing allowance)
      let world ← Script.world
      return call.answer result world := by
  cases step with
  | call callee arguments registry =>
    obtain rfl := Option.some.inj hprepare
    cases callee <;> simp [answerStep, performCall, calleeRoute, PreparedCall.perform,
      PreparedCall.answer, Route.call]
  | message receiver message =>
    cases message with
    | execute arguments registry =>
      obtain rfl := Option.some.inj hprepare
      simp [answerStep, answerMessage, PreparedCall.perform, PreparedCall.answer]
    | _ => cases hprepare
  | _ => cases hprepare

theorem calleeRoute_steady (callee : Callee) : simulation.Steady base (calleeRoute callee) := by
  cases callee with
  | named name => exact .pure fun _ _ ↦ rfl
  | function function | throughSite _ function =>
    apply (ValueSpec.build_steady function).next
    intro value
    exact (functionOf_steady value).next fun _ ↦ .pure fun _ _ ↦ rfl

/-- The same call is prepared on both sides, on a dispatcher that exists. -/
theorem prepareCall_relates {step : Step} {prepare : Script PreparedCall}
    (hprepare : prepareCall? step = some prepare) :
    simulation.Relates base
      (fun later left right ↦ left = right ∧ later.HasDispatcher left.dispatcher)
      prepare prepare := by
  cases step with
  | call callee arguments registry =>
    obtain rfl := Option.some.inj hprepare
    apply (ValueSpec.buildAll_steady arguments).next
    intro arguments
    apply Simulation.Relates.onRegistry registry
    intro after _ dispatcher _ hdispatcher
    apply (calleeRoute_steady callee).next
    intro route
    exact .pure fun later hlater ↦ ⟨rfl, hlater.hasDispatcher hdispatcher⟩
  | message receiver message =>
    cases message with
    | execute arguments registry =>
      obtain rfl := Option.some.inj hprepare
      apply (ReceiverSpec.build_steady receiver).next
      intro receiver
      apply (ValueSpec.buildAll_steady arguments).next
      intro arguments
      apply Simulation.Relates.onRegistry registry
      intro after _ dispatcher _ hdispatcher
      exact .pure fun later hlater ↦ ⟨rfl, hlater.hasDispatcher hdispatcher⟩
    | _ => cases hprepare
  | _ => cases hprepare

/-! ## Answering -/

theorem Script.register_steady {registry : RegistryId} (hregistry : base.HasRegistry registry)
    (name : String) (definition : Definition) :
    simulation.Steady base (Script.change fun world ↦ world.register registry name definition) :=
  .change fun _ hlater _ _ hafter ↦
    hafter.register (hafter.hasRegistry (hlater.hasRegistry hregistry)) name definition

theorem Script.registerBatch_steady {registry : RegistryId}
    (hregistry : base.HasRegistry registry) (batch : Batch) :
    simulation.Steady base (Script.change fun world ↦ ((), world.registerBatch registry batch)) :=
  .change fun _ hlater _ _ hafter ↦
    ⟨rfl, hafter.registerBatch (hafter.hasRegistry (hlater.hasRegistry hregistry)) batch⟩

theorem Script.lookup_steady {registry : RegistryId} (hregistry : base.HasRegistry registry)
    (name : String) (create : Bool) :
    simulation.Steady base (Script.change fun world ↦
      if create then
        let (function, world) := world.findOrCreate registry name
        (some function, world)
      else world.find registry name) := by
  apply Simulation.Relates.change
  intro later hlater left right hafter
  have hexists := hafter.hasRegistry (hlater.hasRegistry hregistry)
  cases create with
  | true =>
    obtain ⟨hfunction, hcreated⟩ := hafter.findOrCreate hexists name
    exact ⟨congrArg some hfunction, hcreated⟩
  | false =>
    exact ⟨hafter.look_eq (fun world ↦ world.functionNamed? registry name) (by simp),
      hafter.effect (.find registry name) rfl hexists⟩

theorem Script.defineSlot_steady (slot : String) (place : Place) :
    simulation.Steady base
      (modify fun state ↦ { state with slots := state.slots.insert slot place }) := by
  refine Simulation.Relates.modifyNames (fun left right hstates ↦ ?_) fun _ ↦ rfl
  refine ⟨hstates.worlds, hstates.settings, hstates.registries, hstates.batches, ?_,
    hstates.names⟩
  rw [hstates.slots]

theorem Script.defineBatch_steady (name : String) (batch : Batch) :
    simulation.Steady base
      (modify fun state ↦ { state with batches := state.batches.insert name batch }) := by
  refine Simulation.Relates.modifyNames (fun left right hstates ↦ ?_) fun _ ↦ rfl
  refine ⟨hstates.worlds, hstates.settings, hstates.registries, ?_, hstates.slots,
    hstates.names⟩
  rw [hstates.batches]

/-- A message other than a call is answered alike. -/
theorem answerMessage_relates {message : Message}
    (hmessage : ∀ arguments registry, message ≠ .execute arguments registry)
    (leftRouting rightRouting : Routing) (leftAllowance rightAllowance : Nat)
    (receiver : Receiver) :
    simulation.Relates base (fun _ ↦ Eq) (answerMessage leftRouting leftAllowance receiver message)
      (answerMessage rightRouting rightAllowance receiver message) := by
  cases message with
  | execute arguments registry => exact absurd rfl (hmessage arguments registry)
  | readMember | memberFlags | memberNames | element | location =>
    exact .answer (by simp) fun _ _ ↦ rfl
  | writeMember member content =>
    apply (ValueSpec.build_steady content).next
    intro value
    exact (Simulation.Relates.perform fun _ _ ↦ receiver.writeMember_agree member value).next
      fun _ ↦ .pure fun _ _ ↦ rfl
  | removeMember member =>
    exact (Simulation.Relates.perform fun _ _ ↦ receiver.removeMember_agree member).next
      fun _ ↦ .pure fun _ _ ↦ rfl
  | describes candidate =>
    exact (ReceiverSpec.build_steady candidate).next fun _ ↦ .pure fun _ _ ↦ rfl
  | elementCount | identityHash | type | asBoolean | asText | asLong | asInteger | simpleName =>
    exact .pure fun _ _ ↦ rfl

theorem answerStore_steady (object : ObjectId) (key : String) (request : StoreRequest) :
    simulation.Steady base (answerStore object key request) := by
  cases request with
  | read | contains => exact .answer (by simp) fun _ _ ↦ rfl
  | get => exact .answer (fun world ↦ by simp [funext (Shown.ofValue_contents world)]) fun _ _ ↦ rfl
  | remove =>
    apply Simulation.Relates.getWorld
    intro leftWorld rightWorld hafter
    rw [hafter.look_eq (fun world ↦ world.members object) fun _ ↦ rfl]
    cases (rightWorld.members object).remove key with
    | ok removed =>
      exact (Simulation.Relates.change fun _ _ ↦ Simulation.setMembers_agree object removed.2).next
        fun _ ↦ .answer (by simp) fun _ _ ↦ rfl
    | error fault => exact .pure fun _ _ ↦ rfl
  | write content =>
    apply (ValueSpec.build_steady content).next
    intro value
    refine (Simulation.Relates.change fun _ _ left right hafter ↦ ?_).next
      fun _ ↦ .pure fun _ _ ↦ rfl
    exact ⟨rfl, hafter.effect (.writeMember object key value) rfl trivial⟩
  | getOrInsert content =>
    apply (ValueSpec.build_steady content).next
    intro initial
    apply Simulation.Relates.getWorld
    intro leftWorld rightWorld hafter
    rw [hafter.look_eq (fun world ↦ world.members object) fun _ ↦ rfl]
    generalize (rightWorld.members object).getOrInsert key initial = inserted
    exact (Simulation.Relates.change fun _ _ ↦ Simulation.setMembers_agree object inserted.2.2).next
      fun _ ↦ .answer (by simp) fun _ _ ↦ rfl

theorem compareCells_relates {leftWorld rightWorld : World}
    (hafter : simulation.After base leftWorld rightWorld) (left right : Value) :
    simulation.Relates base (fun _ ↦ simulation.Answers) (compareCells leftWorld left right)
      (compareCells rightWorld left right) := by
  unfold compareCells
  split
  · exact .pure fun _ _ ↦ .same _
  · rename_i items _ _
    rw [hafter.look_eq (fun world ↦ Value.debugAll world items) (by simp)]
    exact .pure fun _ _ ↦ .same _
  · exact .throw _

/-- A step that calls nothing is answered alike. -/
theorem answerStep_relates {step : Step} (hstep : prepareCall? step = none)
    (leftRouting rightRouting : Routing) (leftAllowance rightAllowance : Nat) :
    simulation.Relates base (fun _ ↦ simulation.Answers)
      (answerStep leftRouting leftAllowance step)
      (answerStep rightRouting rightAllowance step) := by
  have hvalue (spec : ValueSpec) : simulation.Steady base spec.build := spec.build_steady
  have hreceiver (spec : ReceiverSpec) : simulation.Steady base spec.build := spec.build_steady
  have hplace (spec : ReceiverSpec) : simulation.Steady base spec.buildPlace :=
    spec.buildPlace_steady
  cases step with
  | call => cases hstep
  | define slot receiver =>
    apply (hplace receiver).next
    intro place
    apply (Script.defineSlot_steady slot place).next
    intro _
    exact .answer (by simp) fun _ ↦ .same
  | probe receiver | display receiver | debug receiver =>
    exact (hreceiver receiver).next fun _ ↦ .answer (by simp) fun _ ↦ .same
  | compareCells left right =>
    apply (hvalue left).next
    intro leftValue
    apply (hvalue right).next
    intro rightValue
    exact .getWorld fun _ _ hafter ↦ compareCells_relates hafter leftValue rightValue
  | operate operator operation left right =>
    apply (hreceiver left).next
    intro leftOperand
    apply (hreceiver right).next
    intro rightOperand
    refine (Simulation.Relates.perform fun _ _ ↦ Simulation.operator_agree operator
      operation.toOperation leftOperand rightOperand).next fun _ ↦ ?_
    exact .answer (by simp) fun _ ↦ .same
  | identical left right =>
    apply (hplace left).next
    intro _
    exact (hplace right).next fun _ ↦ .pure fun _ _ ↦ .same _
  | classify receiver => exact (hreceiver receiver).next fun _ ↦ .pure fun _ _ ↦ .same _
  | message receiver message =>
    apply (hreceiver receiver).next
    intro receiver
    refine (answerMessage_relates ?_ leftRouting rightRouting leftAllowance rightAllowance
      receiver).weaken ?_
    · rintro arguments registry rfl
      cases hstep
    · rintro _ answer _ rfl
      exact .same answer
  | store object key request =>
    apply (hvalue object).next
    intro value
    cases value.object? with
    | some object =>
      exact (answerStore_steady object key request).next fun _ ↦ .answer (by simp) fun _ ↦ .same
    | none => exact .throw _
  | operation | location | makeFault => exact .pure fun _ _ ↦ .same _
  | typeError operation operands =>
    exact (buildReceivers_steady operands).next fun _ ↦ .answer (by simp) fun _ ↦ .same
  | register name definition registry =>
    apply (DefinitionSpec.build_steady definition).next
    intro definition
    apply Simulation.Relates.onRegistry registry
    intro after registry _ hregistry _
    apply (Script.register_steady hregistry name definition).next
    intro _
    exact .answer (fun _ ↦ rfl) fun _ ↦ .same
  | lookup name create registry =>
    apply Simulation.Relates.onRegistry registry
    intro after registry _ hregistry _
    apply (Script.lookup_steady hregistry name create).next
    intro _
    exact .answer (fun _ ↦ rfl) fun _ ↦ .same
  | functions registry =>
    apply Simulation.Relates.onRegistry registry
    intro later registry _ hregistry _
    refine .getWorld fun left right hafter ↦ .pure fun _ _ ↦ ?_
    have hinfos := hafter.look_eq (fun world ↦ functionInfos world registry) (by simp)
    have hkeys := hafter.look_eq (fun world ↦ (world.registry registry).functions.keys) (by simp)
    rw [hinfos, debugRegistry_eq, debugRegistry_eq, hkeys]
    exact .functions _ _ (simulation.settings_of hafter.worlds (hafter.hasRegistry hregistry))
  | sameFunction left right =>
    apply (hvalue left).next
    intro leftValue
    apply (functionOf_steady leftValue).next
    intro _
    apply (hvalue right).next
    intro rightValue
    apply (functionOf_steady rightValue).next
    intro _
    exact .pure fun _ _ ↦ .same _
  | batch name entries =>
    apply (buildEntries_steady entries).next
    intro _
    apply Script.freshIdentity_steady.next
    intro _
    exact (Script.defineBatch_steady name _).next fun _ ↦ .pure fun _ _ ↦ .same _
  | registerBatch name registry =>
    apply Simulation.Relates.getState
    intro leftState rightState hstates
    rw [hstates.batches]
    cases rightState.batches.get? name with
    | some batch =>
      apply Simulation.Relates.onRegistry registry
      intro after registry _ hregistry _
      apply (Script.registerBatch_steady hregistry batch).next
      intro _
      exact .answer (by simp) fun _ ↦ .same
    | none => exact .throw _
  | site name =>
    refine .getWorld fun left right hafter ↦ .pure fun _ _ ↦ ?_
    have hdebug (site : Site) : left.debugSite site = right.debugSite site :=
      hafter.look_eq (fun world ↦ world.debugSite site) fun _ ↦ rfl
    rw [hdebug]
    exact .site right (simulation.sites_of hafter.worlds name)
  | dispatcher registry =>
    apply Simulation.Relates.onRegistry registry
    intro later _ dispatcher _ hdispatcher
    refine .getWorld fun left right hafter ↦ .pure fun _ _ ↦ ?_
    have hstate := hafter.look_eq (fun world ↦ world.dispatcher dispatcher) fun _ ↦ rfl
    have hregistry := simulation.wellFormed hafter.worlds dispatcher
      (hafter.extends_base.hasDispatcher hdispatcher)
    have hsettings := simulation.settings_of hafter.worlds hregistry
    rw [World.depth, World.depth, World.configOf, World.configOf, ← hstate]
    exact .dispatcher _ _ hsettings

/-- Every step is answered alike if the calls agree. -/
theorem answerStep_relates_of_calls {leftRouting rightRouting : Routing}
    {leftAllowance rightAllowance : Nat}
    (hcalls : ∀ (later : World) (call : PreparedCall), base.Extends later →
      later.HasDispatcher call.dispatcher →
        Action.Agree (simulation.After later) (call.perform leftRouting leftAllowance)
          (call.perform rightRouting rightAllowance)) (step : Step) :
    simulation.Relates base (fun _ ↦ simulation.Answers)
      (answerStep leftRouting leftAllowance step)
      (answerStep rightRouting rightAllowance step) := by
  cases hprepare : prepareCall? step with
  | none => exact answerStep_relates hprepare ..
  | some prepare =>
    rw [answerStep_eq_prepared hprepare, answerStep_eq_prepared hprepare]
    refine (prepareCall_relates hprepare).bind ?_
    rintro prepared call _ hprepared ⟨rfl, hdispatcher⟩
    refine (Simulation.Relates.perform fun later hlater ↦ hcalls later call
      (hprepared.trans hlater) (hlater.hasDispatcher hdispatcher)).next fun result ↦ ?_
    exact .getWorld fun _ _ hafter ↦ .pure fun _ _ ↦ call.answer_like hafter.worlds result

/-! ## Running -/

/-- Sessions give answers that differ as the simulation allows if the calls agree. -/
theorem runSteps_relates {leftRouting rightRouting : Routing}
    {leftAllowance rightAllowance : Nat}
    (hcalls : ∀ (later : World) (call : PreparedCall), base.Extends later →
      later.HasDispatcher call.dispatcher →
        Action.Agree (simulation.After later) (call.perform leftRouting leftAllowance)
          (call.perform rightRouting rightAllowance)) (steps : List Step) :
    simulation.Relates base
      (fun _ ↦ List.Forall₂ fun left right ↦ simulation.Answers left.1 right.1)
      (runSteps leftRouting leftAllowance steps)
      (runSteps rightRouting rightAllowance steps) := by
  have hstep (step : Step) : simulation.Relates base
      (fun _ left right ↦ simulation.Answers left.1 right.1)
      (runStep leftRouting leftAllowance step) (runStep rightRouting rightAllowance step) := by
    refine .getWorld fun _ _ _ ↦ (answerStep_relates_of_calls hcalls step).bind ?_
    intro after left right _ hanswers
    exact .getWorld fun _ _ _ ↦ .pure fun _ _ ↦ hanswers
  induction steps with
  | nil => exact .pure fun _ _ ↦ .nil
  | cons step rest ih =>
    refine (hstep step).bind fun after left right hafter hanswers ↦ ?_
    refine (ih.later hafter).bind fun last leftRest rightRest _ hrest ↦ ?_
    exact .pure fun _ _ ↦ .cons hanswers hrest

end Session

end GuestCore
