import GuestCore.Proofs.Literals
import GuestCore.Proofs.RaisedFaults
import GuestCore.Proofs.TypeErrors

/-!
# Texts of Faults Are Unambiguous

The text of a fault opens with words that belong to its kind, and none of these openings is the
beginning of another.  So the text tells the kind, whatever names and texts it goes on with, and
from the kind and the text the data of the fault can be found again.
-/

namespace GuestCore

/-! ## Faults and their wording -/

/-- The faults that the library makes, each with its wording. -/
inductive Fault.Worded : Fault → String → Prop
  | unknownMember (member : String) :
      Worded (.unknownMember member) ("unknown member: " ++ member)
  | unsupportedConversion (target : String) :
      Worded (.unsupportedConversion target) ("unsupported conversion to " ++ target)
  | unsupportedMessage (message : String) :
      Worded (.unsupportedMessage message) ("unsupported message: " ++ message)
  | undefinedFunction (name : String) :
      Worded (.undefinedFunction name) ("undefined function: " ++ name)
  | indexOutOfBounds (index : Nat) :
      Worded (.indexOutOfBounds index) ("index " ++ index.repr ++ " out of bounds")
  | depthExceeded (limit : Nat) :
      Worded (.depthExceeded limit) ("maximum call depth exceeded (limit: " ++ limit.repr ++ ")")
  | typeError (world : World) (operation : Operation) (operands : List Receiver) :
      Worded (Operator.typeError world operation operands)
        (Operator.typeErrorHeading operation ++
          Operator.listed (operands.map (Operator.describe world)))
  | located {fault : Fault} {text : String} (hworded : Worded fault text) (location : Location) :
      Worded (fault.located location) text

namespace FaultKind

/-- The kind of a fault without its data. -/
inductive Category where
  | unknownMember
  | unsupportedConversion
  | unsupportedMessage
  | typeError
  | undefinedFunction
  | indexOutOfBounds
  | depthExceeded
deriving DecidableEq

namespace Category

/-- The words with which the texts of a category begin. -/
def opening : Category → String
  | unknownMember => "unknown member: "
  | unsupportedConversion => "unsupported conversion to "
  | unsupportedMessage => "unsupported message: "
  | typeError => "Type error"
  | undefinedFunction => "undefined function: "
  | indexOutOfBounds => "index "
  | depthExceeded => "maximum call depth exceeded (limit: "

/-- No opening is the beginning of another. -/
theorem eq_of_opening_begins {left right : Category}
    (hbegins : left.opening.toList <+: right.opening.toList) : left = right := by
  revert hbegins
  cases left <;> cases right <;> decide

end Category

def category : FaultKind → Category
  | .unknownMember _ => .unknownMember
  | .unsupportedConversion _ => .unsupportedConversion
  | .unsupportedMessage _ => .unsupportedMessage
  | .typeError _ => .typeError
  | .undefinedFunction _ => .undefinedFunction
  | .indexOutOfBounds _ => .indexOutOfBounds
  | .depthExceeded _ => .depthExceeded

/-- The text begins with the words of its category. -/
def Opens (kind : FaultKind) : Prop :=
  ∃ rest, kind.message = kind.category.opening ++ rest

variable {left right : FaultKind}

theorem Opens.opening_begins (hopens : left.Opens) :
    left.category.opening.toList <+: left.message.toList := by
  obtain ⟨rest, hmessage⟩ := hopens
  rw [hmessage, String.toList_append]
  exact List.prefix_append _ _

/-- Of two openings of the same text, one is the beginning of the other. -/
theorem category_eq (hleft : left.Opens) (hright : right.Opens)
    (hmessage : left.message = right.message) : left.category = right.category := by
  have hopening := hleft.opening_begins
  rw [hmessage] at hopening
  rcases List.prefix_or_prefix_of_prefix hopening hright.opening_begins with hbegins | hbegins
  · exact Category.eq_of_opening_begins hbegins
  · exact (Category.eq_of_opening_begins hbegins).symm

/-- A number between the same words is found again. -/
theorem eq_of_repr_eq {opening closing : String} {number other : Nat}
    (htext : opening ++ number.repr ++ closing = opening ++ other.repr ++ closing) :
    number = other := by
  have hrepr : number.repr = other.repr :=
    (String.append_right_inj _).mp ((String.append_left_inj _).mp htext)
  exact Int.ofNat.inj (Integer.display_injective hrepr)

/-- Within a category, the text consists of the data and of words that are always the same. -/
theorem eq_of_category_eq (hcategory : left.category = right.category)
    (hmessage : left.message = right.message) : left = right := by
  match left, right, hcategory with
  | .unknownMember _, .unknownMember _, _ =>
    exact congrArg FaultKind.unknownMember ((String.append_right_inj _).mp hmessage)
  | .unsupportedConversion _, .unsupportedConversion _, _ =>
    exact congrArg FaultKind.unsupportedConversion ((String.append_right_inj _).mp hmessage)
  | .unsupportedMessage _, .unsupportedMessage _, _ =>
    exact congrArg FaultKind.unsupportedMessage ((String.append_right_inj _).mp hmessage)
  | .typeError _, .typeError _, _ => exact congrArg FaultKind.typeError hmessage
  | .undefinedFunction _, .undefinedFunction _, _ =>
    exact congrArg FaultKind.undefinedFunction ((String.append_right_inj _).mp hmessage)
  | .indexOutOfBounds _, .indexOutOfBounds _, _ =>
    exact congrArg FaultKind.indexOutOfBounds (eq_of_repr_eq hmessage)
  | .depthExceeded _, .depthExceeded _, _ =>
    exact congrArg FaultKind.depthExceeded (eq_of_repr_eq hmessage)

end FaultKind

namespace Fault.Worded

variable {fault : Fault} {text : String}

theorem message_eq (hworded : fault.Worded text) : fault.message = text := by
  induction hworded with
  | typeError world operation operands => exact Operator.typeErrorMessage_eq _ _ _
  | located _ _ ih => exact ih
  | _ => rfl

/-- A type error holds its whole text as its data, and its heading tells how that begins. -/
theorem opens (hworded : fault.Worded text) : fault.kind.Opens := by
  induction hworded with
  | typeError world operation operands =>
    have hmessage := Operator.typeErrorMessage_eq world operation operands
    simp only [Operator.typeErrorHeading, String.append_assoc] at hmessage
    exact ⟨_, hmessage⟩
  | located _ _ ih => exact ih
  | indexOutOfBounds number | depthExceeded number => exact ⟨_, String.append_assoc⟩
  | _ => exact ⟨_, rfl⟩

/-- The text tells the category, and then the category and the text tell the data. -/
theorem kind_eq {other : Fault} {otherText : String} (hworded : fault.Worded text)
    (hother : other.Worded otherText) (hmessage : fault.message = other.message) :
    fault.kind = other.kind :=
  FaultKind.eq_of_category_eq (FaultKind.category_eq hworded.opens hother.opens hmessage) hmessage

end Fault.Worded

/-! ## The faults of calls -/

/-- The fault is one of those that the library makes. -/
def Fault.IsWorded (fault : Fault) : Prop :=
  ∃ text, fault.Worded text

namespace Raising

variable {α β : Type}

/-- All faults of the computation, caught or not, are made by the library. -/
def RaisesWorded (raising : Raising α) : Prop :=
  ∀ world, ∀ fault ∈ (raising world).2, fault.IsWorded

namespace RaisesWorded

variable {first fallback : Raising α}

theorem pure (value : α) : RaisesWorded (Pure.pure value : Raising α) :=
  fun _ ↦ nofun

theorem bind {next : α → Raising β} (hfirst : first.RaisesWorded)
    (hnext : ∀ value, (next value).RaisesWorded) : RaisesWorded (first >>= next) := by
  intro world
  have hearly := hfirst world
  change ∀ fault ∈ (Raising.bind first next world).2, fault.IsWorded
  unfold Raising.bind
  generalize first world = told at hearly
  obtain ⟨outcome, faults⟩ := told
  cases outcome with
  | returned value middle => exact List.forall_mem_append.mpr ⟨hearly, hnext value middle⟩
  | raised | exhausted => exact hearly

theorem orElse (hfirst : first.RaisesWorded) (hfallback : fallback.RaisesWorded) :
    RaisesWorded (first.orElse fallback) := by
  intro world
  have hearly := hfirst world
  unfold Raising.orElse
  generalize first world = told at hearly
  obtain ⟨outcome, faults⟩ := told
  cases outcome with
  | raised fault middle => exact List.forall_mem_append.mpr ⟨hearly, hfallback middle⟩
  | returned | exhausted => exact hearly

theorem performing {action : Action α}
    (haction : ∀ world fault, (action world).fault? = some fault → fault.IsWorded) :
    RaisesWorded (.performing action) := by
  intro world fault hmember
  exact haction world fault (Option.mem_toList.mp hmember)

theorem raise {fault : Fault} (hworded : fault.IsWorded) :
    RaisesWorded (.performing (.raise fault) : Raising α) := by
  refine performing fun world other hother ↦ ?_
  cases hother
  exact hworded

end RaisesWorded

end Raising

theorem Operator.isWorded_of_run {operator : BinaryOperator} {operation : Operation}
    {left right : Receiver} {world : World} {fault : Fault}
    (hfault : (Operator.run operator operation left right world).fault? = some fault) :
    fault.IsWorded := by
  unfold Operator.run at hfault
  cases happly : Operator.apply world operator operation left right with
  | ok scalar =>
    rw [happly] at hfault
    cases hfault
  | error raised =>
    rw [happly] at hfault
    obtain rfl := Option.some.inj hfault
    rw [eq_typeError_of_apply happly]
    exact ⟨_, .typeError world operation [left, right]⟩

theorem Body.Leaf.isWorded_of_perform {α : Type} {dispatcher : DispatcherId} {world : World}
    {fault : Fault} {part : Leaf α} (hfault : (part.perform dispatcher world).fault? = some fault) :
    fault.IsWorded := by
  cases part with
  | depth | newList | findOrCreate | register | registerBatch => cases hfault
  | operator op operation left right => exact Operator.isWorded_of_run hfault
  | readMember value member =>
    simp only [perform, Value.readMember] at hfault
    cases hobject : value.object? with
    | none =>
      rw [hobject] at hfault
      cases hfault
      exact ⟨_, .unsupportedMessage _⟩
    | some object =>
      rw [hobject] at hfault
      simp only [Members.read] at hfault
      cases hmember : (world.members object).get? member with
      | none =>
        rw [hmember] at hfault
        cases hfault
        exact ⟨_, .unknownMember member⟩
      | some content =>
        rw [hmember] at hfault
        cases hfault
  | writeMember value member content =>
    simp only [perform, Value.writeMember] at hfault
    cases hobject : value.object? with
    | none =>
      rw [hobject] at hfault
      cases hfault
      exact ⟨_, .unsupportedMessage _⟩
    | some object =>
      rw [hobject] at hfault
      cases hfault
  | removeMember value member =>
    simp only [perform, Value.removeMember] at hfault
    cases hobject : value.object? with
    | none =>
      rw [hobject] at hfault
      cases hfault
      exact ⟨_, .unsupportedMessage _⟩
    | some object =>
      rw [hobject] at hfault
      simp only [Members.remove] at hfault
      cases hmember : (world.members object).get? member with
      | none =>
        rw [hmember] at hfault
        cases hfault
        exact ⟨_, .unknownMember member⟩
      | some content =>
        rw [hmember] at hfault
        cases hfault
  | fail member =>
    cases hfault
    exact ⟨_, .unknownMember member⟩
  | notExecutable =>
    cases hfault
    exact ⟨_, .unsupportedMessage _⟩

namespace Raising

section Runs

variable {run : RaisingRunner} {dispatcher : DispatcherId}

theorem activate_raisesWorded
    (hrun : ∀ definition arguments, (run dispatcher definition arguments).RaisesWorded)
    (name : String) (definition : Definition) (arguments : List Value) :
    (activate run dispatcher arguments name definition).RaisesWorded := by
  intro world
  unfold activate
  dsimp only
  cases (world.configOf dispatcher).reachedLimit? (world.depth dispatcher) with
  | some limit => exact List.forall_mem_singleton.mpr ⟨_, .depthExceeded limit⟩
  | none => exact hrun definition arguments _

theorem call_raisesWorded
    (hrun : ∀ definition arguments, (run dispatcher definition arguments).RaisesWorded)
    (arguments : List Value) (routing : Routing) (route : Route) :
    (call run dispatcher arguments routing route).RaisesWorded := by
  intro world
  unfold call
  cases htarget : route.target routing world dispatcher with
  | ok found => exact activate_raisesWorded hrun found.1 found.2 arguments _
  | error fault =>
    obtain ⟨name, rfl⟩ := Route.target_error htarget
    exact List.forall_mem_singleton.mpr ⟨_, .undefinedFunction name⟩

theorem interpret_raisesWorded
    (hrun : ∀ definition arguments, (run dispatcher definition arguments).RaisesWorded)
    (routing : Routing) (arguments : List Value) (body : Body Value) :
    RaisesWorded (body.interpret (.raising routing run dispatcher) arguments) := by
  have hparts : Body.Interpretation.Corresponds (.raising routing run dispatcher)
      (.raising routing run dispatcher) fun raising _ ↦ raising.RaisesWorded :=
    { pure := .pure
      bind := .bind
      orElse := .orElse
      leaf := fun _ ↦ .performing fun _ _ ↦ Body.Leaf.isWorded_of_perform
      call := fun route arguments ↦ call_raisesWorded hrun arguments routing route }
  exact Body.interpret_related hparts arguments body

end Runs

theorem raisingRun_raisesWorded (routing : Routing) (allowance : Nat) (dispatcher : DispatcherId)
    (definition : Definition) (arguments : List Value) :
    (raisingRun routing allowance dispatcher definition arguments).RaisesWorded := by
  induction allowance generalizing definition arguments with
  | zero => exact fun _ ↦ nofun
  | succ allowance ih => exact interpret_raisesWorded ih routing arguments definition.body

theorem receiver_raisesWorded (routing : Routing) (allowance : Nat) (dispatcher : DispatcherId)
    (arguments : List Value) (receiver : Receiver) :
    (receiver.raising routing (raisingRun routing allowance) dispatcher arguments).RaisesWorded := by
  have hrun := raisingRun_raisesWorded routing allowance dispatcher
  have hrefused : (Fault.unsupportedMessage "execute").IsWorded := ⟨_, .unsupportedMessage _⟩
  induction receiver with
  | native value =>
    unfold Receiver.raising
    cases value.function? with
    | some callee => exact call_raisesWorded hrun arguments routing (.executed callee)
    | none => exact .raise hrefused
  | descriptor | functions => exact .raise hrefused
  | foreign value =>
    unfold Receiver.raising
    cases value.body? with
    | some body => exact interpret_raisesWorded hrun routing arguments body
    | none => exact .raise hrefused
  | view delegate ih => exact ih

end Raising

namespace Session

variable {routing : Routing} {allowance : Nat}

theorem PreparedCall.raising_raisesWorded (call : PreparedCall) (routing : Routing)
    (allowance : Nat) : (call.raising routing allowance).RaisesWorded := by
  unfold raising
  cases call.callable with
  | route route =>
    have hrun := Raising.raisingRun_raisesWorded routing allowance call.dispatcher
    exact Raising.call_raisesWorded hrun call.arguments routing route
  | receiver receiver => exact Raising.receiver_raisesWorded routing allowance _ _ receiver

theorem isWorded_of_mem_stepFaults {step : Step} {state : State} {fault : Fault}
    (hmember : fault ∈ stepFaults routing allowance step state) : fault.IsWorded := by
  unfold stepFaults at hmember
  split at hmember
  · cases hmember
  · split at hmember
    · exact PreparedCall.raising_raisesWorded _ routing allowance _ fault hmember
    · cases hmember

theorem isWorded_of_mem_callFaults {steps : List Step} {state : State} {fault : Fault}
    (hmember : fault ∈ callFaults routing allowance steps state) : fault.IsWorded := by
  induction steps generalizing state with
  | nil => cases hmember
  | cons step rest ih =>
    rw [callFaults, List.mem_append] at hmember
    rcases hmember with hfirst | hrest
    · exact isWorded_of_mem_stepFaults hfirst
    · split at hrest
      · exact ih hrest
      · cases hrest

end Session

/-- The text of a fault is the wording of its kind, and no two kinds of fault, and no two faults of
one kind with different data, read the same.  There are no other faults: whatever names a session
uses, the faults that its calls raise are worded, also those that are caught. -/
theorem fault_texts_unambiguous :
    (∀ (fault : Fault) (text : String), fault.Worded text →
      fault.message = text ∧ fault.kind.message = text) ∧
    (∀ left right : Fault, left.IsWorded → right.IsWorded →
      (left.message = right.message ↔ left.kind = right.kind)) ∧
    ∀ (routing : Routing) (allowance : Nat) (config : Config) (steps : List Session.Step),
      ∀ fault ∈ Session.callFaults routing allowance steps { config }, fault.IsWorded := by
  refine ⟨fun fault text hworded ↦ ⟨hworded.message_eq, hworded.message_eq⟩, ?_,
    fun routing allowance config steps fault ↦ Session.isWorded_of_mem_callFaults⟩
  rintro left right ⟨leftText, hleft⟩ ⟨rightText, hright⟩
  constructor
  · exact hleft.kind_eq hright
  · exact fun hkind ↦ congrArg FaultKind.message hkind

/-- A function fails with a member that is named like the text of another fault, and then with that
other fault. -/
def disguisedSteps : List Session.Step :=
  [.register "f" { body := .attempt (.fail "undefined function: g") (.call "g" []) } "main",
    .call (.named "f") [] "main"]

/-- The disguise does not work.  Type errors of one operand and of two can read the same; they are
then the same type error. -/
theorem fault_texts_unambiguous_disguisedSteps :
    let member := Fault.unknownMember "undefined function: g"
    let function := Fault.undefinedFunction "g"
    let minus : Operation := .named "-"
    let joint := Operator.typeError {} minus [.native (.text ⟨0⟩ "a\", String \"b")]
    let separate :=
      Operator.typeError {} minus [.native (.text ⟨0⟩ "a"), .native (.text ⟨1⟩ "b")]
    Session.callFaults .cached 3 disguisedSteps {} = [member, function] ∧
      member.message ≠ function.message ∧
      joint.message = "Type error: operation \"-\" not defined for String \"a\", String \"b\"" ∧
      joint.message = separate.message ∧ joint.kind = separate.kind := by
  intro member function minus joint separate
  obtain ⟨-, htells, hworded⟩ := fault_texts_unambiguous
  have hfaults : Session.callFaults .cached 3 disguisedSteps {} = [member, function] := by
    decide +kernel
  have hmember := hworded .cached 3 {} disguisedSteps member (by rw [hfaults]; simp)
  have hfunction := hworded .cached 3 {} disguisedSteps function (by rw [hfaults]; simp)
  have hsame : joint.message = separate.message := by decide +kernel
  refine ⟨hfaults, fun hmessage ↦ ?_, by decide +kernel, hsame, ?_⟩
  · cases (htells member function hmember hfunction).mp hmessage
  · exact (htells joint separate ⟨_, .typeError ..⟩ ⟨_, .typeError ..⟩).mp hsame

end GuestCore
