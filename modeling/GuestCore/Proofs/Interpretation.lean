import GuestCore.Eval

/-!
# Bodies in Other Kinds of Computation

A body is evaluated in the same way in every kind of computation that can sequence, fall back, do
what bodies do by themselves, and make calls.  Actions are one such kind.  Two kinds of
computation in which all parts of bodies correspond make whole bodies correspond, and so what is
to be shown of evaluation is shown for its parts alone.
-/

namespace GuestCore

/-- A way to call a function. -/
inductive Route where
  | direct (callee : FunctionId)
  | named (name : String)
  /-- The function is executed as a value. -/
  | executed (callee : FunctionId)
  | throughSite (site : String) (callee : FunctionId)

def Route.call (routing : Routing) (run : Runner) (dispatcher : DispatcherId)
    (arguments : List Value) : Route → Action Value
  | direct callee => Dispatch.call run dispatcher callee arguments
  | named name => Dispatch.callNamed run dispatcher name arguments
  | executed callee => (Value.function callee).execute run dispatcher arguments
  | throughSite site callee => Dispatch.callAt routing run dispatcher site callee arguments

namespace Body

/-- What bodies do by themselves, apart from calls. -/
inductive Leaf : Type → Type where
  | depth : Leaf Value
  | newList (values : List Value) : Leaf Value
  | operator (operator : BinaryOperator) (operation : Operation) (left right : Value) : Leaf Value
  | findOrCreate (name : String) : Leaf FunctionId
  | register (name : String) (definition : Definition) : Leaf Value
  | registerBatch (batch : Batch) : Leaf Unit
  | readMember (value : Value) (member : String) : Leaf Value
  | writeMember (value : Value) (member : String) (content : Value) : Leaf Unit
  | removeMember (value : Value) (member : String) : Leaf Unit
  | fail (member : String) : Leaf Value
  /-- A value was executed that is no function. -/
  | notExecutable : Leaf Value

def Leaf.perform {α : Type} (dispatcher : DispatcherId) : Leaf α → Action α
  | depth => .read fun world ↦ .integer (world.depth dispatcher)
  | newList values => .state fun world ↦ world.newList values
  | operator op operation left right => Operator.run op operation (.native left) (.native right)
  | findOrCreate name => .state fun world ↦
    world.findOrCreate (world.dispatcher dispatcher).registry name
  | register name definition => .state fun world ↦
    let (function, world) := world.register (world.dispatcher dispatcher).registry name definition
    (.function function, world)
  | registerBatch batch => .update fun world ↦
    world.registerBatch (world.dispatcher dispatcher).registry batch
  | readMember value member => fun world ↦ Action.ofExcept (value.readMember world member) world
  | writeMember value member content => value.writeMember member content
  | removeMember value member => value.removeMember member
  | fail member => .raise (.unknownMember member)
  | notExecutable => .raise (.unsupportedMessage "execute")

/-- A kind of computation in which bodies can be evaluated. -/
structure Interpretation (M : Type → Type) where
  leaf : {α : Type} → Leaf α → M α
  orElse : M Value → M Value → M Value
  call : Route → List Value → M Value

variable {M N : Type → Type} [Monad M] [Monad N]

mutual

def interpret (meaning : Interpretation M) (arguments : List Value) : Body Value → M Value
  | constant value => pure value
  | argument index => pure (arguments.getD index .null)
  | argumentCount => pure (.integer arguments.length)
  | depth => meaning.leaf .depth
  | lookup name => do
    let function ← meaning.leaf (.findOrCreate name)
    pure (.function function)
  | list items => do
    let values ← interpretAll meaning arguments items
    meaning.leaf (.newList values)
  | operator op operation left right => do
    let leftValue ← interpret meaning arguments left
    let rightValue ← interpret meaning arguments right
    meaning.leaf (.operator op operation leftValue rightValue)
  | choose condition thenBranch elseBranch => do
    match ← interpret meaning arguments condition with
    | .boolean true => interpret meaning arguments thenBranch
    | _ => interpret meaning arguments elseBranch
  | call name parts => do
    let values ← interpretAll meaning arguments parts
    meaning.call (.named name) values
  | execute callee parts => do
    let function ← interpret meaning arguments callee
    let values ← interpretAll meaning arguments parts
    match function.function? with
    | some id => meaning.call (.executed id) values
    | none => meaning.leaf .notExecutable
  | callAt site name parts => do
    let values ← interpretAll meaning arguments parts
    let function ← meaning.leaf (.findOrCreate name)
    meaning.call (.throughSite site function) values
  | executeAt site callee parts => do
    let function ← interpret meaning arguments callee
    let values ← interpretAll meaning arguments parts
    match function.function? with
    | some id => meaning.call (.throughSite site id) values
    | none => meaning.leaf .notExecutable
  | sequence items => do
    let values ← interpretAll meaning arguments items
    pure (values.getLastD .null)
  | register name body location => meaning.leaf (.register name { body, location })
  | registerBatch identity names bodies => do
    meaning.leaf (.registerBatch (.ofBodies identity names bodies))
    pure .null
  | readMember object member => do
    let value ← interpret meaning arguments object
    meaning.leaf (.readMember value member)
  | writeMember object member content => do
    let value ← interpret meaning arguments object
    let contentValue ← interpret meaning arguments content
    meaning.leaf (.writeMember value member contentValue)
    pure contentValue
  | removeMember object member => do
    let value ← interpret meaning arguments object
    meaning.leaf (.removeMember value member)
    pure .null
  | fail member => meaning.leaf (.fail member)
  | attempt body fallback =>
    meaning.orElse (interpret meaning arguments body)
      (interpret meaning arguments fallback)

def interpretAll (meaning : Interpretation M) (arguments : List Value) :
    List (Body Value) → M (List Value)
  | [] => pure []
  | body :: rest => do
    let value ← interpret meaning arguments body
    let values ← interpretAll meaning arguments rest
    pure (value :: values)

end

/-! ## Actions as an interpretation -/

/-- Bodies as actions, with calls made by a runner. -/
def Interpretation.running (routing : Routing) (run : Runner) (dispatcher : DispatcherId) :
    Interpretation Action where
  leaf part := part.perform dispatcher
  orElse := Action.orElse
  call route arguments := route.call routing run dispatcher arguments

section Running

variable (routing : Routing) (run : Runner) (dispatcher : DispatcherId) (arguments : List Value)

mutual

/-- Evaluation is the interpretation of bodies as actions. -/
theorem eval_eq_interpret : (body : Body Value) →
    body.eval routing run dispatcher arguments =
      body.interpret (.running routing run dispatcher) arguments
  | constant _ | argument _ | argumentCount => by rw [eval, interpret]
  | depth | lookup _ | register _ _ _ | registerBatch _ _ _ | fail _ => by
    rw [eval, interpret]
    rfl
  | sequence items => by rw [eval, interpret, evalAll_eq_interpretAll items]
  | list items | call _ items | callAt _ _ items => by
    rw [eval, interpret, evalAll_eq_interpretAll items]
    rfl
  | operator _ _ left right | writeMember left _ right | attempt left right => by
    rw [eval, interpret, eval_eq_interpret left, eval_eq_interpret right]
    rfl
  | choose condition thenBranch elseBranch => by
    rw [eval, interpret, eval_eq_interpret condition]
    refine bind_congr fun value ↦ ?_
    cases value with
    | boolean truth =>
      cases truth with
      | true => exact eval_eq_interpret thenBranch
      | false => exact eval_eq_interpret elseBranch
    | _ => exact eval_eq_interpret elseBranch
  | execute callee parts | executeAt _ callee parts => by
    rw [eval, interpret, eval_eq_interpret callee, evalAll_eq_interpretAll parts]
    rfl
  | readMember object _ | removeMember object _ => by
    rw [eval, interpret, eval_eq_interpret object]
    rfl

theorem evalAll_eq_interpretAll : (bodies : List (Body Value)) →
    evalAll routing run dispatcher arguments bodies =
      interpretAll (.running routing run dispatcher) arguments bodies
  | [] => by rw [evalAll, interpretAll]
  | body :: rest => by
    rw [evalAll, interpretAll, eval_eq_interpret body, evalAll_eq_interpretAll rest]

end

end Running

/-! ## Corresponding interpretations -/

/-- All parts of bodies correspond. -/
structure Interpretation.Corresponds (left : Interpretation M) (right : Interpretation N)
    (related : ∀ {α : Type}, M α → N α → Prop) : Prop where
  pure : ∀ {α : Type} (value : α), related (Pure.pure value) (Pure.pure value)
  bind : ∀ {α β : Type} {first : M α} {second : N α} {next : α → M β} {following : α → N β},
    related first second → (∀ value, related (next value) (following value)) →
      related (first >>= next) (second >>= following)
  orElse : ∀ {first fallback : M Value} {second alternative : N Value},
    related first second → related fallback alternative →
      related (left.orElse first fallback) (right.orElse second alternative)
  leaf : ∀ {α : Type} (part : Leaf α), related (left.leaf part) (right.leaf part)
  call : ∀ (route : Route) (arguments : List Value),
    related (left.call route arguments) (right.call route arguments)

section Corresponds

variable {left : Interpretation M} {right : Interpretation N}
  {related : ∀ {α : Type}, M α → N α → Prop}

mutual

/-- If all parts of bodies correspond, so do bodies. -/
theorem interpret_related (h : left.Corresponds right related)
    (arguments : List Value) : (body : Body Value) →
    related (body.interpret left arguments) (body.interpret right arguments)
  | constant _ | argument _ | argumentCount => by
    rw [interpret, interpret]
    exact h.pure _
  | depth => by
    rw [interpret, interpret]
    exact h.leaf .depth
  | lookup name => by
    rw [interpret, interpret]
    exact h.bind (h.leaf (.findOrCreate name)) fun _ ↦ h.pure _
  | list items => by
    rw [interpret, interpret]
    exact h.bind (interpretAll_related h arguments items) fun values ↦ h.leaf (.newList values)
  | operator op operation leftBody rightBody => by
    rw [interpret, interpret]
    apply h.bind (interpret_related h arguments leftBody)
    intro leftValue
    apply h.bind (interpret_related h arguments rightBody)
    intro rightValue
    exact h.leaf (.operator op operation leftValue rightValue)
  | choose condition thenBranch elseBranch => by
    rw [interpret, interpret]
    apply h.bind (interpret_related h arguments condition)
    intro value
    split
    · exact interpret_related h arguments thenBranch
    · exact interpret_related h arguments elseBranch
  | call name parts => by
    rw [interpret, interpret]
    exact h.bind (interpretAll_related h arguments parts) fun values ↦ h.call (.named name) values
  | execute callee parts => by
    rw [interpret, interpret]
    apply h.bind (interpret_related h arguments callee)
    intro function
    apply h.bind (interpretAll_related h arguments parts)
    intro values
    cases function.function? with
    | some id => exact h.call (.executed id) values
    | none => exact h.leaf .notExecutable
  | callAt site name parts => by
    rw [interpret, interpret]
    apply h.bind (interpretAll_related h arguments parts)
    intro values
    apply h.bind (h.leaf (.findOrCreate name))
    intro function
    exact h.call (.throughSite site function) values
  | executeAt site callee parts => by
    rw [interpret, interpret]
    apply h.bind (interpret_related h arguments callee)
    intro function
    apply h.bind (interpretAll_related h arguments parts)
    intro values
    cases function.function? with
    | some id => exact h.call (.throughSite site id) values
    | none => exact h.leaf .notExecutable
  | sequence items => by
    rw [interpret, interpret]
    exact h.bind (interpretAll_related h arguments items) fun values ↦ h.pure _
  | register name body location => by
    rw [interpret, interpret]
    exact h.leaf (.register name { body, location })
  | registerBatch identity names bodies => by
    rw [interpret, interpret]
    exact h.bind (h.leaf (.registerBatch (.ofBodies identity names bodies))) fun _ ↦ h.pure _
  | readMember object member => by
    rw [interpret, interpret]
    exact h.bind (interpret_related h arguments object) fun value ↦
      h.leaf (.readMember value member)
  | writeMember object member content => by
    rw [interpret, interpret]
    apply h.bind (interpret_related h arguments object)
    intro value
    apply h.bind (interpret_related h arguments content)
    intro contentValue
    exact h.bind (h.leaf (.writeMember value member contentValue)) fun _ ↦ h.pure contentValue
  | removeMember object member => by
    rw [interpret, interpret]
    apply h.bind (interpret_related h arguments object)
    intro value
    exact h.bind (h.leaf (.removeMember value member)) fun _ ↦ h.pure _
  | fail member => by
    rw [interpret, interpret]
    exact h.leaf (.fail member)
  | attempt body fallback => by
    rw [interpret, interpret]
    exact h.orElse (interpret_related h arguments body) (interpret_related h arguments fallback)

theorem interpretAll_related (h : left.Corresponds right related)
    (arguments : List Value) : (bodies : List (Body Value)) →
    related (interpretAll left arguments bodies) (interpretAll right arguments bodies)
  | [] => by
    rw [interpretAll, interpretAll]
    exact h.pure []
  | body :: rest => by
    rw [interpretAll, interpretAll]
    apply h.bind (interpret_related h arguments body)
    intro value
    exact h.bind (interpretAll_related h arguments rest) fun values ↦ h.pure (value :: values)

end

end Corresponds

end Body

end GuestCore
