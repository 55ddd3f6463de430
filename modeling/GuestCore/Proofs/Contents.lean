import GuestCore.Session.Run

/-!
# The Contents of a World

The contents of a world are its objects, functions, names, dispatchers and identities: all but
what call sites remember, the trace, and the settings of registries.  Every question that a
program or a session asks about the world, except for the questions about call sites and settings,
has an answer that depends on the contents alone.
-/

namespace GuestCore

namespace Table

variable {α β : Type}

/-- The table with every cell converted. -/
def map (convert : α → β) (table : Table α) : Table β :=
  ⟨table.cells.map convert⟩

@[simp]
theorem size_map (convert : α → β) (table : Table α) : (table.map convert).size = table.size := by
  simp [map, size]

theorem get_map [Inhabited α] [Inhabited β] (table : Table α) {convert : α → β}
    (hdefault : convert default = default) (index : Nat) :
    (table.map convert).get index = convert (table.get index) := by
  simp only [map, get, Array.getD_eq_getD_getElem?, Array.getElem?_map]
  cases table.cells[index]? with
  | some cell => rfl
  | none => exact hdefault.symm

end Table

/-- The world without what its call sites remember, its trace and the settings of registries. -/
def World.contents (world : World) : World :=
  { world with
    registries := world.registries.map fun registry ↦ { registry with config := {} }
    sites := {}
    history := [] }

namespace World

variable {left right : World}

/-- A function of the contents takes the same value on two worlds with the same contents. -/
theorem eq_of_contents_eq {α : Type} (look : World → α)
    (hlook : ∀ world : World, look world.contents = look world)
    (hcontents : left.contents = right.contents) : look left = look right := by
  rw [← hlook left, hcontents, hlook right]

/-! ## Reading the parts of a world -/

theorem registry_contents (world : World) (registry : RegistryId) :
    world.contents.registry registry = { world.registry registry with config := {} } :=
  world.registries.get_map rfl registry.index

@[simp]
theorem functions_registry_contents (world : World) (registry : RegistryId) :
    (world.contents.registry registry).functions = (world.registry registry).functions := by
  rw [registry_contents]

@[simp]
theorem applied_registry_contents (world : World) (registry : RegistryId) :
    (world.contents.registry registry).applied = (world.registry registry).applied := by
  rw [registry_contents]

@[simp]
theorem functionState_contents (world : World) (function : FunctionId) :
    world.contents.functionState function = world.functionState function := rfl

@[simp]
theorem members_contents (world : World) (object : ObjectId) :
    world.contents.members object = world.members object := rfl

@[simp]
theorem dispatcher_contents (world : World) (dispatcher : DispatcherId) :
    world.contents.dispatcher dispatcher = world.dispatcher dispatcher := rfl

@[simp]
theorem functionNamed?_contents (world : World) (registry : RegistryId) (name : String) :
    world.contents.functionNamed? registry name = world.functionNamed? registry name := by
  simp [functionNamed?]

@[simp]
theorem depth_contents (world : World) (dispatcher : DispatcherId) :
    world.contents.depth dispatcher = world.depth dispatcher := rfl

@[simp]
theorem functionsByName_contents (world : World) (registry : RegistryId) :
    world.contents.functionsByName registry = world.functionsByName registry := by
  rw [functionsByName, functions_registry_contents]
  rfl

end World

/-! ## Values -/

namespace Value

mutual

@[simp]
theorem display_contents (world : World) : (value : Value) →
    value.display world.contents = value.display world
  | null | integer _ | boolean _ | text _ _ | function _ | object _ => by simp [display]
  | list _ items => by simp [display, displayAll_contents world items]

@[simp]
theorem displayAll_contents (world : World) : (items : List Value) →
    displayAll world.contents items = displayAll world items
  | [] => rfl
  | item :: rest => by
    simp [displayAll, display_contents world item, displayAll_contents world rest]

end

mutual

@[simp]
theorem debug_contents (world : World) : (value : Value) →
    value.debug world.contents = value.debug world
  | null | integer _ | boolean _ | text _ _ | function _ | object _ => by simp [debug]
  | list _ items => by simp [debug, debugAll_contents world items]

@[simp]
theorem debugAll_contents (world : World) : (items : List Value) →
    debugAll world.contents items = debugAll world items
  | [] => rfl
  | item :: rest => by simp [debugAll, debug_contents world item, debugAll_contents world rest]

end

@[simp]
theorem readMember_contents (world : World) (value : Value) (member : String) :
    value.readMember world.contents member = value.readMember world member := rfl

@[simp]
theorem hasMember_contents (world : World) (value : Value) (member : String) :
    value.hasMember world.contents member = value.hasMember world member := rfl

@[simp]
theorem acceptsMember_contents (world : World) (value : Value) (member : String) :
    value.acceptsMember world.contents member = value.acceptsMember world member := rfl

@[simp]
theorem memberNames_contents (world : World) (value : Value) :
    value.memberNames world.contents = value.memberNames world := rfl

@[simp]
theorem location?_contents (world : World) (value : Value) :
    value.location? world.contents = value.location? world := rfl

end Value

/-! ## Receivers -/

namespace Receiver

variable (world : World)

@[simp]
theorem readMember_contents (member : String) (receiver : Receiver) :
    receiver.readMember world.contents member = receiver.readMember world member := by
  induction receiver with
  | native | descriptor | functions => simp [readMember]
  | foreign value => cases h : value.members? <;> simp [readMember, h]
  | view delegate ih => simpa [readMember] using ih

@[simp]
theorem isMemberReadable_contents (member : String) (receiver : Receiver) :
    receiver.isMemberReadable world.contents member = receiver.isMemberReadable world member := by
  induction receiver with
  | native | descriptor | functions | foreign => simp [isMemberReadable]
  | view delegate ih => simpa [isMemberReadable] using ih

@[simp]
theorem isMemberWritable_contents (member : String) (receiver : Receiver) :
    receiver.isMemberWritable world.contents member = receiver.isMemberWritable world member := by
  induction receiver with
  | native | descriptor | functions | foreign => simp [isMemberWritable]
  | view delegate ih => simpa [isMemberWritable] using ih

@[simp]
theorem isMemberRemovable_contents (member : String) (receiver : Receiver) :
    receiver.isMemberRemovable world.contents member =
      receiver.isMemberRemovable world member := by
  induction receiver with
  | native | descriptor | functions | foreign => simp [isMemberRemovable]
  | view delegate ih => simpa [isMemberRemovable] using ih

@[simp]
theorem isMemberInsertable_contents (member : String) (receiver : Receiver) :
    receiver.isMemberInsertable world.contents member =
      receiver.isMemberInsertable world member := by
  induction receiver with
  | native | descriptor | functions | foreign => simp [isMemberInsertable]
  | view delegate ih => simpa [isMemberInsertable] using ih

@[simp]
theorem memberNames_contents (receiver : Receiver) :
    receiver.memberNames world.contents = receiver.memberNames world := by
  induction receiver with
  | native | descriptor | functions => simp [memberNames]
  | foreign value => cases h : value.members? <;> simp [memberNames, h]
  | view delegate ih => simpa [memberNames] using ih

@[simp]
theorem location?_contents (receiver : Receiver) :
    receiver.location? world.contents = receiver.location? world := by
  induction receiver with
  | native | descriptor | functions | foreign => simp [location?]
  | view delegate ih => simpa [location?] using ih

@[simp]
theorem hasLocation_contents (receiver : Receiver) :
    receiver.hasLocation world.contents = receiver.hasLocation world := by
  simp [hasLocation]

@[simp]
theorem location_contents (receiver : Receiver) :
    receiver.location world.contents = receiver.location world := by
  simp [location]

@[simp]
theorem viewDisplay_contents (receiver : Receiver) :
    receiver.viewDisplay world.contents = receiver.viewDisplay world := by
  simp [viewDisplay]

@[simp]
theorem display_contents (receiver : Receiver) :
    receiver.display world.contents = receiver.display world := by
  cases receiver <;> simp [display]

@[simp]
theorem debug_contents (receiver : Receiver) :
    receiver.debug world.contents = receiver.debug world := by
  induction receiver with
  | native | descriptor | functions | foreign => simp [debug]
  | view delegate ih => simp [debug, ih]

end Receiver

/-! ## Operators -/

namespace Operator

@[simp]
theorem describe_contents (world : World) : describe world.contents = describe world := by
  funext operand
  simp [describe]

@[simp]
theorem typeError_contents (world : World) (operation : Operation) (operands : List Receiver) :
    typeError world.contents operation operands = typeError world operation operands := by
  simp [typeError, typeErrorMessage]

@[simp]
theorem joinText_contents (world : World) (operand : Receiver) :
    joinText world.contents operand = joinText world operand := by
  simp [joinText]

@[simp]
theorem apply_contents (world : World) (operator : BinaryOperator) (operation : Operation)
    (left right : Receiver) :
    apply world.contents operator operation left right =
      apply world operator operation left right := by
  cases operator <;> simp [apply, add, sub, mul, lt, le, onIntegers]

end Operator

/-! ## Answers -/

namespace Session

namespace Shown

mutual

@[simp]
theorem ofValue_contents (world : World) : (value : Value) →
    ofValue world.contents value = ofValue world value
  | .null | .integer _ | .boolean _ | .text _ _ | .function _ | .object _ => by simp [ofValue]
  | .list _ items => by simp [ofValue, ofValues_contents world items]

@[simp]
theorem ofValues_contents (world : World) : (items : List Value) →
    ofValues world.contents items = ofValues world items
  | [] => rfl
  | item :: rest => by simp [ofValues, ofValue_contents world item, ofValues_contents world rest]

end

end Shown

@[simp]
theorem probe_contents (world : World) (receiver : Receiver) :
    probe world.contents receiver = probe world receiver := by
  simp [probe, flags]

@[simp]
theorem functionInfos_contents (world : World) (registry : RegistryId) :
    functionInfos world.contents registry = functionInfos world registry := by
  rw [functionInfos, World.functionsByName_contents]
  rfl

@[simp]
theorem shownResult_contents (world : World) (result : Except Fault Value) :
    shownResult world.contents result = shownResult world result := by
  cases result <;> simp [shownResult, Except.map]

@[simp]
theorem storeState_contents (world : World) (object : ObjectId) :
    storeState world.contents object = storeState world object := by
  have hdisplay : Value.display world.contents = Value.display world := by
    funext value
    exact Value.display_contents world value
  simp [storeState, hdisplay]

end Session

end GuestCore
