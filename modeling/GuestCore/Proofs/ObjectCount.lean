import GuestCore.Proofs.Descriptions
import GuestCore.Proofs.Identities
import Mathlib.Algebra.GroupWithZero.Nat

/-!
# Where Objects Come From

A session creates an object for each description of an object among its steps, and no others: calls,
call sites, lists and members only pass handles on.  So the number of objects can be read off the
steps.
-/

namespace GuestCore

namespace Session

/-! ## Descriptions of objects -/

namespace ValueSpec

mutual

/-- The number of objects that the value describes. -/
def objectCount : ValueSpec → Nat
  | null | boolean _ | integer _ | text _ | slot _ | function _ _ => 0
  | list items => objectCountAll items
  | object fields => objectCountFields fields + 1
  | nested _ item => objectCount item

def objectCountAll : List ValueSpec → Nat
  | [] => 0
  | spec :: rest => objectCount spec + objectCountAll rest

def objectCountFields : List (String × ValueSpec) → Nat
  | [] => 0
  | (_, spec) :: rest => objectCount spec + objectCountFields rest

end

end ValueSpec

/-- The number of objects in the constants of a body. -/
def bodyObjectCount (body : Body ValueSpec) : Nat :=
  (body.constants.map ValueSpec.objectCount).sum

def ForeignSpec.objectCount (spec : ForeignSpec) : Nat :=
  spec.native.elim 0 ValueSpec.objectCount + (spec.members.elim 0 ValueSpec.objectCount +
    (spec.elements.elim 0 ValueSpec.objectCount + spec.body.elim 0 bodyObjectCount))

def ReceiverSpec.objectCount : ReceiverSpec → Nat
  | slot _ | descriptor _ | functions _ => 0
  | view delegate => delegate.objectCount
  | foreign spec => spec.objectCount
  | value spec => spec.objectCount

def DefinitionSpec.objectCount (spec : DefinitionSpec) : Nat :=
  bodyObjectCount spec.body

def Message.objectCount : Message → Nat
  | writeMember _ content => content.objectCount
  | execute arguments _ => ValueSpec.objectCountAll arguments
  | describes candidate => candidate.objectCount
  | _ => 0

def StoreRequest.objectCount : StoreRequest → Nat
  | write content | getOrInsert content => content.objectCount
  | read | remove | get | contains => 0

def Callee.objectCount : Callee → Nat
  | named _ => 0
  | function spec | throughSite _ spec => spec.objectCount

/-- The number of objects that the step describes. -/
def Step.objectCount : Step → Nat
  | define _ receiver | probe receiver | display receiver | debug receiver | classify receiver =>
    receiver.objectCount
  | compareCells left right | sameFunction left right => left.objectCount + right.objectCount
  | operate _ _ left right | identical left right => left.objectCount + right.objectCount
  | message receiver sent => receiver.objectCount + sent.objectCount
  | store object _ request => object.objectCount + request.objectCount
  | typeError _ operands => (operands.map ReceiverSpec.objectCount).sum
  | register _ definition _ => definition.objectCount
  | batch _ entries => (entries.map fun entry ↦ entry.2.objectCount).sum
  | call callee arguments _ => ValueSpec.objectCountAll arguments + callee.objectCount
  | operation _ | location _ _ | makeFault _ _ | lookup _ _ _ | functions _ | registerBatch _ _
  | site _ | dispatcher _ => 0

/-! ## Demands for objects -/

namespace ValueSpec

mutual

theorem count_demands : (spec : ValueSpec) → spec.demands.count .object = spec.objectCount
  | null | boolean _ | integer _ | text _ | slot _ | function _ _ => by
    rw [demands, objectCount]
    rfl
  | list items => by
    rw [demands, objectCount, count_demandsAll items]
  | object fields => by
    rw [demands, objectCount, List.count_append, count_demandsFields fields]
    rfl
  | nested _ item => by
    rw [demands, objectCount, count_demands item]

theorem count_demandsAll : (specs : List ValueSpec) →
    (demandsAll specs).count .object = objectCountAll specs
  | [] => by
    rw [demandsAll, objectCountAll]
    rfl
  | spec :: rest => by
    rw [demandsAll, objectCountAll, List.count_append, count_demands spec, count_demandsAll rest]

theorem count_demandsFields : (fields : List (String × ValueSpec)) →
    (demandsFields fields).count .object = objectCountFields fields
  | [] => by
    rw [demandsFields, objectCountFields]
    rfl
  | (_, spec) :: rest => by
    rw [demandsFields, objectCountFields, List.count_append, count_demands spec,
      count_demandsFields rest]

end

end ValueSpec

/-- A list demands as many objects as its parts do. -/
theorem count_flatMap_demands {α : Type} {demands : α → List Demand} {count : α → Nat}
    (hcount : ∀ part, (demands part).count .object = count part) (parts : List α) :
    (parts.flatMap demands).count .object = (parts.map count).sum := by
  rw [List.count_flatMap]
  exact congrArg List.sum (List.map_congr_left fun part _ ↦ hcount part)

theorem count_elim_demands {α : Type} {demands : α → List Demand} {count : α → Nat}
    (hcount : ∀ part, (demands part).count .object = count part) (part : Option α) :
    (part.elim [] demands).count .object = part.elim 0 count := by
  cases part with
  | none => rfl
  | some part => exact hcount part

theorem count_bodyDemands (body : Body ValueSpec) :
    (bodyDemands body).count .object = bodyObjectCount body :=
  count_flatMap_demands ValueSpec.count_demands body.constants

theorem ForeignSpec.count_demands (spec : ForeignSpec) :
    spec.demands.count .object = spec.objectCount := by
  simp only [demands, objectCount, List.count_append, count_elim_demands ValueSpec.count_demands,
    count_elim_demands count_bodyDemands]

theorem ReceiverSpec.count_demands (spec : ReceiverSpec) :
    spec.demands.count .object = spec.objectCount := by
  induction spec with
  | slot | descriptor | functions => rfl
  | view _ ih => exact ih
  | foreign spec => exact spec.count_demands
  | value spec => exact spec.count_demands

theorem Message.count_demands (message : Message) :
    message.demands.count .object = message.objectCount := by
  cases message with
  | writeMember _ content => exact content.count_demands
  | execute arguments _ => exact ValueSpec.count_demandsAll arguments
  | describes candidate => exact candidate.count_demands
  | _ => rfl

theorem StoreRequest.count_demands (request : StoreRequest) :
    request.demands.count .object = request.objectCount := by
  cases request with
  | write content | getOrInsert content => exact content.count_demands
  | read | remove | get | contains => rfl

theorem Callee.count_demands (callee : Callee) :
    callee.demands.count .object = callee.objectCount := by
  cases callee with
  | named => rfl
  | function spec | throughSite _ spec => exact spec.count_demands

/-- A step demands the objects that it describes. -/
theorem Step.count_demands (step : Step) : step.demands.count .object = step.objectCount := by
  cases step with
  | define _ receiver | probe receiver | display receiver | debug receiver | classify receiver =>
    exact receiver.count_demands
  | compareCells left right | sameFunction left right | operate _ _ left right
  | identical left right =>
    rw [demands, objectCount, List.count_append, left.count_demands, right.count_demands]
  | message receiver sent =>
    rw [demands, objectCount, List.count_append, receiver.count_demands, sent.count_demands]
  | store object _ request =>
    rw [demands, objectCount, List.count_append, object.count_demands, request.count_demands]
  | typeError _ operands => exact count_flatMap_demands ReceiverSpec.count_demands operands
  | register _ definition _ => exact count_bodyDemands definition.body
  | lookup name create registry => cases create <;> rfl
  | batch _ entries =>
    exact count_flatMap_demands (fun entry ↦ count_bodyDemands entry.2.body) entries
  | call callee arguments _ =>
    rw [demands, objectCount, List.count_append, ValueSpec.count_demandsAll, callee.count_demands]
  | operation | location | makeFault | functions | registerBatch | site | dispatcher => rfl

end Session

/-! ## Objects that are created -/

namespace Effect

def isNewObject : Effect → Bool
  | newObject _ => true
  | _ => false

theorem size_objects_applyAll (effects : List Effect) (world : World) :
    (applyAll effects world).objects.size = world.objects.size + effects.countP isNewObject := by
  induction effects generalizing world with
  | nil => rfl
  | cons effect rest ih =>
    rw [applyAll_cons, ih, size_objects_apply, List.countP_cons]
    cases effect with
    | newObject => exact (Nat.add_assoc _ 1 _).trans (congrArg _ (Nat.add_comm 1 _))
    | _ => rfl

end Effect

theorem Action.IsQuiet.size_objects {α : Type} {action : Action α} (hquiet : action.IsQuiet)
    {world after : World} (hafter : (action world).world? = some after) :
    after.objects.size = world.objects.size := by
  obtain ⟨effects, hall, rfl⟩ := hquiet world after hafter
  rw [Effect.size_objects_applyAll, List.countP_eq_zero.mpr, Nat.add_zero]
  intro effect heffect hnew
  cases effect with
  | newObject => exact absurd (hall _ heffect) Bool.false_ne_true
  | _ => exact absurd hnew Bool.false_ne_true

namespace Session

variable {routing : Routing} {allowance : Nat} {state after : State}

/-- As many objects are created as were demanded. -/
theorem State.Meets.size_objects {demands : List Demand} (hmeets : state.Meets demands after) :
    after.world.objects.size = state.world.objects.size + demands.count .object := by
  obtain ⟨effects, htakes, hmet⟩ := hmeets
  have hdemanded : demands.count .object =
      (effects.filter Effect.isDemanded).countP Effect.isNewObject := by
    generalize effects.filter Effect.isDemanded = demanded at hmet
    induction hmet with
    | nil => rfl
    | cons hfirst _ ih =>
      rw [List.count_cons, List.countP_cons, ih]
      cases hfirst <;> rfl
  have hall : (effects.filter Effect.isDemanded).countP Effect.isNewObject =
      effects.countP Effect.isNewObject := by
    rw [List.countP_filter]
    refine List.countP_congr fun effect _ ↦ ?_
    cases effect <;> simp [Effect.isNewObject, Effect.isDemanded]
  rw [htakes.world_eq, Effect.size_objects_applyAll, hdemanded, hall]

/-- What a step asks in its own right creates no object. -/
theorem countP_ownEffects (step : Step) (world : World) (state after : State) :
    (step.ownEffects world.batchEffects state after).countP Effect.isNewObject = 0 := by
  refine List.countP_eq_zero.mpr fun effect heffect ↦ ?_
  obtain ⟨registry, name, definition, rfl⟩ | ⟨registry, batch, rfl⟩ := Step.mem_ownEffects heffect
  · exact Bool.false_ne_true
  · exact Bool.false_ne_true

/-- A step creates the objects that it describes, whatever it calls. -/
theorem size_objects_answerStep {step : Step} {answer : Answer}
    (hrun : (answerStep routing allowance step).run state = .ok (answer, after)) :
    after.world.objects.size = state.world.objects.size + step.objectCount := by
  rw [← step.count_demands]
  cases hprepare : prepareCall? step with
  | none =>
    obtain ⟨middle, hmeets, htakes⟩ := answerStep_completes hprepare hrun
    rw [htakes.world_eq, Effect.size_objects_applyAll, countP_ownEffects, hmeets.size_objects]
    rfl
  | some prepare =>
    obtain ⟨call, prepared, hready, hended, -⟩ := prepared_of_answerStep hprepare hrun
    rw [call.size_objects_perform routing allowance hended]
    exact (prepareCall_meets hprepare hready).size_objects

/-- The objects of a session are those that its steps describe. -/
theorem size_objects_runSteps {steps : List Step} {answers : List (Answer × List TraceRecord)}
    (hrun : (runSteps routing allowance steps).run state = .ok (answers, after)) :
    after.world.objects.size = state.world.objects.size + (steps.map Step.objectCount).sum := by
  induction steps generalizing state answers with
  | nil =>
    cases hrun
    rfl
  | cons step rest ih =>
    obtain ⟨answer, middle, others, hstep, hrest, -⟩ := runSteps_cons_ok hrun
    rw [ih hrest, size_objects_answerStep (answerStep_ok_of_runStep hstep).1, List.map_cons,
      List.sum_cons, Nat.add_assoc]

theorem size_objects_execute {config : Config} {steps : List Step}
    {answers : List (Answer × List TraceRecord)}
    (hrun : execute routing allowance config steps = .ok (answers, state)) :
    state.world.objects.size = (steps.map Step.objectCount).sum :=
  (size_objects_runSteps hrun).trans (Nat.zero_add _)

end Session

end GuestCore
