import NamedQuery.Plan
import NamedQuery.Proofs.Slots

/-!
# Signatures that agree with an operation

The types that an operation expects of its parameters, and the fields that its
comparators and update operators apply to.  For an operation that is read from a
name, the check of a plan passes exactly when the parameters are the context
followed by the expected types and every operator fits its field.
-/

namespace NamedQuery

/-! ## What an operation expects -/

/-- The types of the parameters of a predicate: the type of its field for each of
them, or a slice of it for `In` and `NotIn`. -/
def Predicate.expectedTypes (predicate : Predicate) : List GoType :=
  let type := predicate.field.leafType
  match predicate.comparator with
  | .oneOf | .noneOf => List.replicate predicate.arity (.slice type)
  | _ => List.replicate predicate.arity type

/-- The type of the parameter of an assignment: an element of the field for
`Push`, otherwise the field. -/
def Assignment.expectedType? (schema : Schema) (assignment : Assignment) : Option GoType :=
  match assignment.operator with
  | .push => schema.elementType? assignment.field.leafType
  | .set | .increment => some assignment.field.leafType

def Change.expectedTypes? (entity : Entity) : Change → Option (List GoType)
  | .model _ => some [entity.struct.pointerType]
  | .fields assignments => assignments.mapM (Assignment.expectedType? entity.schema)

/-- The types of the values that the operation stores. -/
def Operation.valueTypes? (entity : Entity) : Operation → Option (List GoType)
  | .insert .one => some [entity.struct.pointerType]
  | .insert .many => some [.slice entity.struct.pointerType]
  | .update change .. => change.expectedTypes? entity
  | .find .. | .delete .. | .count .. => some []

/-- The types of all parameters after the context, in the order of the slots. -/
def Operation.expectedTypes? (entity : Entity) (operation : Operation) :
    Option (List GoType) :=
  (operation.valueTypes? entity).map fun types =>
    types ++ operation.predicates.flatMap Predicate.expectedTypes

/-- The fields that are changed one by one. -/
def Change.assignments : Change → List Assignment
  | .model _ => []
  | .fields assignments => assignments

def Operation.assignments : Operation → List Assignment
  | .update change .. => change.assignments
  | .insert .. | .find .. | .delete .. | .count .. => []

/-- A predicate with `True` or `False` is on a boolean field. -/
def Predicate.Fits (schema : Schema) (predicate : Predicate) : Prop :=
  predicate.comparator = .isTrue ∨ predicate.comparator = .isFalse →
    schema.isBoolean predicate.field.leafType = true

/-- `Push` is on a slice, and `Inc` on a number. -/
@[mk_iff]
structure Assignment.Fits (schema : Schema) (assignment : Assignment) : Prop where
  pushed : assignment.operator = .push →
    (schema.elementType? assignment.field.leafType).isSome = true
  incremented : assignment.operator = .increment →
    schema.isNumeric assignment.field.leafType = true

/-- Every comparator and every update operator fits its field. -/
@[mk_iff]
structure Operation.Fits (schema : Schema) (operation : Operation) : Prop where
  predicates : ∀ predicate ∈ operation.predicates, predicate.Fits schema
  assignments : ∀ assignment ∈ operation.assignments, assignment.Fits schema

instance (schema : Schema) (predicate : Predicate) : Decidable (predicate.Fits schema) :=
  inferInstanceAs (Decidable (_ → _))

instance (schema : Schema) (assignment : Assignment) : Decidable (assignment.Fits schema) :=
  decidable_of_iff _ (Assignment.fits_iff schema assignment).symm

instance (schema : Schema) (operation : Operation) : Decidable (operation.Fits schema) :=
  decidable_of_iff _ (Operation.fits_iff schema operation).symm

@[simp]
theorem Predicate.length_expectedTypes (predicate : Predicate) :
    predicate.expectedTypes.length = predicate.arity := by
  unfold Predicate.expectedTypes
  dsimp only
  split <;> exact List.length_replicate

theorem Predicate.expectedTypes_eq (predicate : Predicate) :
    predicate.argumentTypes = predicate.expectedTypes := by
  rcases predicate with ⟨field, comparator, slot⟩
  cases comparator <;> rfl

theorem Assignment.expectedType?_eq (schema : Schema) (assignment : Assignment) :
    assignment.argumentType? schema = assignment.expectedType? schema := by
  rcases assignment with ⟨field, operator, slot⟩
  cases operator <;> rfl

theorem mapM_eq_some_iff {α β : Type} {lookup? : α → Option β} {items : List α}
    {values : List β} :
    items.mapM lookup? = some values ↔
      List.Forall₂ (fun item value => lookup? item = some value) items values := by
  induction items generalizing values with
  | nil =>
      rw [List.forall₂_nil_left_iff]
      exact ⟨fun found => by cases found; rfl, fun same => by rw [same]; rfl⟩
  | cons item rest ih =>
      rw [List.mapM_cons, List.forall₂_cons_left_iff]
      constructor
      · intro found
        obtain ⟨value, first, afterFirst⟩ := Option.bind_eq_some_iff.mp found
        obtain ⟨others, later, same⟩ := Option.bind_eq_some_iff.mp afterFirst
        cases same
        exact ⟨value, others, first, ih.mp later, rfl⟩
      · rintro ⟨value, others, first, later, rfl⟩
        rw [first, ih.mpr later]
        rfl

/-- Items are all mapped when each of them is. -/
theorem mapM_eq_ok_iff {ε α β : Type} {step : α → Except ε β} {items : List α}
    {values : List β} :
    items.mapM step = .ok values ↔
      List.Forall₂ (fun item value => step item = .ok value) items values := by
  induction items generalizing values with
  | nil =>
      rw [List.forall₂_nil_left_iff]
      exact ⟨fun done => by cases done; rfl, fun same => by rw [same]; rfl⟩
  | cons item rest ih =>
      rw [List.mapM_cons, List.forall₂_cons_left_iff]
      constructor
      · intro done
        obtain ⟨value, first, afterFirst⟩ := bind_eq_ok_iff.mp done
        obtain ⟨others, later, same⟩ := bind_eq_ok_iff.mp afterFirst
        cases same
        exact ⟨value, others, first, ih.mp later, rfl⟩
      · rintro ⟨value, others, first, later, rfl⟩
        rw [first, ih.mpr later]
        rfl

/-- A step that can only give the view of its item maps the items to their views. -/
theorem eq_map_of_mapM {ε α β : Type} {step : α → Except ε β} {view : α → β} {items : List α}
    {values : List β} (done : items.mapM step = .ok values)
    (same : ∀ item value, step item = .ok value → value = view item) :
    values = items.map view := by
  have each := (mapM_eq_ok_iff.mp done).imp fun item value => (same item value ·)
  rw [← List.forall₂_eq_eq_eq, List.forall₂_map_right_iff]
  exact each.flip

/-! ## Parameters in a row -/

theorem cons_prefix_drop_iff {params rest : List GoType} {position : Nat} {type : GoType} :
    type :: rest <+: params.drop position ↔
      params[position]? = some type ∧ rest <+: params.drop (position + 1) := by
  by_cases inside : position < params.length
  · rw [List.drop_eq_getElem_cons inside, List.cons_prefix_cons, List.getElem?_eq_getElem inside,
      Option.some.injEq, eq_comm]
  · rw [List.drop_eq_nil_of_le (by omega), List.getElem?_eq_none (by omega)]
    simp

theorem append_prefix_drop_iff {params first rest : List GoType} {position : Nat} :
    first ++ rest <+: params.drop position ↔
      first <+: params.drop position ∧ rest <+: params.drop (position + first.length) := by
  induction first generalizing position with
  | nil => simp
  | cons type others ih =>
      rw [List.cons_append, cons_prefix_drop_iff, cons_prefix_drop_iff, ih, List.length_cons,
        Nat.add_assoc, Nat.add_comm 1, and_assoc]

theorem checkAll_eq_ok_iff {α ε : Type} {check : α → Except ε Unit} {items : List α} :
    checkAll check items = .ok () ↔ ∀ item ∈ items, check item = .ok () := by
  induction items with
  | nil => simp [checkAll]
  | cons item rest ih =>
      rw [checkAll, List.forall_mem_cons, ← ih]
      cases check item <;> simp

namespace Plan

theorem checkParam_eq_ok_iff {params : List GoType} {position : Nat} {expected : GoType} :
    checkParam params position expected = .ok () ↔ params[position]? = some expected := by
  unfold checkParam
  cases params[position]? with
  | none => simp
  | some found => by_cases same : found = expected <;> simp [same]

theorem checkParams_eq_ok_iff {params : List GoType} {position : Nat} {types : List GoType} :
    checkParams params position types = .ok () ↔ types <+: params.drop position := by
  induction types generalizing position with
  | nil => simp [checkParams]
  | cons expected rest ih =>
      rw [checkParams, cons_prefix_drop_iff, ← checkParam_eq_ok_iff, ← ih]
      cases checkParam params position expected <;> simp

/-! ## Operators on fields -/

theorem checkPredicate_eq_ok_iff {schema : Schema} {params : List GoType}
    {predicate : Predicate} :
    checkPredicate schema params predicate = .ok () ↔
      predicate.Fits schema ∧ predicate.expectedTypes <+: params.drop predicate.slot := by
  rw [← Predicate.expectedTypes_eq, ← checkParams_eq_ok_iff]
  have fits : comparatorFits schema predicate.comparator predicate.field.leafType = true ↔
      predicate.Fits schema := by
    unfold Predicate.Fits
    cases predicate.comparator <;> simp [comparatorFits, Comparator.fieldRule]
  rw [checkPredicate, ← fits]
  split
  · next fitting => simp [fitting]
  · next unfit => simp [unfit]

theorem checkAssignment_eq_ok_iff {schema : Schema} {params : List GoType}
    {assignment : Assignment} :
    checkAssignment schema params assignment = .ok () ↔
      assignment.Fits schema ∧ ∃ type, assignment.expectedType? schema = some type ∧
        params[assignment.slot]? = some type := by
  have fits : operatorFits schema assignment.operator assignment.field.leafType = true ↔
      assignment.Fits schema := by
    constructor
    · intro fitting
      exact ⟨fun push => by simpa [push, operatorFits, UpdateOperator.operandRule] using fitting,
        fun increment => by
          simpa [increment, operatorFits, UpdateOperator.operandRule] using fitting⟩
    · rintro ⟨pushed, incremented⟩
      cases chosen : assignment.operator with
      | set => rfl
      | push => exact pushed chosen
      | increment => exact incremented chosen
  rw [checkAssignment, Assignment.expectedType?_eq, ← fits]
  cases operatorFits schema assignment.operator assignment.field.leafType with
  | false => simp
  | true =>
      cases assignment.expectedType? schema with
      | none => simp
      | some type => simp [checkParam_eq_ok_iff]

/-! ## Clauses -/

/-- Predicates that are numbered from a position on expect their types in a row
from there. -/
theorem checkQuery_eq_ok_iff {schema : Schema} {params : List GoType} {query : Query}
    {slot : Nat} (numbered : Entity.NumberedFrom slot query.predicates) :
    checkQuery schema params query = .ok () ↔
      (∀ predicate ∈ query.predicates, predicate.Fits schema) ∧
        query.predicates.flatMap Predicate.expectedTypes <+: params.drop slot := by
  rw [checkQuery, checkAll_eq_ok_iff]
  generalize query.predicates = predicates at numbered
  induction predicates generalizing slot with
  | nil => simp
  | cons predicate rest ih =>
      obtain ⟨placed, later⟩ := numbered
      rw [List.forall_mem_cons, List.forall_mem_cons, List.flatMap_cons, append_prefix_drop_iff,
        ih later, checkPredicate_eq_ok_iff, placed, Predicate.length_expectedTypes]
      exact and_and_and_comm

/-- Assignments with consecutive positions expect their types in a row. -/
theorem checkAssignments_eq_ok_iff {schema : Schema} {params : List GoType}
    {assignments : List Assignment} {slot : Nat}
    (numbered : assignments.map Assignment.slot = List.range' slot assignments.length) :
    checkAll (checkAssignment schema params) assignments = .ok () ↔
      (∀ assignment ∈ assignments, assignment.Fits schema) ∧
        ∃ types, assignments.mapM (Assignment.expectedType? schema) = some types ∧
          types <+: params.drop slot := by
  simp only [checkAll_eq_ok_iff, mapM_eq_some_iff]
  induction assignments generalizing slot with
  | nil => simp
  | cons assignment rest ih =>
      rw [List.map_cons, List.length_cons, List.range'_succ] at numbered
      obtain ⟨placed, later⟩ := List.cons.inj numbered
      rw [List.forall_mem_cons, List.forall_mem_cons, ih later, checkAssignment_eq_ok_iff, placed]
      constructor
      · rintro ⟨⟨fits, type, expected, found⟩, others, types, all, row⟩
        exact ⟨⟨fits, others⟩, type :: types, .cons expected all,
          cons_prefix_drop_iff.mpr ⟨found, row⟩⟩
      · rintro ⟨⟨fits, others⟩, all, expected, row⟩
        cases expected with
        | cons first remaining =>
            obtain ⟨found, after⟩ := cons_prefix_drop_iff.mp row
            exact ⟨⟨fits, _, first, found⟩, others, _, remaining, after⟩

theorem checkChange_eq_ok_iff {entity : Entity} {params : List GoType} {change : Change}
    {slot : Nat} (taken : change.slots = List.range' slot change.arity) :
    checkChange entity params change = .ok () ↔
      (∀ assignment ∈ change.assignments, assignment.Fits entity.schema) ∧
        ∃ types, change.expectedTypes? entity = some types ∧ types <+: params.drop slot := by
  cases change with
  | model position =>
      have placed : position = slot := by simpa [Change.slots, Change.arity] using taken
      simp [checkChange, checkParam_eq_ok_iff, Change.assignments, Change.expectedTypes?, placed,
        cons_prefix_drop_iff]
  | fields assignments => exact checkAssignments_eq_ok_iff taken

end Plan

/-! ## Counting -/

theorem Change.length_slots (change : Change) : change.slots.length = change.arity := by
  cases change with
  | model slot => rfl
  | fields assignments => exact List.length_map Assignment.slot

theorem Change.length_expectedTypes {entity : Entity} {change : Change} {types : List GoType}
    (expected : change.expectedTypes? entity = some types) : types.length = change.arity := by
  cases change with
  | model slot =>
      cases expected
      rfl
  | fields assignments => exact (mapM_eq_some_iff.mp expected).length_eq.symm

theorem Query.length_expectedTypes (query : Query) :
    (query.predicates.flatMap Predicate.expectedTypes).length = query.arity := by
  unfold Query.arity
  induction query.predicates with
  | nil => rfl
  | cons predicate rest ih =>
      rw [List.flatMap_cons, List.length_append, ih, Predicate.length_expectedTypes]
      rfl

theorem Operation.length_expectedTypes {entity : Entity} {operation : Operation}
    {types : List GoType} (expected : operation.expectedTypes? entity = some types) :
    types.length = operation.arity := by
  obtain ⟨values, stored, rfl⟩ := Option.map_eq_some_iff.mp expected
  rw [List.length_append]
  cases operation with
  | insert mode => cases mode <;> cases stored <;> rfl
  | find mode query sorts limit =>
      cases stored
      exact (Nat.zero_add _).trans query.length_expectedTypes
  | update change mode query =>
      rw [Change.length_expectedTypes stored]
      exact congrArg (change.arity + ·) query.length_expectedTypes
  | delete mode query =>
      cases stored
      exact (Nat.zero_add _).trans query.length_expectedTypes
  | count query =>
      cases stored
      exact (Nat.zero_add _).trans query.length_expectedTypes

/-! ## Whole signatures -/

namespace Plan

/-- An operation that stores no values only has its query checked. -/
theorem checkQuery_eq_ok_iff_operation {entity : Entity} {params : List GoType}
    {operation : Operation} {query : Query} (queried : operation.predicates = query.predicates)
    (stored : operation.valueTypes? entity = some []) (unassigned : operation.assignments = [])
    (numbered : Entity.NumberedFrom 1 operation.predicates) :
    checkQuery entity.schema params query = .ok () ↔
      operation.Fits entity.schema ∧
        ∃ types, operation.expectedTypes? entity = some types ∧ types <+: params.drop 1 := by
  rw [queried] at numbered
  rw [checkQuery_eq_ok_iff numbered, ← queried]
  constructor
  · rintro ⟨fits, row⟩
    refine ⟨⟨fits, by simp [unassigned]⟩, _, ?_, row⟩
    simp [Operation.expectedTypes?, stored]
  · rintro ⟨fits, types, expected, row⟩
    simp only [Operation.expectedTypes?, stored, Option.map_some, List.nil_append,
      Option.some.injEq] at expected
    rw [← expected] at row
    exact ⟨fits.predicates, row⟩

theorem checkInsert_eq_ok_iff {entity : Entity} {params : List GoType} {mode : Mode} :
    checkParam params Entity.firstSlot (insertedType entity.struct mode) = .ok () ↔
      (Operation.insert mode).Fits entity.schema ∧
        ∃ types, (Operation.insert mode).expectedTypes? entity = some types ∧
          types <+: params.drop 1 := by
  have fits : (Operation.insert mode).Fits entity.schema :=
    ⟨by simp [Operation.predicates, Operation.query?], by simp [Operation.assignments]⟩
  have expected : (Operation.insert mode).expectedTypes? entity =
      some [insertedType entity.struct mode] := by
    cases mode <;> rfl
  rw [checkParam_eq_ok_iff, expected]
  constructor
  · intro found
    exact ⟨fits, _, rfl, cons_prefix_drop_iff.mpr ⟨found, List.nil_prefix⟩⟩
  · rintro ⟨-, types, same, row⟩
    cases same
    exact (cons_prefix_drop_iff.mp row).1

/-- An update has its change checked, and then its query. -/
theorem checkUpdate_eq_ok_iff {entity : Entity} {params : List GoType} {change : Change}
    {mode : Mode} {query : Query} (taken : change.slots = List.range' 1 change.arity)
    (numbered : Entity.NumberedFrom (1 + change.arity) query.predicates) :
    checkOperation entity params (.update change mode query) = .ok () ↔
      (Operation.update change mode query).Fits entity.schema ∧
        ∃ types, (Operation.update change mode query).expectedTypes? entity = some types ∧
          types <+: params.drop 1 := by
  have steps : checkOperation entity params (.update change mode query) = .ok () ↔
      checkChange entity params change = .ok () ∧
        checkQuery entity.schema params query = .ok () := by
    rw [checkOperation]
    cases checkChange entity params change <;> simp
  rw [steps, checkChange_eq_ok_iff taken, checkQuery_eq_ok_iff numbered]
  constructor
  · rintro ⟨⟨assigned, types, expected, row⟩, compared, later⟩
    refine ⟨⟨compared, assigned⟩,
      types ++ query.predicates.flatMap Predicate.expectedTypes, ?_, ?_⟩
    · rw [Operation.expectedTypes?, Operation.valueTypes?, expected]
      rfl
    · rw [append_prefix_drop_iff, Change.length_expectedTypes expected]
      exact ⟨row, later⟩
  · rintro ⟨⟨compared, assigned⟩, all, expected, row⟩
    obtain ⟨types, stored, rfl⟩ := Option.map_eq_some_iff.mp expected
    obtain ⟨first, later⟩ := append_prefix_drop_iff.mp row
    rw [Change.length_expectedTypes stored] at later
    exact ⟨⟨assigned, types, stored, first⟩, compared, later⟩

/-- The operators of a numbered operation fit and its parameters are in place
exactly when the check of the operation passes. -/
theorem checkOperation_eq_ok_iff {entity : Entity} {params : List GoType}
    {operation : Operation} (numbered : Entity.Numbered operation) :
    checkOperation entity params operation = .ok () ↔
      operation.Fits entity.schema ∧
        ∃ types, operation.expectedTypes? entity = some types ∧ types <+: params.drop 1 := by
  cases operation with
  | insert mode => exact checkInsert_eq_ok_iff
  | find mode query sorts limit =>
      exact checkQuery_eq_ok_iff_operation rfl rfl rfl numbered.predicates
  | delete mode query => exact checkQuery_eq_ok_iff_operation rfl rfl rfl numbered.predicates
  | count query => exact checkQuery_eq_ok_iff_operation rfl rfl rfl numbered.predicates
  | update change mode query =>
      have taken : change.slots = List.range' 1 change.arity := by
        rw [← change.length_slots]
        exact numbered.values
      have positions : Entity.NumberedFrom (1 + change.arity) query.predicates := by
        rw [← change.length_slots]
        exact numbered.predicates
      exact checkUpdate_eq_ok_iff taken positions

theorem checkContext_eq_ok_iff {params : List GoType} :
    checkContext params = .ok () ↔ params.head? = some GoType.context := by
  unfold checkContext
  split <;> simp_all

theorem check_eq_ok_iff_steps {entity : Entity} {plan : Plan} :
    plan.check entity = .ok () ↔
      plan.signature.params.head? = some GoType.context ∧
        1 + plan.operation.arity = plan.signature.params.length ∧
        checkOperation entity plan.signature.params plan.operation = .ok () := by
  rw [check, bind_eq_ok_iff, ← checkContext_eq_ok_iff]
  constructor
  · rintro ⟨⟨⟩, first, rest⟩
    split at rest
    · next count => exact ⟨first, count, rest⟩
    · cases rest
  · rintro ⟨first, count, rest⟩
    exact ⟨(), first, by rw [if_pos count]; exact rest⟩

/-- The query of a plan that passes the check passes it too. -/
theorem checkQuery_of_check {entity : Entity} {plan : Plan} {query : Query}
    (checked : plan.check entity = .ok ()) (queried : plan.operation.query? = some query) :
    checkQuery entity.schema plan.signature.params query = .ok () := by
  obtain ⟨-, -, passed⟩ := check_eq_ok_iff_steps.mp checked
  rcases plan with ⟨signature, operation⟩
  cases operation with
  | insert mode => cases queried
  | find mode found sorts limit =>
      cases queried
      exact passed
  | delete mode found =>
      cases queried
      exact passed
  | count found =>
      cases queried
      exact passed
  | update change mode found =>
      cases queried
      simp only [checkOperation] at passed
      split at passed
      · exact passed
      · cases passed

/-- Every position that a predicate of a checked plan takes is that of a parameter. -/
theorem lt_length_of_check {entity : Entity} {plan : Plan} {query : Query}
    (checked : plan.check entity = .ok ()) (queried : plan.operation.query? = some query)
    {predicate : Predicate} (member : predicate ∈ query.predicates) {offset : Nat}
    (taken : offset < predicate.arity) :
    predicate.slot + offset < plan.signature.params.length := by
  have each := checkAll_eq_ok_iff.mp (checkQuery_of_check checked queried) predicate member
  have row := (checkPredicate_eq_ok_iff.mp each).2.length_le
  rw [predicate.length_expectedTypes, List.length_drop] at row
  omega

/-- A plan of a numbered operation passes the check exactly when its parameters
are the context and the expected types, and every operator fits its field. -/
theorem check_eq_ok_iff {entity : Entity} {plan : Plan}
    (numbered : Entity.Numbered plan.operation) :
    plan.check entity = .ok () ↔
      (∃ types, plan.operation.expectedTypes? entity = some types ∧
        plan.signature.params = GoType.context :: types) ∧
      plan.operation.Fits entity.schema := by
  rw [check_eq_ok_iff_steps, checkOperation_eq_ok_iff numbered]
  constructor
  · rintro ⟨first, count, fits, types, expected, row⟩
    refine ⟨⟨types, expected, ?_⟩, fits⟩
    rw [← Operation.length_expectedTypes expected] at count
    cases given : plan.signature.params with
    | nil => simp [given] at count
    | cons context rest =>
        rw [given] at first count row
        have length : types.length = rest.length := by
          simpa [Nat.add_comm] using count
        rw [List.head?_cons, Option.some.injEq] at first
        rw [first, List.IsPrefix.eq_of_length row length]
        rfl
  · rintro ⟨⟨types, expected, params⟩, fits⟩
    rw [params, ← Operation.length_expectedTypes expected]
    exact ⟨rfl, Nat.add_comm 1 _, fits, types, expected, List.prefix_rfl⟩

end Plan

/-- A planned method keeps its signature, its name is read as the operation of the
plan, and the plan passes the check. -/
theorem Entity.read_of_plan {entity : Entity} {method : Signature} {plan : Plan}
    (planned : entity.plan method = .ok plan) :
    plan.signature = method ∧
      entity.readOperation method.params method.results (words method.name) =
        .ok plan.operation ∧
      plan.check entity = .ok () := by
  obtain ⟨_, -, afterContext⟩ := bind_eq_ok_iff.mp planned
  obtain ⟨operation, read, afterRead⟩ := bind_eq_ok_iff.mp afterContext
  obtain ⟨_, checked, done⟩ := bind_eq_ok_iff.mp afterRead
  cases done
  exact ⟨rfl, read, checked⟩

/-- An operation that is read from the name of a method refers to the positions
from 1 on, without gap and overlap: those of its values, then those of each
predicate, which starts at the next free position even when it takes none.  The
method passes the check exactly when its parameters are the context followed by
the expected types of these positions, and every operator fits its field. -/
theorem Entity.parameters_of_readOperation {entity : Entity} {method : Signature}
    {operation : Operation}
    (read : entity.readOperation method.params method.results (words method.name) =
      .ok operation) :
    operation.slots = List.range' 1 operation.slots.length ∧
    (∀ before predicate after, operation.predicates = before ++ predicate :: after →
      predicate.slot =
        1 + (operation.valueSlots ++ before.flatMap Predicate.slots).length) ∧
    (Plan.check entity ⟨method, operation⟩ = .ok () ↔
      (∃ types, operation.expectedTypes? entity = some types ∧
        method.params = GoType.context :: types) ∧
      operation.Fits entity.schema) := by
  have numbered := (reading_of_readOperation read).numbered
  exact ⟨numbered.slots_eq, fun _ _ _ parts => numbered.slot_eq parts,
    Plan.check_eq_ok_iff numbered⟩

namespace Users

/-- A method that changes two fields of the users that two predicates choose. -/
def update : Signature :=
  ⟨"UpdateAgeIncAndTagsPushByActiveTrueAndAgeBetween",
    [.context, .named "int", .named "string", .named "int", .named "int"],
    [.named "bool", .error]⟩

def updateOperation : Operation :=
  .update (.fields [⟨⟨age, []⟩, .increment, 1⟩, ⟨⟨tags, []⟩, .push, 2⟩]) .one
    ⟨some .and, [⟨⟨active, []⟩, .isTrue, 3⟩, ⟨⟨age, []⟩, .between, 3⟩]⟩

theorem update_parameters :
    entity.readOperation update.params update.results (words update.name) =
        .ok updateOperation ∧
      updateOperation.slots = List.range' 1 4 ∧
      Plan.check entity ⟨update, updateOperation⟩ = .ok () := by
  have read : entity.readOperation update.params update.results (words update.name) =
      .ok updateOperation := by
    have cut : words update.name = ["Update", "Age", "Inc", "And", "Tags", "Push", "By",
        "Active", "True", "And", "Age", "Between"] := by decide +kernel
    rw [cut]
    rfl
  obtain ⟨slots, -, checked⟩ := Entity.parameters_of_readOperation read
  exact ⟨read, slots, checked.mpr ⟨⟨_, rfl, rfl⟩, by decide⟩⟩

end Users

end NamedQuery
