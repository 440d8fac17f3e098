import NamedQuery.Plan

/-!
# What a plan depends on

Of a schema, a plan depends on the structs and the named types.  Its interfaces
and imports may be exchanged, so a method is planned without regard to the other
methods of its interface.
-/

namespace NamedQuery

/-- Entities of one struct whose schemas declare the same types. -/
structure Entity.SameTypes (entity other : Entity) : Prop where
  struct : other.struct = entity.struct
  structs : other.schema.structs = entity.schema.structs
  namedTypes : other.schema.namedTypes = entity.schema.namedTypes

namespace Entity.SameTypes

variable {entity other : Entity} (same : entity.SameTypes other)

include same

/-! ## Types -/

theorem structOf?_eq (type : GoType) :
    other.schema.structOf? type = entity.schema.structOf? type := by
  have lookup : other.schema.struct? = entity.schema.struct? := by
    funext name
    rw [Schema.struct?, Schema.struct?, same.structs]
  rw [Schema.structOf?, Schema.structOf?, lookup]

theorem unfoldNames_eq (count : Nat) (type : GoType) :
    other.schema.unfoldNames count type = entity.schema.unfoldNames count type := by
  have lookup : other.schema.declared? = entity.schema.declared? := by
    have named : other.schema.namedType? = entity.schema.namedType? := by
      funext name
      rw [Schema.namedType?, Schema.namedType?, same.namedTypes]
    funext type
    rw [Schema.declared?, Schema.declared?, named]
  induction count generalizing type with
  | zero => rfl
  | succ count ih => simp only [Schema.unfoldNames, lookup, ih]

theorem underlying_eq (type : GoType) :
    other.schema.underlying type = entity.schema.underlying type := by
  rw [Schema.underlying, Schema.underlying, same.namedTypes, same.unfoldNames_eq]

theorem elementType?_eq (type : GoType) :
    other.schema.elementType? type = entity.schema.elementType? type := by
  rw [Schema.elementType?, Schema.elementType?, same.underlying_eq]

theorem isBoolean_eq (type : GoType) :
    other.schema.isBoolean type = entity.schema.isBoolean type := by
  rw [Schema.isBoolean, Schema.isBoolean, same.underlying_eq]

theorem isNumeric_eq (type : GoType) :
    other.schema.isNumeric type = entity.schema.isNumeric type := by
  rw [Schema.isNumeric, Schema.isNumeric, same.underlying_eq]

/-! ## Clauses -/

theorem resolve_eq (run : List String) : other.resolve run = entity.resolve run := by
  have after (struct : Struct) (start : String) (words : List String) :
      other.schema.pathAfter struct start words = entity.schema.pathAfter struct start words := by
    induction words generalizing struct start with
    | nil => rfl
    | cons word rest ih => simp only [Schema.pathAfter, same.structOf?_eq, ih]
  cases run with
  | nil => rfl
  | cons word rest => simp only [resolve, Schema.path?, same.struct, after]

theorem readSegments_eq (clause : String) (seen : Option Connective) (slot : Nat)
    (found : List Segment) :
    other.readSegments clause seen slot found = entity.readSegments clause seen slot found := by
  induction found generalizing seen slot with
  | nil => rfl
  | cons segment rest ih => simp only [readSegments, readPredicate, same.resolve_eq, ih]

theorem readQuery_eq (slot : Nat) (words : List String) :
    other.readQuery slot words = entity.readQuery slot words := by
  cases words with
  | nil => rfl
  | cons head rest => simp only [readQuery, readPredicates, same.readSegments_eq]

theorem readSorts_eq (words : List String) : other.readSorts words = entity.readSorts words := by
  rw [readSorts, readSorts]
  generalize runs Keyword.and.spelling words = found
  induction found with
  | nil => rfl
  | cons run rest ih => simp only [readSortKeys, same.resolve_eq, ih]

theorem readChange_eq (params : List GoType) (slot : Nat) (words : List String) :
    other.readChange params slot words = entity.readChange params slot words := by
  have assigned (clause : String) (slot : Nat) (found : List (List String)) :
      other.readAssignments clause slot found = entity.readAssignments clause slot found := by
    induction found generalizing slot with
    | nil => rfl
    | cons run rest ih => simp only [readAssignments, same.resolve_eq, ih]
  simp only [readChange, same.struct, assigned]

/-! ## Operations and checks -/

theorem readOperation_eq (params results : List GoType) (words : List String) :
    other.readOperation params results words = entity.readOperation params results words := by
  cases words with
  | nil => rfl
  | cons head rest =>
      simp only [readOperation, readInsert, readFind, readUpdate, readDelete, readCount,
        same.struct, same.readQuery_eq, same.readSorts_eq, same.readChange_eq]

theorem checkPredicate_eq (params : List GoType) :
    Plan.checkPredicate other.schema params = Plan.checkPredicate entity.schema params := by
  have fits (comparator : Comparator) (type : GoType) :
      Plan.comparatorFits other.schema comparator type =
        Plan.comparatorFits entity.schema comparator type := by
    simp only [Plan.comparatorFits, same.isBoolean_eq]
  funext predicate
  rw [Plan.checkPredicate, Plan.checkPredicate, fits]

theorem checkAssignment_eq (params : List GoType) :
    Plan.checkAssignment other.schema params = Plan.checkAssignment entity.schema params := by
  funext assignment
  simp only [Plan.checkAssignment, Plan.operatorFits, Assignment.argumentType?,
    same.isNumeric_eq, same.elementType?_eq]

theorem checkOperation_eq (params : List GoType) (operation : Operation) :
    Plan.checkOperation other params operation = Plan.checkOperation entity params operation := by
  cases operation with
  | update change mode query =>
      cases change <;> simp only [Plan.checkOperation, Plan.checkChange, Plan.checkQuery,
        same.struct, same.checkPredicate_eq, same.checkAssignment_eq]
  | _ => simp only [Plan.checkOperation, Plan.checkQuery, same.struct, same.checkPredicate_eq]

/-- Methods have the same plans under schemas that declare the same types. -/
theorem plan_eq (method : Signature) : other.plan method = entity.plan method := by
  simp only [plan, Plan.check, same.readOperation_eq, same.checkOperation_eq]

end Entity.SameTypes

end NamedQuery
