import NamedQuery.Mongo.Body
import NamedQuery.Proofs.FieldPath

/-!
# Fields without a stored name

The filter, the sort document and the update document of an operation refer to fields
by their names in stored documents.  The body of an operation is made exactly when
every field on every path has such a name.  Otherwise the first field without one is
reported, in the order of the predicates and then of the sort keys or assignments,
each path from its root.
-/

namespace NamedQuery

/-! ## The fault of a computation -/

section Faults

variable {ε α β : Type}

/-- The fault that a computation ends with. -/
def faultOf? : Except ε α → Option ε
  | .error fault => some fault
  | .ok _ => none

theorem faultOf?_eq_some_iff {result : Except ε α} {fault : ε} :
    faultOf? result = some fault ↔ result = .error fault := by
  cases result <;> simp [faultOf?]

theorem faultOf?_eq_none_iff {result : Except ε α} :
    faultOf? result = none ↔ ∃ value, result = .ok value := by
  cases result <;> simp [faultOf?]

@[simp]
theorem faultOf?_map (result : Except ε α) (change : α → β) :
    faultOf? (result.map change) = faultOf? result := by
  cases result <;> rfl

/-- What comes second fails only where the first succeeds. -/
theorem faultOf?_bind {first : Except ε α} {next : α → Except ε β} {later : Option ε}
    (same : ∀ value, faultOf? (next value) = later) :
    faultOf? (first >>= next) = (faultOf? first).or later := by
  cases first with
  | error fault => rfl
  | ok value => exact same value

@[simp]
theorem faultOf?_bind_ok (first : Except ε α) (build : α → β) :
    faultOf? (first >>= fun value => .ok (build value)) = faultOf? first := by
  cases first <;> rfl

theorem faultOf?_mapM (step : α → Except ε β) (items : List α) :
    faultOf? (items.mapM step) = items.findSome? fun item => faultOf? (step item) := by
  induction items with
  | nil => rfl
  | cons item rest ih =>
      have others (value : β) : faultOf? (rest.mapM step >>= fun values =>
          .ok (value :: values)) = rest.findSome? fun item => faultOf? (step item) := by
        rw [faultOf?_bind_ok, ih]
      rw [List.mapM_cons, List.findSome?_cons]
      refine (faultOf?_bind others).trans ?_
      cases faultOf? (step item) <;> rfl

end Faults

/-! ## The first field without a name -/

/-- The fields on the paths of the predicates, in order. -/
def Query.pathFields (query : Query) : List Field :=
  query.predicates.flatMap fun predicate => predicate.field.fields

/-- The fields on the paths that a change assigns to, in order. -/
def Change.pathFields : Change → List Field
  | .model _ => []
  | .fields assignments => assignments.flatMap fun assignment => assignment.field.fields

/-- The fields on all paths of an operation: first those of its query, then those of its
sort keys or of its change. -/
def Operation.pathFields : Operation → List Field
  | .insert _ => []
  | .find _ query sorts _ => query.pathFields ++ sorts.flatMap fun key => key.field.fields
  | .update change _ query => query.pathFields ++ change.pathFields
  | .delete _ query | .count query => query.pathFields

namespace Mongo

/-- The fault of the first field without a stored name. -/
def missing? (fields : List Field) : Option DocumentError :=
  (fields.find? fun field => field.bsonName?.isNone).map fun field => .missingTag field.name

theorem missing?_append (first second : List Field) :
    missing? (first ++ second) = (missing? first).or (missing? second) := by
  rw [missing?, List.find?_append, Option.map_or]
  rfl

theorem missing?_flatMap {α : Type} (items : List α) (fieldsOf : α → List Field) :
    missing? (items.flatMap fieldsOf) = items.findSome? fun item => missing? (fieldsOf item) := by
  rw [missing?, List.find?_flatMap, List.map_findSome?]
  rfl

theorem missing?_eq_none_iff {fields : List Field} :
    missing? fields = none ↔ ∀ field ∈ fields, field.bsonName?.isSome := by
  simp [missing?, Option.ne_none_iff_isSome]

theorem missing?_eq_some_iff {fields : List Field} {fault : DocumentError} :
    missing? fields = some fault ↔
      ∃ before field after, fields = before ++ field :: after ∧
        (∀ earlier ∈ before, earlier.bsonName?.isSome) ∧ field.bsonName? = none ∧
        fault = .missingTag field.name := by
  rw [missing?, Option.map_eq_some_iff]
  constructor
  · rintro ⟨field, found, rfl⟩
    obtain ⟨unnamed, before, after, cut, named⟩ := List.find?_eq_some_iff_append.mp found
    exact ⟨before, field, after, cut, by simpa using named, by simpa using unnamed, rfl⟩
  · rintro ⟨before, field, after, cut, named, unnamed, rfl⟩
    refine ⟨field, List.find?_eq_some_iff_append.mpr ⟨by simp [unnamed], before, after, cut, ?_⟩,
      rfl⟩
    simpa using named

/-! ## Documents -/

theorem faultOf?_bsonNames (fields : List Field) :
    faultOf? (bsonNames fields) = missing? fields := by
  induction fields with
  | nil => rfl
  | cons field rest ih =>
      cases named : field.bsonName? with
      | none => simp [bsonNames, named, missing?, faultOf?]
      | some name =>
          have skipped : missing? (field :: rest) = missing? rest := by simp [missing?, named]
          rw [skipped, ← ih, bsonNames, named]
          cases bsonNames rest <;> rfl

@[simp]
theorem faultOf?_bsonPath (path : FieldPath) :
    faultOf? (bsonPath path) = missing? path.fields := by
  rw [bsonPath, faultOf?_map, faultOf?_bsonNames]

theorem faultOf?_filter (query : Query) : faultOf? (filter query) = missing? query.pathFields := by
  rw [filter, faultOf?_map, faultOf?_mapM, Query.pathFields, missing?_flatMap]
  simp [condition]

theorem faultOf?_sortDocument (keys : List SortKey) :
    faultOf? (sortDocument keys) = missing? (keys.flatMap fun key => key.field.fields) := by
  rw [sortDocument, faultOf?_map, faultOf?_mapM, missing?_flatMap]
  simp [sortEntry]

theorem faultOf?_updateDocument (change : Change) :
    faultOf? (updateDocument change) = missing? change.pathFields := by
  cases change with
  | model slot => rfl
  | fields assignments =>
      rw [updateDocument, faultOf?_map, faultOf?_mapM, Change.pathFields, missing?_flatMap]
      simp [assignmentEntry]

theorem faultOf?_findOptions (mode : Mode) (sorts : List SortKey) (limit : Option Nat) :
    faultOf? (findOptions mode sorts limit) =
      missing? (sorts.flatMap fun key => key.field.fields) := by
  cases sorts with
  | nil => cases mode <;> cases limit <;> rfl
  | cons key rest =>
      rw [← faultOf?_sortDocument]
      simp [findOptions]

/-! ## Bodies -/

theorem faultOf?_body (entity : String) (operation : Operation) :
    faultOf? (body entity operation) = missing? operation.pathFields := by
  cases operation with
  | insert mode => rfl
  | find mode query sorts limit =>
      rw [Operation.pathFields, missing?_append, ← faultOf?_filter,
        ← faultOf?_findOptions mode sorts limit]
      exact faultOf?_bind fun document => faultOf?_bind_ok _ _
  | update change mode query =>
      rw [Operation.pathFields, missing?_append, ← faultOf?_filter, ← faultOf?_updateDocument]
      exact faultOf?_bind fun document => faultOf?_bind_ok _ _
  | delete mode query => exact (faultOf?_bind_ok _ _).trans (faultOf?_filter query)
  | count query => exact (faultOf?_bind_ok _ _).trans (faultOf?_filter query)

/-- An operation has a body exactly when every field on its paths has a stored name, and
otherwise the first field without one is reported. -/
theorem body_fails_at_first_missing (entity : String) (operation : Operation) :
    ((∃ statements, body entity operation = .ok statements) ↔
      ∀ field ∈ operation.pathFields, field.bsonName?.isSome) ∧
    ∀ fault, body entity operation = .error fault ↔
      ∃ before field after, operation.pathFields = before ++ field :: after ∧
        (∀ earlier ∈ before, earlier.bsonName?.isSome) ∧ field.bsonName? = none ∧
        fault = .missingTag field.name := by
  refine ⟨?_, fun fault => ?_⟩
  · rw [← faultOf?_eq_none_iff, faultOf?_body, missing?_eq_none_iff]
  · rw [← faultOf?_eq_some_iff, faultOf?_body, missing?_eq_some_iff]

-- The filter is made, but the leaf of the sort key has no stored name.
example :
    body "User" (.find .many ⟨none, [⟨⟨Users.age, []⟩, .equal, 1⟩]⟩
      [⟨⟨Users.contact, [⟨"Fax", .named "string", none⟩]⟩, .ascending⟩] none) =
        .error (.missingTag "Fax") := rfl

end Mongo

end NamedQuery
