import NamedQuery.Mongo.Implementation
import NamedQuery.Proofs.Literal
import NamedQuery.Proofs.Spelling

/-!
# The meaning of a filter document

The database reads a filter document as a condition on stored documents.  The
tests at the paths of a document are left open, and so are the values that a
method is called with.  Under every choice of them, the filter of a planned query
holds exactly when the predicates of the query do, as its connective joins them.
-/

namespace NamedQuery

open Code Text

namespace Mongo

/-! ## Filters -/

/-- A value to compare with: one that is passed to the method, or a constant. -/
inductive Operand (Value : Type) where
  | passed (value : Value)
  | constant (value : Bool)

/-- A test of what is stored at a path. -/
inductive Test (Value : Type) where
  | equal (operand : Operand Value)
  | notEqual (operand : Operand Value)
  | lessThan (operand : Operand Value)
  | lessThanOrEqual (operand : Operand Value)
  | greaterThan (operand : Operand Value)
  | greaterThanOrEqual (operand : Operand Value)
  | oneOf (operand : Operand Value)
  | noneOf (operand : Operand Value)
  | stored (present : Bool)

inductive Filter (Value : Type) where
  /-- Every test holds at the path. -/
  | atPath (path : String) (tests : List (Test Value))
  | all (filters : List (Filter Value))
  | any (filters : List (Filter Value))

namespace Filter

variable {Value : Type} (truth : String → Test Value → Prop)

mutual

/-- Whether a filter holds, given which tests hold at which paths. -/
def Holds : Filter Value → Prop
  | .atPath path tests => ∀ test ∈ tests, truth path test
  | .all filters => AllHold filters
  | .any filters => SomeHolds filters

def AllHold : List (Filter Value) → Prop
  | [] => True
  | filter :: rest => filter.Holds ∧ AllHold rest

def SomeHolds : List (Filter Value) → Prop
  | [] => False
  | filter :: rest => filter.Holds ∨ SomeHolds rest

end

theorem holds_all_iff {filters : List (Filter Value)} :
    (Filter.all filters).Holds truth ↔ ∀ filter ∈ filters, filter.Holds truth := by
  rw [Holds]
  induction filters with
  | nil => simp [AllHold]
  | cons filter rest ih => rw [AllHold, ih, List.forall_mem_cons]

theorem holds_any_iff {filters : List (Filter Value)} :
    (Filter.any filters).Holds truth ↔ ∃ filter ∈ filters, filter.Holds truth := by
  rw [Holds]
  induction filters with
  | nil => simp [SomeHolds]
  | cons filter rest ih => rw [SomeHolds, ih, List.exists_mem_cons_iff]

end Filter

/-! ## Reading a filter document -/

/-- The value that a name stands for in a method: that of the parameter with the
name, where `arguments` gives the values by position. -/
def argument? {Value : Type} (params : List Param) (arguments : Nat → Value) (name : String) :
    Option Value :=
  (params.findIdx? fun param => param.name = name).map arguments

/-- The text of a string literal. -/
def readText? : Expr → Option String
  | .raw text => unquoted? text
  | _ => none

/-- Whether the keys of a map are different, as they have to be. -/
def distinctKeys (entries : List (Expr × Expr)) : Bool :=
  (entries.map fun entry => readText? entry.1).Nodup

section Reading

variable {Value : Type} (value? : String → Option Value)

def readOperand? : Expr → Option (Operand Value)
  | .ident name => (value? name).map .passed
  | .raw text =>
      if text = "true" then some (.constant true)
      else if text = "false" then some (.constant false)
      else none
  | _ => none

/-- The operand of `$exists`. -/
def readPresence? : Expr → Option Bool
  | .raw text => if text = "1" then some true else if text = "0" then some false else none
  | _ => none

/-- The tests of the operators with a value. -/
def comparison? : String → Option (Operand Value → Test Value)
  | "$ne" => some .notEqual
  | "$lt" => some .lessThan
  | "$lte" => some .lessThanOrEqual
  | "$gt" => some .greaterThan
  | "$gte" => some .greaterThanOrEqual
  | "$in" => some .oneOf
  | "$nin" => some .noneOf
  | _ => none

/-- The test of an operator and its operand. -/
def readTest? (entry : Expr × Expr) : Option (Test Value) := do
  let operator ← readText? entry.1
  if operator = "$exists" then
    (readPresence? entry.2).map .stored
  else do
    let test ← comparison? operator
    (readOperand? value? entry.2).map test

/-- The tests of what stands at a path: those of a map of operators, or equality
with a value. -/
def readTests? : Expr → Option (List (Test Value))
  | .mapping type operators =>
      if type = "bson.M" ∧ distinctKeys operators then operators.mapM (readTest? value?) else none
  | value => (readOperand? value? value).map fun operand => [.equal operand]

mutual

/-- The filter of a document of one of the given types: all of its entries. -/
def readDocument? (types : List String) : Expr → Option (Filter Value)
  | .mapping type entries =>
      if type ∈ types ∧ distinctKeys entries then (readEntries? entries).map .all else none
  | _ => none

/-- The filters of entries.  A key that starts with a dollar sign is an operator,
and every other key a path. -/
def readEntries? : List (Expr × Expr) → Option (List (Filter Value))
  | [] => some []
  | (key, value) :: rest => do
      let text ← readText? key
      let first ←
        if text = "$and" then (readElements? value).map .all
        else if text = "$or" then (readElements? value).map .any
        else if text.toList.head? = some '$' then none
        else (readTests? value? value).map (.atPath text)
      let others ← readEntries? rest
      return first :: others

/-- The filters of a slice of documents. -/
def readElements? : Expr → Option (List (Filter Value))
  | .slice type elements => if type = "[]bson.M" then readDocuments? elements else none
  | _ => none

/-- The filters of the elements of a slice, whose types may be left out. -/
def readDocuments? : List Expr → Option (List (Filter Value))
  | [] => some []
  | element :: rest => do
      let first ← readDocument? ["bson.M", ""] element
      let others ← readDocuments? rest
      return first :: others

end

/-- The filter that the database reads a document as. -/
def readFilter? (document : Expr) : Option (Filter Value) :=
  readDocument? value? ["bson.M"] document

end Reading

end Mongo

/-! ## The meaning of a query -/

/-- Every field on the path has a name in stored documents, and no name is that of
an operator. -/
def FieldPath.Stored (path : FieldPath) : Prop :=
  ∀ field ∈ path.fields, ∃ name ∈ field.bsonName?, name.toList.head? ≠ some '$'

instance (path : FieldPath) : Decidable path.Stored :=
  inferInstanceAs (Decidable (∀ field ∈ path.fields, ∃ name ∈ field.bsonName?,
    name.toList.head? ≠ some '$'))

/-- The names of the fields in stored documents, with dots between them. -/
def FieldPath.storedPath (path : FieldPath) : String :=
  joined "." (path.fields.filterMap Field.bsonName?)

section Meaning

variable {Value : Type} (truth : String → Mongo.Test Value → Prop) (arguments : Nat → Value)

/-- The tests of a comparator whose parameters start at a position. -/
def Comparator.tests (slot : Nat) : Comparator → List (Mongo.Test Value)
  | .equal => [.equal (.passed (arguments slot))]
  | .notEqual => [.notEqual (.passed (arguments slot))]
  | .lessThan => [.lessThan (.passed (arguments slot))]
  | .lessThanOrEqual => [.lessThanOrEqual (.passed (arguments slot))]
  | .greaterThan => [.greaterThan (.passed (arguments slot))]
  | .greaterThanOrEqual => [.greaterThanOrEqual (.passed (arguments slot))]
  | .between =>
      [.greaterThanOrEqual (.passed (arguments slot)),
        .lessThanOrEqual (.passed (arguments (slot + 1)))]
  | .oneOf => [.oneOf (.passed (arguments slot))]
  | .noneOf => [.noneOf (.passed (arguments slot))]
  | .isTrue => [.equal (.constant true)]
  | .isFalse => [.equal (.constant false)]
  | .present => [.stored true]
  | .absent => [.stored false]

def Predicate.Holds (predicate : Predicate) : Prop :=
  ∀ test ∈ predicate.comparator.tests arguments predicate.slot,
    truth predicate.field.storedPath test

/-- With `Or` one of the predicates has to hold, and otherwise all of them. -/
def Query.Holds (query : Query) : Prop :=
  match query.connective with
  | some .or => ∃ predicate ∈ query.predicates, predicate.Holds truth arguments
  | some .and | none => ∀ predicate ∈ query.predicates, predicate.Holds truth arguments

end Meaning

namespace Mongo

/-! ## Parameters -/

theorem argName_injective {slot other : Nat} (same : argName slot = argName other) :
    slot = other := by
  rw [argName, argName, String.append_right_inj] at same
  have digits : Nat.toDigits 10 slot = Nat.toDigits 10 other := by
    rw [← Nat.toList_repr, ← Nat.toList_repr]
    exact congrArg String.toList same
  rw [← Nat.ofDigitChars_ten_toDigits (n := slot), digits, Nat.ofDigitChars_ten_toDigits]

/-- The parameter with the name of a position stands at the position. -/
theorem findIdx?_paramsFrom (slot : Nat) {params : List GoType} {position : Nat}
    (declared : position < params.length) :
    (Implementation.paramsFrom slot params).findIdx?
      (fun param => param.name = argName (slot + position)) = some position := by
  induction params generalizing slot position with
  | nil => cases declared
  | cons type rest ih =>
      rw [Implementation.paramsFrom, List.findIdx?_cons]
      cases position with
      | zero => simp
      | succ position =>
          have other : argName slot ≠ argName (slot + (position + 1)) := by
            intro same
            have equal := argName_injective same
            omega
          have found := ih (slot + 1) (Nat.lt_of_succ_lt_succ declared)
          rw [Nat.add_right_comm] at found
          simp only [decide_eq_true_eq, other, if_false]
          rw [← Nat.add_assoc, found]
          rfl

theorem argument?_argName {Value : Type} (arguments : Nat → Value) {params : List GoType}
    {position : Nat} (declared : position < params.length) :
    argument? (Implementation.paramsFrom 0 params) arguments (argName position) =
      some (arguments position) := by
  have found := findIdx?_paramsFrom 0 declared
  rw [Nat.zero_add] at found
  rw [argument?, found, Option.map_some]

/-! ## Paths -/

theorem bsonNames_eq {fields : List Field}
    (stored : ∀ field ∈ fields, ∃ name, field.bsonName? = some name) :
    bsonNames fields = .ok (fields.filterMap Field.bsonName?) := by
  induction fields with
  | nil => rfl
  | cons field rest ih =>
      obtain ⟨⟨name, named⟩, others⟩ := List.forall_mem_cons.mp stored
      rw [bsonNames, named, List.filterMap_cons_some named, ih others]

theorem bsonPath_of_named {path : FieldPath}
    (named : ∀ field ∈ path.fields, field.bsonName?.isSome) :
    bsonPath path = .ok path.storedPath := by
  have each : ∀ field ∈ path.fields, ∃ name, field.bsonName? = some name := by
    intro field member
    exact Option.isSome_iff_exists.mp (named field member)
  rw [bsonPath, bsonNames_eq each]
  rfl

theorem bsonPath_eq {path : FieldPath} (stored : path.Stored) :
    bsonPath path = .ok path.storedPath := by
  apply bsonPath_of_named
  intro field member
  obtain ⟨name, found, -⟩ := stored field member
  exact Option.isSome_of_mem found

/-- The path of a stored field is not taken for an operator. -/
theorem head?_storedPath {path : FieldPath} (stored : path.Stored) :
    path.storedPath.toList.head? ≠ some '$' := by
  obtain ⟨name, named, plain⟩ := stored path.root List.mem_cons_self
  rw [FieldPath.storedPath, FieldPath.fields, List.filterMap_cons_some named]
  cases path.below.filterMap Field.bsonName? with
  | nil => exact plain
  | cons next others =>
      rw [joined, String.append_assoc, String.toList_append, List.head?_append]
      cases start : name.toList.head? with
      | none => simp
      | some first =>
          rw [start] at plain
          exact plain

/-! ## One condition -/

@[simp] theorem readText?_string (text : String) : readText? (.string text) = some text :=
  unquoted?_literal text

section Reading

variable {Value : Type} {value? : String → Option Value} {arguments : Nat → Value}

theorem readOperand?_arg {slot : Nat} {value : Value} (known : value? (argName slot) = some value) :
    readOperand? value? (arg slot) = some (.passed value) := by
  rw [arg, readOperand?, known, Option.map_some]

theorem readTests?_arg {slot : Nat} {value : Value} (known : value? (argName slot) = some value) :
    readTests? value? (arg slot) = some [.equal (.passed value)] := by
  have read := readOperand?_arg known
  rw [arg] at read ⊢
  rw [readTests?, read, Option.map_some]
  nofun

/-- The operand of an operator is read as the test of the operator. -/
theorem readTest?_arg {operator : String} {test : Operand Value → Test Value}
    (listed : comparison? operator = some test) {slot : Nat} {value : Value}
    (known : value? (argName slot) = some value) :
    readTest? value? (.string operator, arg slot) = some (test (.passed value)) := by
  have other : operator ≠ "$exists" := by
    rintro rfl
    cases listed
  simp [readTest?, other, listed, readOperand?_arg known]

theorem readTests?_operand {operator : String} {value : Expr} {test : Test Value}
    (read : readTest? value? (.string operator, value) = some test) :
    readTests? value? (operand operator value) = some [test] := by
  simp [operand, readTests?, mapType, distinctKeys, read]

/-- What a predicate asks of its field is read as the tests of its comparator. -/
theorem readTests?_conditionValue {comparator : Comparator} {slot : Nat}
    (known : ∀ offset < comparator.arity,
      value? (argName (slot + offset)) = some (arguments (slot + offset))) :
    readTests? value? (conditionValue comparator slot) =
      some (comparator.tests arguments slot) := by
  cases comparator with
  | isTrue => rfl
  | isFalse => rfl
  | present => exact readTests?_operand rfl
  | absent => exact readTests?_operand rfl
  | equal => exact readTests?_arg (known 0 Nat.one_pos)
  | notEqual => exact readTests?_operand (readTest?_arg rfl (known 0 Nat.one_pos))
  | lessThan => exact readTests?_operand (readTest?_arg rfl (known 0 Nat.one_pos))
  | lessThanOrEqual => exact readTests?_operand (readTest?_arg rfl (known 0 Nat.one_pos))
  | greaterThan => exact readTests?_operand (readTest?_arg rfl (known 0 Nat.one_pos))
  | greaterThanOrEqual => exact readTests?_operand (readTest?_arg rfl (known 0 Nat.one_pos))
  | oneOf => exact readTests?_operand (readTest?_arg rfl (known 0 Nat.one_pos))
  | noneOf => exact readTests?_operand (readTest?_arg rfl (known 0 Nat.one_pos))
  | between =>
      have least : readTest? value? (.string "$gte", arg slot) =
          some (.greaterThanOrEqual (.passed (arguments slot))) :=
        readTest?_arg rfl (known 0 (by decide))
      have greatest : readTest? value? (.string "$lte", arg (slot + 1)) =
          some (.lessThanOrEqual (.passed (arguments (slot + 1)))) :=
        readTest?_arg rfl (known 1 (by decide))
      simp [conditionValue, readTests?, mapType, distinctKeys, least, greatest, Comparator.tests]

/-! ## Whole documents -/

/-- The entry of a predicate whose fields are stored. -/
def entryOf (predicate : Predicate) : Expr × Expr :=
  (.string predicate.field.storedPath, conditionValue predicate.comparator predicate.slot)

/-- The filter that the document of a predicate is read as. -/
def filterOf (arguments : Nat → Value) (predicate : Predicate) : Filter Value :=
  .all [.atPath predicate.field.storedPath
    (predicate.comparator.tests arguments predicate.slot)]

theorem holds_filterOf_iff (truth : String → Test Value → Prop) (predicate : Predicate) :
    (filterOf arguments predicate).Holds truth ↔ predicate.Holds truth arguments := by
  rw [filterOf, Filter.holds_all_iff, List.forall_mem_singleton, Filter.Holds]
  rfl

/-- The fields of a predicate are stored, and its parameters have values. -/
structure Readable (value? : String → Option Value) (arguments : Nat → Value)
    (predicate : Predicate) : Prop where
  stored : predicate.field.Stored
  known : ∀ offset < predicate.arity,
    value? (argName (predicate.slot + offset)) = some (arguments (predicate.slot + offset))

theorem readDocument?_entryOf {predicate : Predicate}
    (readable : Readable value? arguments predicate) {types : List String} {type : String}
    (allowed : type ∈ types) :
    readDocument? value? types (.mapping type [entryOf predicate]) =
      some (filterOf arguments predicate) := by
  have tests := readTests?_conditionValue readable.known
  have plain := head?_storedPath readable.stored
  have notAnd : predicate.field.storedPath ≠ "$and" := by
    intro same
    exact plain (by rw [same]; rfl)
  have notOr : predicate.field.storedPath ≠ "$or" := by
    intro same
    exact plain (by rw [same]; rfl)
  simp [readDocument?, readEntries?, entryOf, distinctKeys, allowed, notAnd, notOr, plain,
    tests, filterOf]

theorem readDocuments?_map {predicates : List Predicate}
    (readable : ∀ predicate ∈ predicates, Readable value? arguments predicate) :
    readDocuments? value? (predicates.map fun predicate => .mapping "" [entryOf predicate]) =
      some (predicates.map (filterOf arguments)) := by
  induction predicates with
  | nil => rw [List.map_nil, readDocuments?, List.map_nil]
  | cons predicate rest ih =>
      obtain ⟨first, others⟩ := List.forall_mem_cons.mp readable
      have read : readDocument? value? ["bson.M", ""] (.mapping "" [entryOf predicate]) =
          some (filterOf arguments predicate) := readDocument?_entryOf first (by simp)
      simp [readDocuments?, read, ih others]

/-- A connective over the documents of predicates is read as the query that joins
them. -/
theorem readFilter?_connective (connective : Connective) {predicates : List Predicate}
    (readable : ∀ predicate ∈ predicates, Readable value? arguments predicate) :
    ∃ filter, readFilter? value? (operand (connectiveKey connective)
        (.slice "[]bson.M" (predicates.map fun predicate => .mapping "" [entryOf predicate]))) =
          some filter ∧
      ∀ truth, filter.Holds truth ↔
        Query.Holds truth arguments ⟨some connective, predicates⟩ := by
  have read := readDocuments?_map readable
  cases connective with
  | and =>
      refine ⟨.all [.all (predicates.map (filterOf arguments))], ?_, ?_⟩
      · simp [readFilter?, readDocument?, operand, mapType, connectiveKey, distinctKeys,
          readEntries?, readElements?, read]
      · intro truth
        rw [Filter.holds_all_iff, List.forall_mem_singleton, Filter.holds_all_iff,
          List.forall_mem_map]
        simp only [holds_filterOf_iff]
        rfl
  | or =>
      refine ⟨.all [.any (predicates.map (filterOf arguments))], ?_, ?_⟩
      · simp [readFilter?, readDocument?, operand, mapType, connectiveKey, distinctKeys,
          readEntries?, readElements?, read]
      · intro truth
        rw [Filter.holds_all_iff, List.forall_mem_singleton, Filter.holds_any_iff]
        simp only [List.mem_map, exists_exists_and_eq_and, holds_filterOf_iff]
        rfl

/-- The combined entries of a query are read as the query.  The connective is
missing only where there is nothing to join. -/
theorem readFilter?_combine {query : Query}
    (shared : query.connective = none ↔ query.predicates.length ≤ 1)
    (readable : ∀ predicate ∈ query.predicates, Readable value? arguments predicate) :
    ∃ filter, readFilter? value? (combine query.connective (query.predicates.map entryOf)) =
        some filter ∧
      ∀ truth, filter.Holds truth ↔ query.Holds truth arguments := by
  rcases query with ⟨connective, predicates⟩
  match predicates, connective with
  | [], connective =>
      have alone : connective = none := shared.mpr (Nat.zero_le 1)
      refine ⟨.all [], rfl, ?_⟩
      intro truth
      rw [Filter.holds_all_iff, alone]
      simp [Query.Holds]
  | [only], connective =>
      have alone : connective = none := shared.mpr (Nat.le_refl 1)
      have first := readable only List.mem_cons_self
      refine ⟨filterOf arguments only, readDocument?_entryOf first List.mem_cons_self, ?_⟩
      intro truth
      rw [holds_filterOf_iff, alone]
      simp [Query.Holds]
  | first :: second :: rest, none =>
      have short : rest.length + 1 + 1 ≤ 1 := shared.mp rfl
      omega
  | first :: second :: rest, some connective =>
      have document : combine (some connective) ((first :: second :: rest).map entryOf) =
          operand (connectiveKey connective) (.slice "[]bson.M"
            ((first :: second :: rest).map fun predicate => .mapping "" [entryOf predicate])) := by
        simp [combine, mapType, Function.comp_def]
      rw [document]
      exact readFilter?_connective connective readable

end Reading

theorem mapM_condition {predicates : List Predicate}
    (stored : ∀ predicate ∈ predicates, predicate.field.Stored) :
    predicates.mapM condition = .ok (predicates.map entryOf) := by
  induction predicates with
  | nil => rfl
  | cons predicate rest ih =>
      obtain ⟨first, others⟩ := List.forall_mem_cons.mp stored
      have entry : condition predicate = .ok (entryOf predicate) := by
        rw [condition, bsonPath_eq first]
        rfl
      rw [List.mapM_cons, entry, ih others]
      rfl

/-- The filter of a planned query exists and holds exactly when the query does,
whatever the tests mean and whatever the method is called with. -/
theorem filter_holds_iff {entity : Entity} {method : Signature} {plan : Plan} {query : Query}
    (planned : entity.plan method = .ok plan) (queried : plan.operation.query? = some query)
    (stored : ∀ predicate ∈ query.predicates, predicate.field.Stored) :
    ∃ document, filter query = .ok document ∧
      ∀ (Value : Type) (arguments : Nat → Value), ∃ meaning,
        readFilter? (argument? (Implementation.paramsFrom 0 method.params) arguments) document =
          some meaning ∧
        ∀ truth, meaning.Holds truth ↔ query.Holds truth arguments := by
  obtain ⟨rfl, read, checked⟩ := Entity.read_of_plan planned
  obtain ⟨slot, clause, queryRead⟩ :=
    (Entity.reading_of_readOperation read).exists_readQuery queried
  refine ⟨combine query.connective (query.predicates.map entryOf), ?_, ?_⟩
  · rw [filter, mapM_condition stored]
    rfl
  · intro Value arguments
    refine readFilter?_combine (Entity.connective_eq_none_iff_of_readQuery queryRead) ?_
    intro predicate member
    refine ⟨stored predicate member, ?_⟩
    intro offset taken
    exact argument?_argName arguments (Plan.lt_length_of_check checked queried member taken)

end Mongo

namespace Users

theorem search_filter :
    (∀ predicate ∈ searchQuery.predicates, predicate.field.Stored) ∧
    ∃ document, Mongo.filter searchQuery = .ok document ∧
      ∀ (Value : Type) (arguments : Nat → Value), ∃ meaning,
        Mongo.readFilter?
          (Mongo.argument? (Mongo.Implementation.paramsFrom 0 search.params) arguments)
          document = some meaning ∧
        ∀ truth, meaning.Holds truth ↔
          truth "contact.phone" (.equal (.passed (arguments 1))) ∨
            truth "age" (.greaterThanOrEqual (.passed (arguments 2))) ∧
              truth "age" (.lessThanOrEqual (.passed (arguments 3))) := by
  have stored : ∀ predicate ∈ searchQuery.predicates, predicate.field.Stored := by decide
  obtain ⟨document, translated, read⟩ := Mongo.filter_holds_iff plan_search rfl stored
  refine ⟨stored, document, translated, ?_⟩
  intro Value arguments
  obtain ⟨meaning, found, holds⟩ := read Value arguments
  refine ⟨meaning, found, ?_⟩
  intro truth
  have phonePath : FieldPath.storedPath ⟨contact, [phone]⟩ = "contact.phone" := by decide
  have agePath : FieldPath.storedPath ⟨age, []⟩ = "age" := by decide
  rw [holds]
  simp [Query.Holds, Predicate.Holds, Comparator.tests, searchQuery, phonePath, agePath]

end Users

end NamedQuery
