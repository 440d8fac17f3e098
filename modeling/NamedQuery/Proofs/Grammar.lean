import NamedQuery.Proofs.Operation

/-!
# Every phrase of the naming grammar is read

Phrases are the names of the grammar as trees: the words of each clause are given
together with the fields they name.  The words of a valid phrase are read as the
operation of the phrase, so no well-formed name is rejected, and none is read
otherwise than it was put together.
-/

namespace NamedQuery

open Text Entity

namespace Grammar

/-! ## Phrases -/

/-- A run of words that names a field. -/
structure FieldPhrase where
  run : List String
  path : FieldPath

/-- The run holds no connective and is resolved, so it has at least one word. -/
structure FieldPhrase.Valid (entity : Entity) (phrase : FieldPhrase) : Prop where
  and_absent : "And" ∉ phrase.run
  or_absent : "Or" ∉ phrase.run
  resolved : entity.resolve phrase.run = .ok phrase.path

/-- A field and the words of a comparator. -/
structure PredicatePhrase where
  field : FieldPhrase
  comparator : Comparator

namespace PredicatePhrase

def words (phrase : PredicatePhrase) : List String :=
  phrase.field.run ++ phrase.comparator.suffix

def predicate (slot : Nat) (phrase : PredicatePhrase) : Predicate :=
  ⟨phrase.field.path, phrase.comparator, slot⟩

/-- The comparator is the one that is found at the end of the words. -/
structure Valid (entity : Entity) (phrase : PredicatePhrase) : Prop where
  field : phrase.field.Valid entity
  closed : Comparator.atEnd phrase.words = phrase.comparator

end PredicatePhrase

/-- The predicates of phrases, with parameters from `slot` on. -/
def predicatesFrom : Nat → List PredicatePhrase → List Predicate
  | _, [] => []
  | slot, phrase :: rest =>
      phrase.predicate slot :: predicatesFrom (slot + phrase.comparator.arity) rest

/-- `All`, or `By` and predicates with one connective between them. -/
inductive QueryPhrase where
  | all
  | predicates (connective : Connective) (first : PredicatePhrase)
      (others : List PredicatePhrase)

namespace QueryPhrase

def words : QueryPhrase → List String
  | .all => ["All"]
  | .predicates connective first others =>
      "By" :: [connective.text].intercalate ((first :: others).map PredicatePhrase.words)

/-- A single predicate has no connective. -/
def query (slot : Nat) : QueryPhrase → Query
  | .all => .everything
  | .predicates connective first others =>
      ⟨if others = [] then none else some connective, predicatesFrom slot (first :: others)⟩

def Valid (entity : Entity) : QueryPhrase → Prop
  | .all => True
  | .predicates _ first others => ∀ phrase ∈ first :: others, phrase.Valid entity

end QueryPhrase

/-- A field and the word of a direction, if there is one. -/
structure SortPhrase where
  field : FieldPhrase
  ending : Option Direction

namespace SortPhrase

def words (phrase : SortPhrase) : List String :=
  match phrase.ending with
  | none => phrase.field.run
  | some .ascending => phrase.field.run ++ ["Asc"]
  | some .descending => phrase.field.run ++ ["Desc"]

def key (phrase : SortPhrase) : SortKey :=
  ⟨phrase.field.path, phrase.ending.getD .ascending⟩

/-- Without a word for its direction, the field does not end in one. -/
structure Valid (entity : Entity) (phrase : SortPhrase) : Prop where
  field : phrase.field.Valid entity
  plain : phrase.ending = none →
    phrase.field.run.getLast? ≠ some "Asc" ∧ phrase.field.run.getLast? ≠ some "Desc"

end SortPhrase

/-- A field and the word of an update operator, if it has one. -/
structure AssignmentPhrase where
  field : FieldPhrase
  operator : UpdateOperator

namespace AssignmentPhrase

def words (phrase : AssignmentPhrase) : List String :=
  match phrase.operator with
  | .set => phrase.field.run
  | .push => phrase.field.run ++ ["Push"]
  | .increment => phrase.field.run ++ ["Inc"]

def assignment (slot : Nat) (phrase : AssignmentPhrase) : Assignment :=
  ⟨phrase.field.path, phrase.operator, slot⟩

/-- Without a word for its operator, the field does not end in one.  No word
starts a query. -/
structure Valid (entity : Entity) (phrase : AssignmentPhrase) : Prop where
  field : phrase.field.Valid entity
  plain : phrase.operator = .set →
    phrase.field.run.getLast? ≠ some "Push" ∧ phrase.field.run.getLast? ≠ some "Inc"
  by_absent : "By" ∉ phrase.words
  all_absent : "All" ∉ phrase.words

end AssignmentPhrase

/-- The assignments of phrases, with one parameter each from `slot` on. -/
def assignmentsFrom : Nat → List AssignmentPhrase → List Assignment
  | _, [] => []
  | slot, phrase :: rest => phrase.assignment slot :: assignmentsFrom (slot + 1) rest

/-- A name with a query.  A find without sort keys has no sort clause, and an
update without assignments stores a whole model. -/
inductive MethodPhrase where
  | find (one : Bool) (limit : Option (List Char)) (query : QueryPhrase)
      (sorts : List SortPhrase)
  | update (assignments : List AssignmentPhrase) (query : QueryPhrase)
  | delete (query : QueryPhrase)
  | count (query : QueryPhrase)

/-- The words of an optional sort clause. -/
def sortClause : List SortPhrase → List String
  | [] => []
  | sorts => "Order" :: "By" :: ["And"].intercalate (sorts.map SortPhrase.words)

namespace MethodPhrase

def words : MethodPhrase → List String
  | .find one limit query sorts =>
      "Find" :: ((if one then ["One"] else []) ++
        ((limit.map fun digits => "Top" ++ String.ofList digits).toList ++
          (query.words ++ sortClause sorts)))
  | .update assignments query =>
      "Update" :: (["And"].intercalate (assignments.map AssignmentPhrase.words) ++ query.words)
  | .delete query => "Delete" :: query.words
  | .count query => "Count" :: query.words

/-- The operation of a phrase, for a method of the given mode. -/
def operation (mode : Mode) : MethodPhrase → Operation
  | .find _ limit query sorts =>
      .find mode (query.query 1) (sorts.map SortPhrase.key) (limit.map numeral)
  | .update [] query => .update (.model 1) mode (query.query 2)
  | .update assignments query =>
      .update (.fields (assignmentsFrom 1 assignments)) mode
        (query.query (1 + assignments.length))
  | .delete query => .delete mode (query.query 1)
  | .count query => .count (query.query 1)

def kind : MethodPhrase → OperationKind
  | .find .. => .find
  | .update .. => .update
  | .delete .. => .delete
  | .count .. => .count

/-- The clauses of a phrase are valid, and agree with the mode of the method and
with its parameters. -/
def Valid (entity : Entity) (params : List GoType) (mode : Mode) : MethodPhrase → Prop
  | .find one limit query sorts =>
      (one = true → mode = .one) ∧
      (∀ digits, limit = some digits → mode = .many ∧ LimitDigits digits) ∧
      query.Valid entity ∧ ¬ ["Order", "By"] <:+: query.words ∧
      ∀ phrase ∈ sorts, phrase.Valid entity
  | .update assignments query =>
      (assignments = [] → params[1]? = some entity.struct.pointerType) ∧
      (∀ phrase ∈ assignments, phrase.Valid entity) ∧ query.Valid entity
  | .delete query => query.Valid entity
  | .count query => query.Valid entity

end MethodPhrase

/-! ## Queries -/

theorem FieldPhrase.Valid.unjoined {entity : Entity} {phrase : FieldPhrase}
    (valid : phrase.Valid entity) : Unjoined phrase.run := by
  intro word member
  refine Connective.ofWord?_eq_none ?_ ?_
  · rintro rfl
    exact valid.and_absent member
  · rintro rfl
    exact valid.or_absent member

theorem unjoined_suffix (comparator : Comparator) : Unjoined comparator.suffix := by
  unfold Unjoined
  cases comparator <;> decide

theorem PredicatePhrase.Valid.unjoined {entity : Entity} {phrase : PredicatePhrase}
    (valid : phrase.Valid entity) : Unjoined phrase.words := by
  intro word member
  rcases List.mem_append.mp member with inField | inSuffix
  · exact valid.field.unjoined word inField
  · exact unjoined_suffix phrase.comparator word inSuffix

theorem PredicatePhrase.Valid.reads {entity : Entity} {phrase : PredicatePhrase}
    (valid : phrase.Valid entity) (slot : Nat) :
    entity.ReadsPredicate phrase.words (phrase.predicate slot) := by
  refine ⟨?_, valid.closed.symm⟩
  have start : Comparator.fieldWords phrase.words = phrase.field.run :=
    Comparator.fieldWords_append valid.closed
  rw [start]
  exact valid.field.resolved

theorem readsRuns_predicatesFrom {entity : Entity} {phrases : List PredicatePhrase}
    (valid : ∀ phrase ∈ phrases, phrase.Valid entity) (slot : Nat) :
    entity.ReadsRuns slot (phrases.map PredicatePhrase.words) (predicatesFrom slot phrases) := by
  induction phrases generalizing slot with
  | nil => exact ⟨.nil, trivial⟩
  | cons phrase rest ih =>
      obtain ⟨first, others⟩ := List.forall_mem_cons.mp valid
      rw [List.map_cons, readsRuns_cons_iff]
      exact ⟨phrase.predicate slot, _, ⟨first.reads slot, rfl⟩, ih others _, rfl⟩

/-- The words of a valid query are read as the query. -/
theorem QueryPhrase.Valid.readQuery {entity : Entity} {phrase : QueryPhrase}
    (valid : phrase.Valid entity) (slot : Nat) :
    entity.readQuery slot phrase.words = .ok (phrase.query slot) := by
  rw [readQuery_eq_ok_iff]
  cases phrase with
  | all => exact .inl ⟨rfl, rfl⟩
  | predicates connective first others =>
      refine .inr ⟨_, rfl, readPredicates_eq_ok_iff.mpr ?_⟩
      refine ⟨connective, (first :: others).map PredicatePhrase.words, by simp, ?_, ?_,
        readsRuns_predicatesFrom valid slot, ?_⟩
      · simp only [List.forall_mem_map]
        intro phrase member
        exact (valid phrase member).unjoined
      · rw [connective.keyword_spelling]
      · cases others <;> rfl

/-! ## Sort keys -/

theorem SortPhrase.Valid.and_absent {entity : Entity} {phrase : SortPhrase}
    (valid : phrase.Valid entity) : "And" ∉ phrase.words := by
  have absent := valid.field.and_absent
  unfold SortPhrase.words
  split <;> simp [absent]

theorem SortPhrase.Valid.parts {entity : Entity} {phrase : SortPhrase}
    (valid : phrase.Valid entity) :
    sortParts phrase.words = (phrase.field.run, phrase.key.direction) := by
  have plain := valid.plain
  rcases phrase with ⟨field, ending⟩
  match ending with
  | some .ascending => simp [SortPhrase.words, SortPhrase.key, sortParts, Keyword.spelling]
  | some .descending => simp [SortPhrase.words, SortPhrase.key, sortParts, Keyword.spelling]
  | none =>
      obtain ⟨notAscending, notDescending⟩ := plain rfl
      simp only [SortPhrase.words, SortPhrase.key, sortParts]
      split
      · next last found =>
          rw [found, ne_eq, Option.some.injEq] at notAscending notDescending
          exact (if_neg notAscending).trans (if_neg notDescending)
      · rfl

theorem SortPhrase.Valid.reads {entity : Entity} {phrase : SortPhrase}
    (valid : phrase.Valid entity) : entity.ReadsSortKey phrase.words phrase.key := by
  refine ⟨?_, ?_⟩
  · rw [valid.parts]
    exact valid.field.resolved
  · rw [valid.parts]

/-- Phrases without `And` are cut apart again where `And` joins them. -/
theorem runs_words {α : Type} {words : α → List String} {phrases : List α}
    (nonempty : phrases ≠ []) (absent : ∀ phrase ∈ phrases, "And" ∉ words phrase) :
    runs Keyword.and.spelling (["And"].intercalate (phrases.map words)) = phrases.map words := by
  have apart : ∀ run ∈ phrases.map words, Keyword.and.spelling ∉ run := by
    simp only [List.forall_mem_map]
    exact absent
  exact runs_intercalate (by simpa using nonempty) apart

/-- The words of valid sort keys are read as the keys. -/
theorem readSorts_words {entity : Entity} {phrases : List SortPhrase} (nonempty : phrases ≠ [])
    (valid : ∀ phrase ∈ phrases, phrase.Valid entity) :
    entity.readSorts (["And"].intercalate (phrases.map SortPhrase.words)) =
      .ok (phrases.map SortPhrase.key) := by
  have absent : ∀ phrase ∈ phrases, "And" ∉ phrase.words := by
    intro phrase member
    exact (valid phrase member).and_absent
  rw [readSorts_eq_ok_iff, runs_words nonempty absent, List.forall₂_map_left_iff,
    List.forall₂_map_right_iff, List.forall₂_same]
  intro phrase member
  exact (valid phrase member).reads

/-! ## Updated fields -/

theorem AssignmentPhrase.Valid.and_absent {entity : Entity} {phrase : AssignmentPhrase}
    (valid : phrase.Valid entity) : "And" ∉ phrase.words := by
  have absent := valid.field.and_absent
  unfold AssignmentPhrase.words
  split <;> simp [absent]

theorem AssignmentPhrase.Valid.words_ne_nil {entity : Entity} {phrase : AssignmentPhrase}
    (valid : phrase.Valid entity) : phrase.words ≠ [] := by
  have named := ne_nil_of_resolve valid.field.resolved
  unfold AssignmentPhrase.words
  split <;> simp [named]

theorem assignmentParts_spelling (run : List String) (operator : UpdateOperator)
    (written : operator ≠ .set) :
    assignmentParts (run ++ [operator.spelling]) = (run, operator) := by
  have known : UpdateOperator.ofWord? operator.spelling = some operator :=
    UpdateOperator.ofWord?_eq_some_iff.mpr ⟨written, rfl⟩
  simp [assignmentParts, known]

theorem AssignmentPhrase.Valid.parts {entity : Entity} {phrase : AssignmentPhrase}
    (valid : phrase.Valid entity) :
    assignmentParts phrase.words = (phrase.field.run, phrase.operator) := by
  have plain := valid.plain
  rcases phrase with ⟨field, operator⟩
  cases operator with
  | push => exact assignmentParts_spelling field.run .push nofun
  | increment => exact assignmentParts_spelling field.run .increment nofun
  | set =>
      obtain ⟨notPush, notIncrement⟩ := plain rfl
      simp only [AssignmentPhrase.words, assignmentParts]
      split
      · next operator found =>
          obtain ⟨last, ending, known⟩ := Option.bind_eq_some_iff.mp found
          obtain ⟨written, rfl⟩ := UpdateOperator.ofWord?_eq_some_iff.mp known
          cases operator with
          | set => exact absurd rfl written
          | push => exact absurd ending notPush
          | increment => exact absurd ending notIncrement
      · rfl

theorem AssignmentPhrase.Valid.reads {entity : Entity} {phrase : AssignmentPhrase}
    (valid : phrase.Valid entity) (slot : Nat) :
    entity.ReadsAssignment phrase.words (phrase.assignment slot) := by
  refine ⟨?_, ?_⟩
  · rw [valid.parts]
    exact valid.field.resolved
  · rw [valid.parts]
    rfl

theorem readsAssignments_assignmentsFrom {entity : Entity} {phrases : List AssignmentPhrase}
    (valid : ∀ phrase ∈ phrases, phrase.Valid entity) (slot : Nat) :
    entity.ReadsAssignments slot (phrases.map AssignmentPhrase.words)
      (assignmentsFrom slot phrases) := by
  induction phrases generalizing slot with
  | nil => exact ⟨.nil, rfl⟩
  | cons phrase rest ih =>
      obtain ⟨first, others⟩ := List.forall_mem_cons.mp valid
      obtain ⟨each, numbered⟩ := ih others (slot + 1)
      refine ⟨.cons (first.reads slot) each, ?_⟩
      rw [assignmentsFrom, List.map_cons, numbered, List.length_cons, List.range'_succ]
      rfl

/-- No query starts inside the words of valid assignments. -/
theorem startsQuery_of_mem_assignments {entity : Entity} {phrases : List AssignmentPhrase}
    (valid : ∀ phrase ∈ phrases, phrase.Valid entity) :
    ∀ word ∈ ["And"].intercalate (phrases.map AssignmentPhrase.words),
      startsQuery word = false := by
  intro word member
  rcases mem_of_mem_intercalate member with rfl | ⟨run, listed, inside⟩
  · rfl
  · obtain ⟨phrase, found, rfl⟩ := List.mem_map.mp listed
    have notBy : word ≠ "By" := fun same => (valid phrase found).by_absent (same ▸ inside)
    have notAll : word ≠ "All" := fun same => (valid phrase found).all_absent (same ▸ inside)
    simp [startsQuery, Keyword.spelling, notBy, notAll]

/-- The words of valid assignments are read as what they change. -/
theorem readChange_words {entity : Entity} (params : List GoType)
    {phrases : List AssignmentPhrase} (nonempty : phrases ≠ [])
    (valid : ∀ phrase ∈ phrases, phrase.Valid entity) (slot : Nat) :
    entity.readChange params slot (["And"].intercalate (phrases.map AssignmentPhrase.words)) =
      .ok (.fields (assignmentsFrom slot phrases)) := by
  have absent : ∀ phrase ∈ phrases, "And" ∉ phrase.words := by
    intro phrase member
    exact (valid phrase member).and_absent
  have cut := runs_words nonempty absent
  refine readChange_eq_ok_iff.mpr (.inr ⟨?_, _, rfl, ?_⟩)
  · intro none
    obtain ⟨phrase, rest, rfl⟩ := List.exists_cons_of_ne_nil nonempty
    rw [none] at cut
    exact (valid phrase List.mem_cons_self).words_ne_nil (List.cons.inj cut).1.symm
  · rw [cut]
    exact readsAssignments_assignmentsFrom valid slot

/-! ## Whole names -/

theorem splitOrder_cons_cons {word next : String} (apart : ¬ (word = "Order" ∧ next = "By"))
    (rest : List String) :
    splitOrder (word :: next :: rest) =
      (word :: (splitOrder (next :: rest)).1, (splitOrder (next :: rest)).2) := by
  rw [splitOrder]
  exact if_neg apart

theorem splitOrder_orderWords {words : List String} (absent : ¬ ["Order", "By"] <:+: words)
    (after : Option (List String)) :
    splitOrder (words ++ orderWords after) = (words, after) := by
  induction words with
  | nil => cases after <;> rfl
  | cons word others ih =>
      have read := ih fun inside => absent (List.infix_cons inside)
      match others, after with
      | [], none => rfl
      | [], some rest =>
          -- The successor of the last word is `Order`, so the cut is not before it.
          change splitOrder (word :: "Order" :: "By" :: rest) = _
          rw [splitOrder_cons_cons (by simp)]
          rfl
      | next :: others, after =>
          have apart : ¬ (word = "Order" ∧ next = "By") := by
            rintro ⟨rfl, rfl⟩
            exact absent ⟨[], others, rfl⟩
          rw [List.cons_append] at read
          rw [List.cons_append, List.cons_append, splitOrder_cons_cons apart, read]

/-- The words of a query start with `By` or `All`. -/
theorem QueryPhrase.exists_words (phrase : QueryPhrase) :
    ∃ head rest, phrase.words = head :: rest ∧ startsQuery head = true := by
  cases phrase with
  | all => exact ⟨"All", [], rfl, rfl⟩
  | predicates connective first others => exact ⟨"By", _, rfl, rfl⟩

theorem limitDigits?_limitWord {digits : List Char}
    (decimal : ∀ c ∈ digits, isDigit c = true) :
    limitDigits? (limitWord digits) = some digits := by
  have known : Keyword.afterTop? (limitWord digits) = some (String.ofList digits) :=
    Keyword.afterTop?_eq_some_iff.mpr rfl
  rw [limitDigits?, known, Option.map_some, String.toList_ofList]
  cases digits with
  | nil => rfl
  | cons first rest => exact if_pos (decimal first List.mem_cons_self)

theorem limitDigits?_of_startsQuery {word : String} (starts : startsQuery word = true) :
    limitDigits? word = none := by
  simp only [startsQuery, Bool.or_eq_true, decide_eq_true_eq] at starts
  rcases starts with rfl | rfl
  · rfl
  · rfl

theorem afterLimit_words {results : List GoType} {mode : Mode} {limit : Option (List Char)}
    (agrees : ∀ digits, limit = some digits → mode = .many ∧ LimitDigits digits)
    {head : String} (starts : startsQuery head = true) (rest : List String) :
    afterLimit results mode ((limit.map limitWord).toList ++ head :: rest) =
      .ok (limit.map numeral, head :: rest) := by
  cases limit with
  | none => simp [afterLimit, limitDigits?_of_startsQuery starts]
  | some digits =>
      obtain ⟨rfl, shape⟩ := agrees digits rfl
      have number : limitOf? digits = some (numeral digits) :=
        limitOf?_eq_some_iff.mpr ⟨shape, rfl⟩
      simp [afterLimit, limitDigits?_limitWord shape.decimal, number]

theorem afterOne_words {results : List GoType} {mode : Mode} {one : Bool}
    (agrees : one = true → mode = .one) {words : List String}
    (other : words.head? ≠ some "One") :
    afterOne results mode ((if one then ["One"] else []) ++ words) = .ok words := by
  cases one with
  | true =>
      rw [agrees rfl]
      rfl
  | false =>
      cases words with
      | nil => rfl
      | cons word rest =>
          rw [List.head?_cons, ne_eq, Option.some.injEq] at other
          exact if_neg other

/-- The words after an optional `One` do not start with another. -/
theorem head?_limit_ne_one {limit : Option (List Char)}
    (shapes : ∀ digits, limit = some digits → LimitDigits digits)
    {head : String} (starts : startsQuery head = true) (rest : List String) :
    ((limit.map limitWord).toList ++ head :: rest).head? ≠ some "One" := by
  cases limit with
  | none =>
      rintro same
      cases same
      cases starts
  | some digits =>
      intro same
      have word : limitWord digits = "One" := Option.some.inj same
      have found := limitDigits?_limitWord (shapes digits rfl).decimal
      rw [word] at found
      cases found

/-- A valid find is read: no word before the query is taken for a part of it, and
the query ends where the sort clause starts. -/
theorem readFind_words {entity : Entity} {results : List GoType} {mode : Mode}
    (fits : OperationKind.find.resultMode entity.struct results = .ok mode)
    {one : Bool} {limit : Option (List Char)} {query : QueryPhrase} {sorts : List SortPhrase}
    (single : one = true → mode = .one)
    (limited : ∀ digits, limit = some digits → mode = .many ∧ LimitDigits digits)
    (queried : query.Valid entity) (unordered : ¬ ["Order", "By"] <:+: query.words)
    (sorted : ∀ phrase ∈ sorts, phrase.Valid entity) :
    entity.readFind results ((if one then ["One"] else []) ++
      ((limit.map limitWord).toList ++ (query.words ++ sortClause sorts))) =
        .ok (.find mode (query.query 1) (sorts.map SortPhrase.key) (limit.map numeral)) := by
  obtain ⟨head, rest, spelled, starts⟩ := query.exists_words
  have afterSingle : afterOne results mode ((if one then ["One"] else []) ++
      ((limit.map limitWord).toList ++ (query.words ++ sortClause sorts))) =
        .ok ((limit.map limitWord).toList ++ (query.words ++ sortClause sorts)) := by
    rw [spelled]
    exact afterOne_words single
      (head?_limit_ne_one (fun digits some => (limited digits some).2) starts _)
  have afterTop : afterLimit results mode
      ((limit.map limitWord).toList ++ (query.words ++ sortClause sorts)) =
        .ok (limit.map numeral, query.words ++ sortClause sorts) := by
    rw [spelled]
    exact afterLimit_words limited starts _
  refine bind_eq_ok_iff.mpr ⟨mode, fits, bind_eq_ok_iff.mpr ⟨_, afterSingle,
    bind_eq_ok_iff.mpr ⟨_, afterTop, ?_⟩⟩⟩
  have read := queried.readQuery 1
  cases sorts with
  | nil =>
      have cut : splitOrder (query.words ++ sortClause []) = (query.words, none) :=
        splitOrder_orderWords unordered none
      dsimp only
      rw [cut]
      exact bind_eq_ok_iff.mpr ⟨_, read, rfl⟩
  | cons first others =>
      have cut : splitOrder (query.words ++ sortClause (first :: others)) = (query.words, some
          (["And"].intercalate ((first :: others).map SortPhrase.words))) :=
        splitOrder_orderWords unordered (some _)
      have keys := readSorts_words (List.cons_ne_nil first others) sorted
      dsimp only
      rw [cut]
      exact bind_eq_ok_iff.mpr ⟨_, read, bind_eq_ok_iff.mpr ⟨_, keys, rfl⟩⟩

/-- The change and the query of an update are cut at the first `By` or `All`. -/
theorem readUpdate_append {entity : Entity} {params results : List GoType} {mode : Mode}
    (fits : OperationKind.update.resultMode entity.struct results = .ok mode)
    {before : List String} {change : Change} {query : QueryPhrase}
    (outside : ∀ word ∈ before, startsQuery word = false)
    (changed : entity.readChange params firstSlot before = .ok change)
    (queried : query.Valid entity) :
    entity.readUpdate params results (before ++ query.words) =
      .ok (.update change mode (query.query (firstSlot + change.arity))) := by
  obtain ⟨head, rest, spelled, starts⟩ := query.exists_words
  have cut : (before ++ query.words).span (fun word => !startsQuery word) =
      (before, query.words) := by
    have kept : ∀ word ∈ before, (!startsQuery word) = true := fun word member => by
      rw [outside word member]
      rfl
    rw [List.span_eq_takeWhile_dropWhile, List.takeWhile_append_of_pos kept,
      List.dropWhile_append_of_pos kept, spelled]
    simp [starts]
  refine bind_eq_ok_iff.mpr ⟨mode, fits, ?_⟩
  dsimp only
  rw [cut]
  have nonempty : query.words.isEmpty = false := by
    rw [spelled]
    rfl
  refine (if_neg (by simp [nonempty])).trans (bind_eq_ok_iff.mpr ⟨change, changed, ?_⟩)
  exact bind_eq_ok_iff.mpr ⟨_, queried.readQuery _, rfl⟩

theorem length_assignmentsFrom (slot : Nat) (phrases : List AssignmentPhrase) :
    (assignmentsFrom slot phrases).length = phrases.length := by
  induction phrases generalizing slot with
  | nil => rfl
  | cons phrase rest ih => simp [assignmentsFrom, ih]

/-- The words of a valid phrase are read as the operation of the phrase. -/
theorem MethodPhrase.readOperation_words {entity : Entity} {params results : List GoType}
    {mode : Mode} {phrase : MethodPhrase}
    (fits : phrase.kind.resultMode entity.struct results = .ok mode)
    (valid : phrase.Valid entity params mode) :
    entity.readOperation params results phrase.words = .ok (phrase.operation mode) := by
  cases phrase with
  | find one limit query sorts =>
      obtain ⟨single, limited, queried, unordered, sorted⟩ := valid
      exact readFind_words fits single limited queried unordered sorted
  | update assignments query =>
      obtain ⟨model, changed, queried⟩ := valid
      have outside := startsQuery_of_mem_assignments changed
      cases assignments with
      | nil =>
          have whole : entity.readChange params firstSlot [] = .ok (.model 1) :=
            readChange_eq_ok_iff.mpr (.inl ⟨rfl, model rfl, rfl⟩)
          exact readUpdate_append fits outside whole queried
      | cons first others =>
          have fields := readChange_words params (List.cons_ne_nil first others) changed firstSlot
          have read := readUpdate_append fits outside fields queried
          rw [Change.arity, length_assignmentsFrom] at read
          exact read
  | delete query =>
      exact bind_eq_ok_iff.mpr ⟨mode, fits, bind_eq_ok_iff.mpr ⟨_, valid.readQuery 1, rfl⟩⟩
  | count query =>
      exact bind_eq_ok_iff.mpr ⟨mode, fits, bind_eq_ok_iff.mpr ⟨_, valid.readQuery 1, rfl⟩⟩

end Grammar

namespace Users

def agePhrase : Grammar.FieldPhrase := ⟨["Age"], ⟨age, []⟩⟩

def phonePhrase : Grammar.FieldPhrase := ⟨["Contact", "Phone"], ⟨contact, [phone]⟩⟩

/-- At most five users with a phone number or in a range of ages, the oldest first. -/
def searchPhrase : Grammar.MethodPhrase :=
  .find false (some ['5']) (.predicates .or ⟨phonePhrase, .equal⟩ [⟨agePhrase, .between⟩])
    [⟨agePhrase, some .descending⟩]

theorem searchPhrase_read :
    searchPhrase.words = ["Find", "Top5", "By", "Contact", "Phone", "Or", "Age", "Between",
        "Order", "By", "Age", "Desc"] ∧
      searchPhrase.Valid entity [.context, .named "string", .named "int", .named "int"] .many ∧
      entity.readOperation [.context, .named "string", .named "int", .named "int"]
        [.slice entity.struct.pointerType, .error] searchPhrase.words =
          .ok (searchPhrase.operation .many) := by
  have named : agePhrase.Valid entity := ⟨by decide, by decide, rfl⟩
  have reached : phonePhrase.Valid entity := ⟨by decide, by decide, rfl⟩
  have valid : searchPhrase.Valid entity [.context, .named "string", .named "int", .named "int"]
      .many := by
    refine ⟨nofun, ?_, ?_, by decide, ?_⟩
    · intro digits five
      cases five
      exact ⟨rfl, by decide, List.forall_mem_singleton.mpr rfl, by decide, by decide⟩
    · simp only [Grammar.QueryPhrase.Valid, List.forall_mem_cons]
      exact ⟨⟨reached, rfl⟩, ⟨named, rfl⟩, nofun⟩
    · simp only [List.forall_mem_cons]
      exact ⟨⟨named, nofun⟩, nofun⟩
  exact ⟨rfl, valid, Grammar.MethodPhrase.readOperation_words rfl valid⟩

end Users

end NamedQuery
