import Mathlib.Data.List.Forall2
import NamedQuery.Proofs.FieldPath
import NamedQuery.Proofs.Vocabulary

/-!
# What the clauses of a method name are read as

For each clause the exact condition under which it is read, and as what.  A query
clause is runs of words joined by one connective; each run is read on its own, and
the predicates take their parameters one after the other.  Sort keys and updated
fields are read run by run in the same way.
-/

namespace NamedQuery

/-- Every item that is related to values in order has one of them. -/
theorem exists_mem_of_forall₂ {α β : Type} {related : α → β → Prop} {items : List α}
    {values : List β} (each : List.Forall₂ related items values) {item : α}
    (member : item ∈ items) : ∃ value ∈ values, related item value := by
  induction each with
  | nil => cases member
  | cons first _ ih =>
      rcases List.mem_cons.mp member with rfl | later
      · exact ⟨_, List.mem_cons_self, first⟩
      · obtain ⟨value, found, holds⟩ := ih later
        exact ⟨value, List.mem_cons_of_mem _ found, holds⟩

namespace Entity

/-! ## Segments -/

/-- The segments of runs that are joined by a connective. -/
def linked (connective : Connective) : List (List String) → List Segment
  | [] => []
  | [run] => [⟨run, none⟩]
  | run :: next :: rest => ⟨run, some connective⟩ :: linked connective (next :: rest)

/-- No word of the run is a connective. -/
def Unjoined (run : List String) : Prop := ∀ word ∈ run, Connective.ofWord? word = none

theorem segments_of_unjoined {run : List String} (unjoined : Unjoined run) :
    segments run = [⟨run, none⟩] := by
  induction run with
  | nil => rfl
  | cons word rest ih =>
      have plain := unjoined word List.mem_cons_self
      have later := ih fun other member => unjoined other (List.mem_cons_of_mem word member)
      simp only [segments, plain, later]

theorem segments_append_connective {run : List String} (unjoined : Unjoined run)
    (connective : Connective) (rest : List String) :
    segments (run ++ connective.keyword.spelling :: rest) =
      ⟨run, some connective⟩ :: segments rest := by
  induction run with
  | nil =>
      have known : Connective.ofWord? connective.keyword.spelling = some connective :=
        Connective.ofWord?_eq_some_iff.mpr rfl
      simp only [List.nil_append, segments, known]
  | cons word others ih =>
      have plain := unjoined word List.mem_cons_self
      have later := ih fun other member => unjoined other (List.mem_cons_of_mem word member)
      simp only [List.cons_append, segments, plain, later]

/-- Runs joined by a connective are cut where they were joined. -/
theorem segments_intercalate (connective : Connective) {groups : List (List String)}
    (nonempty : groups ≠ []) (apart : ∀ run ∈ groups, Unjoined run) :
    segments ([connective.keyword.spelling].intercalate groups) = linked connective groups := by
  induction groups with
  | nil => exact absurd rfl nonempty
  | cons run rest ih =>
      have unjoined := apart run List.mem_cons_self
      cases rest with
      | nil =>
          rw [List.intercalate_singleton]
          exact segments_of_unjoined unjoined
      | cons next others =>
          have later := ih (List.cons_ne_nil next others)
            fun other member => apart other (List.mem_cons_of_mem run member)
          rw [List.intercalate_cons_cons, List.append_assoc, List.singleton_append,
            segments_append_connective unjoined, later]
          rfl

/-- Words with a single connective among them are runs joined by it. -/
theorem exists_groups {connective : Connective} {words : List String}
    (agree : ∀ segment ∈ segments words, ∀ next, segment.next = some next → next = connective) :
    ∃ groups, groups ≠ [] ∧ (∀ run ∈ groups, Unjoined run) ∧
      words = [connective.keyword.spelling].intercalate groups := by
  induction words with
  | nil => exact ⟨[[]], by simp [Unjoined]⟩
  | cons word rest ih =>
      cases known : Connective.ofWord? word with
      | some next =>
          simp only [segments, known, List.forall_mem_cons] at agree
          have same : next = connective := agree.1 next rfl
          obtain ⟨groups, nonempty, apart, joined⟩ := ih agree.2
          refine ⟨[] :: groups, List.cons_ne_nil _ _, ?_, ?_⟩
          · simpa [Unjoined] using apart
          · rw [List.intercalate_cons_of_ne_nil nonempty, ← joined,
              Connective.ofWord?_eq_some_iff.mp known, same]
            rfl
      | none =>
          -- the word joins the first run, and the connectives stay where they are
          have later : ∀ segment ∈ segments rest, ∀ next, segment.next = some next →
              next = connective := by
            cases found : segments rest with
            | nil => simp
            | cons segment others =>
                simp only [segments, known, found, List.forall_mem_cons] at agree ⊢
                exact agree
          obtain ⟨groups, nonempty, apart, joined⟩ := ih later
          cases groups with
          | nil => exact absurd rfl nonempty
          | cons run others =>
              simp only [List.forall_mem_cons] at apart
              refine ⟨(word :: run) :: others, List.cons_ne_nil _ _, ?_, ?_⟩
              · simp only [List.forall_mem_cons]
                refine ⟨?_, apart.2⟩
                intro other member
                rcases List.mem_cons.mp member with same | inside
                · rw [same, known]
                · exact apart.1 other inside
              · rw [List.intercalate_cons_cons_left, ← joined]

/-! ## Predicates -/

/-- A run of words is read as a predicate: the words before the comparator name
its field. -/
structure ReadsPredicate (entity : Entity) (run : List String) (predicate : Predicate) :
    Prop where
  field : entity.resolve (Comparator.fieldWords run) = .ok predicate.field
  comparator : predicate.comparator = Comparator.atEnd run

/-- The predicates take their parameters one after the other, from `slot` on. -/
def NumberedFrom : Nat → List Predicate → Prop
  | _, [] => True
  | slot, predicate :: rest =>
      predicate.slot = slot ∧ NumberedFrom (slot + predicate.arity) rest

theorem readPredicate_eq_ok_iff {entity : Entity} {slot : Nat} {run : List String}
    {predicate : Predicate} :
    entity.readPredicate slot run = .ok predicate ↔
      entity.ReadsPredicate run predicate ∧ predicate.slot = slot := by
  unfold readPredicate
  constructor
  · intro read
    split at read
    · next field found =>
        cases read
        exact ⟨⟨found, rfl⟩, rfl⟩
    · cases read
  · rintro ⟨⟨found, compared⟩, placed⟩
    rw [found, ← compared, ← placed]

theorem ReadsPredicate.run_ne_nil {entity : Entity} {run : List String} {predicate : Predicate}
    (reads : entity.ReadsPredicate run predicate) : run ≠ [] := by
  rintro rfl
  exact ne_nil_of_resolve reads.field rfl

/-- One step of reading segments: the first is read from the next free slot, and
the others after it. -/
theorem readSegments_cons_eq_ok_iff {entity : Entity} {clause : String}
    {seen : Option Connective} {slot : Nat} {segment : Segment} {rest : List Segment}
    {query : Query} :
    entity.readSegments clause seen slot (segment :: rest) = .ok query ↔
      mixes seen segment.next = false ∧ ∃ predicate later,
        (entity.ReadsPredicate segment.run predicate ∧ predicate.slot = slot) ∧
        entity.readSegments clause (segment.next.or seen) (slot + predicate.arity) rest =
          .ok later ∧
        query = ⟨later.connective, predicate :: later.predicates⟩ := by
  rw [readSegments]
  constructor
  · intro read
    split at read
    · cases read
    · next allowed =>
        simp only [Bool.or_eq_true, not_or, Bool.not_eq_true] at allowed
        split at read
        · cases read
        · next predicate first =>
            split at read
            · cases read
            · next later others =>
                cases read
                exact ⟨allowed.1, predicate, later, readPredicate_eq_ok_iff.mp first, others, rfl⟩
  · rintro ⟨unmixed, predicate, later, first, others, rfl⟩
    have nonempty := first.1.run_ne_nil
    simp [unmixed, nonempty, readPredicate_eq_ok_iff.mpr first, others]

theorem or_eq_of_not_mixes {seen : Connective} {next : Option Connective}
    (unmixed : mixes (some seen) next = false) : next.or (some seen) = some seen := by
  cases next with
  | none => rfl
  | some later =>
      simp only [mixes, decide_eq_false_iff_not, not_not] at unmixed
      rw [unmixed]
      rfl

/-- Once a connective was seen, it is the one of the query. -/
theorem connective_of_seen {entity : Entity} {clause : String} {seen : Connective}
    {slot : Nat} {parts : List Segment} {query : Query}
    (read : entity.readSegments clause (some seen) slot parts = .ok query) :
    query.connective = some seen := by
  induction parts generalizing slot query with
  | nil =>
      cases read
      rfl
  | cons segment rest ih =>
      obtain ⟨unmixed, predicate, later, -, others, rfl⟩ := readSegments_cons_eq_ok_iff.mp read
      rw [or_eq_of_not_mixes unmixed] at others
      change later.connective = some seen
      exact ih others

/-- Every connective between the runs is the one of the query. -/
theorem connective_of_segment {entity : Entity} {clause : String} {seen : Option Connective}
    {slot : Nat} {parts : List Segment} {query : Query}
    (read : entity.readSegments clause seen slot parts = .ok query) :
    ∀ segment ∈ parts, ∀ next, segment.next = some next → query.connective = some next := by
  induction parts generalizing seen slot query with
  | nil => simp
  | cons segment rest ih =>
      obtain ⟨unmixed, predicate, later, -, others, rfl⟩ := readSegments_cons_eq_ok_iff.mp read
      intro part member next joins
      change later.connective = some next
      rcases List.mem_cons.mp member with rfl | inside
      · rw [joins, Option.some_or] at others
        exact connective_of_seen others
      · exact ih others part inside next joins

/-- The runs are read as the predicates, each on its own and with parameters from
`slot` on. -/
structure ReadsRuns (entity : Entity) (slot : Nat) (groups : List (List String))
    (predicates : List Predicate) : Prop where
  each : List.Forall₂ entity.ReadsPredicate groups predicates
  numbered : NumberedFrom slot predicates

theorem readsRuns_cons_iff {entity : Entity} {slot : Nat} {run : List String}
    {rest : List (List String)} {predicates : List Predicate} :
    entity.ReadsRuns slot (run :: rest) predicates ↔
      ∃ predicate later, (entity.ReadsPredicate run predicate ∧ predicate.slot = slot) ∧
        entity.ReadsRuns (slot + predicate.arity) rest later ∧
        predicates = predicate :: later := by
  constructor
  · rintro ⟨each, numbered⟩
    cases each with
    | cons first others => exact ⟨_, _, ⟨first, numbered.1⟩, ⟨others, numbered.2⟩, rfl⟩
  · rintro ⟨predicate, later, ⟨first, placed⟩, ⟨others, numbered⟩, rfl⟩
    exact ⟨.cons first others, placed, numbered⟩

/-- The connective of a query of so many runs: a single run has none. -/
def sharedConnective (connective : Connective) (groups : List (List String)) :
    Option Connective :=
  if groups.length ≤ 1 then none else some connective

theorem linked_cons (connective : Connective) (run : List String) (rest : List (List String)) :
    linked connective (run :: rest) =
      ⟨run, if rest = [] then none else some connective⟩ :: linked connective rest := by
  cases rest <;> rfl

theorem sharedConnective_cons_or (connective : Connective) (run : List String)
    (rest : List (List String)) (seen : Option Connective) :
    (sharedConnective connective rest).or
        ((if rest = [] then none else some connective).or seen) =
      (sharedConnective connective (run :: rest)).or seen := by
  rcases rest with _ | ⟨next, _ | ⟨third, others⟩⟩ <;> simp [sharedConnective]

/-- Segments of runs that are joined by one connective are read exactly when the
runs are, and the query has that connective. -/
theorem readSegments_linked {entity : Entity} {clause : String} {connective : Connective}
    {seen : Option Connective} (agree : seen = none ∨ seen = some connective) {slot : Nat}
    {groups : List (List String)} {query : Query} :
    entity.readSegments clause seen slot (linked connective groups) = .ok query ↔
      entity.ReadsRuns slot groups query.predicates ∧
        query.connective = (sharedConnective connective groups).or seen := by
  induction groups generalizing seen slot query with
  | nil =>
      rcases query with ⟨joined, predicates⟩
      constructor
      · intro read
        cases read
        exact ⟨⟨.nil, trivial⟩, rfl⟩
      · rintro ⟨⟨each, -⟩, rfl⟩
        cases each
        rfl
  | cons run rest ih =>
      have unmixed :
          mixes seen (if rest = [] then none else some connective) = false := by
        rcases agree with rfl | rfl <;> by_cases last : rest = [] <;> simp [mixes, last]
      have still : (if rest = [] then none else some connective).or seen = none ∨
          (if rest = [] then none else some connective).or seen = some connective := by
        rcases agree with rfl | rfl <;> by_cases last : rest = [] <;> simp [last]
      rw [linked_cons, readSegments_cons_eq_ok_iff, readsRuns_cons_iff]
      constructor
      · rintro ⟨-, predicate, later, first, others, rfl⟩
        obtain ⟨read, joined⟩ := (ih still).mp others
        rw [sharedConnective_cons_or connective run] at joined
        exact ⟨⟨predicate, later.predicates, first, read, rfl⟩, joined⟩
      · rintro ⟨⟨predicate, later, first, read, predicates⟩, joined⟩
        rw [← sharedConnective_cons_or] at joined
        refine ⟨unmixed, predicate, ⟨query.connective, later⟩, first, ?_, ?_⟩
        · exact (ih still).mpr ⟨read, joined⟩
        · rw [← predicates]

/-- Words are read as predicates exactly when they are runs joined by one
connective and each run is read. -/
theorem readPredicates_eq_ok_iff {entity : Entity} {slot : Nat} {words : List String}
    {query : Query} :
    entity.readPredicates slot words = .ok query ↔
      ∃ (connective : Connective) (groups : List (List String)),
        groups ≠ [] ∧ (∀ run ∈ groups, Unjoined run) ∧
        words = [connective.keyword.spelling].intercalate groups ∧
        entity.ReadsRuns slot groups query.predicates ∧
        query.connective = sharedConnective connective groups := by
  unfold readPredicates
  constructor
  · intro read
    have agree : ∀ segment ∈ segments words, ∀ next, segment.next = some next →
        next = query.connective.getD .and := by
      intro segment member next joins
      rw [connective_of_segment read segment member next joins, Option.getD_some]
    obtain ⟨groups, nonempty, apart, joined⟩ := exists_groups agree
    refine ⟨_, groups, nonempty, apart, joined, ?_⟩
    rw [joined, segments_intercalate _ nonempty apart, readSegments_linked (.inl rfl),
      Option.or_none] at read
    exact read
  · rintro ⟨connective, groups, nonempty, apart, rfl, read⟩
    rw [segments_intercalate connective nonempty apart, readSegments_linked (.inl rfl),
      Option.or_none]
    exact read

/-- A query clause is `All`, or `By` and predicates. -/
theorem readQuery_eq_ok_iff {entity : Entity} {slot : Nat} {words : List String}
    {query : Query} :
    entity.readQuery slot words = .ok query ↔
      (words = [Keyword.allClause.spelling] ∧ query = .everything) ∨
        ∃ rest, words = Keyword.byClause.spelling :: rest ∧
          entity.readPredicates slot rest = .ok query := by
  constructor
  · intro read
    cases words with
    | nil => cases read
    | cons head rest =>
        rw [readQuery] at read
        split at read
        · next all =>
            split at read
            · next last =>
                cases read
                rw [List.isEmpty_iff] at last
                exact .inl ⟨by rw [all, last], rfl⟩
            · cases read
        · split at read
          · next starts => exact .inr ⟨rest, by rw [starts.1], read⟩
          · cases read
  · rintro (⟨rfl, rfl⟩ | ⟨rest, rfl, read⟩)
    · rfl
    · have nonempty : rest ≠ [] := by
        rintro rfl
        cases read
      have other : Keyword.byClause.spelling ≠ Keyword.allClause.spelling := by decide
      rw [readQuery, if_neg other, if_pos ⟨rfl, nonempty⟩]
      exact read

/-- A query that is read has a connective exactly when it has several predicates. -/
theorem connective_eq_none_iff_of_readQuery {entity : Entity} {slot : Nat}
    {words : List String} {query : Query} (read : entity.readQuery slot words = .ok query) :
    query.connective = none ↔ query.predicates.length ≤ 1 := by
  rcases readQuery_eq_ok_iff.mp read with ⟨-, rfl⟩ | ⟨rest, -, predicates⟩
  · simp [Query.everything]
  · obtain ⟨connective, groups, -, -, -, runs, joined⟩ := readPredicates_eq_ok_iff.mp predicates
    rw [joined, sharedConnective, ← runs.each.length_eq]
    split <;> simp_all

/-! ## Sort keys -/

/-- A run of words is read as a sort key: the words before its direction name the
field. -/
structure ReadsSortKey (entity : Entity) (run : List String) (key : SortKey) : Prop where
  field : entity.resolve (sortParts run).1 = .ok key.field
  direction : key.direction = (sortParts run).2

/-- A sort key ends in its direction, or in its field. -/
theorem sortParts_cases (run : List String) :
    (∃ field, run = field ++ [Keyword.ascending.spelling] ∧
      sortParts run = (field, .ascending)) ∨
    (∃ field, run = field ++ [Keyword.descending.spelling] ∧
      sortParts run = (field, .descending)) ∨
    sortParts run = (run, .ascending) := by
  unfold sortParts
  split
  · next last found =>
      have whole : run = run.dropLast ++ [last] :=
        (List.dropLast_append_getLast? last found).symm
      split
      · next up => exact .inl ⟨run.dropLast, by rw [← up]; exact whole, rfl⟩
      · split
        · next down => exact .inr (.inl ⟨run.dropLast, by rw [← down]; exact whole, rfl⟩)
        · exact .inr (.inr rfl)
  · exact .inr (.inr rfl)

theorem readSortKeys_eq_ok_iff {entity : Entity} {clause : String}
    {groups : List (List String)} {keys : List SortKey} :
    entity.readSortKeys clause groups = .ok keys ↔
      List.Forall₂ entity.ReadsSortKey groups keys := by
  induction groups generalizing keys with
  | nil =>
      rw [List.forall₂_nil_left_iff]
      exact ⟨fun read => by cases read; rfl, fun same => by rw [same]; rfl⟩
  | cons run rest ih =>
      simp only [readSortKeys, List.forall₂_cons_left_iff]
      constructor
      · intro read
        split at read
        · cases read
        · split at read
          · cases read
          · next field found =>
              split at read
              · cases read
              · next later others =>
                  cases read
                  exact ⟨_, _, ⟨found, rfl⟩, ih.mp others, rfl⟩
      · rintro ⟨key, later, ⟨found, directed⟩, others, rfl⟩
        have nonempty := ne_nil_of_resolve found
        have read := ih.mpr others
        rcases key with ⟨field, direction⟩
        simp only at found directed
        simp [nonempty, found, read, directed]

theorem readSorts_eq_ok_iff {entity : Entity} {words : List String} {keys : List SortKey} :
    entity.readSorts words = .ok keys ↔
      List.Forall₂ entity.ReadsSortKey (runs Keyword.and.spelling words) keys :=
  readSortKeys_eq_ok_iff

/-! ## Updated fields -/

/-- A run of words is read as an assignment: the words before its operator name
the field. -/
structure ReadsAssignment (entity : Entity) (run : List String) (assignment : Assignment) :
    Prop where
  field : entity.resolve (assignmentParts run).1 = .ok assignment.field
  operator : assignment.operator = (assignmentParts run).2

/-- The word that selects an operator, where it has one. -/
def operatorWords : UpdateOperator → List String
  | .set => []
  | .push => [UpdateOperator.push.spelling]
  | .increment => [UpdateOperator.increment.spelling]

/-- An updated field is its field words followed by its operator. -/
theorem assignmentParts_append (run : List String) :
    (assignmentParts run).1 ++ operatorWords (assignmentParts run).2 = run := by
  unfold assignmentParts
  split
  · next operator found =>
      obtain ⟨last, ending, known⟩ := Option.bind_eq_some_iff.mp found
      obtain ⟨written, spelled⟩ := UpdateOperator.ofWord?_eq_some_iff.mp known
      have words : operatorWords operator = [last] := by
        rw [spelled]
        cases operator with
        | set => exact absurd rfl written
        | push => rfl
        | increment => rfl
      rw [words]
      exact List.dropLast_append_getLast? last ending
  · exact List.append_nil run

/-- The runs are read as the assignments, each on its own and with one parameter,
from `slot` on. -/
structure ReadsAssignments (entity : Entity) (slot : Nat) (groups : List (List String))
    (assignments : List Assignment) : Prop where
  each : List.Forall₂ entity.ReadsAssignment groups assignments
  numbered : assignments.map Assignment.slot = List.range' slot assignments.length

theorem readAssignments_eq_ok_iff {entity : Entity} {clause : String} {slot : Nat}
    {groups : List (List String)} {assignments : List Assignment} :
    entity.readAssignments clause slot groups = .ok assignments ↔
      entity.ReadsAssignments slot groups assignments := by
  induction groups generalizing slot assignments with
  | nil =>
      constructor
      · intro read
        cases read
        exact ⟨.nil, rfl⟩
      · rintro ⟨each, -⟩
        cases each
        rfl
  | cons run rest ih =>
      simp only [readAssignments]
      constructor
      · intro read
        split at read
        · cases read
        · split at read
          · cases read
          · next field found =>
              split at read
              · cases read
              · next later others =>
                  cases read
                  obtain ⟨each, numbered⟩ := ih.mp others
                  refine ⟨.cons ⟨found, rfl⟩ each, ?_⟩
                  rw [List.map_cons, numbered, List.length_cons, List.range'_succ]
      · rintro ⟨each, numbered⟩
        cases each with
        | @cons _ assignment _ later first others =>
            rw [List.map_cons, List.length_cons, List.range'_succ] at numbered
            obtain ⟨placed, after⟩ := List.cons.inj numbered
            have nonempty := ne_nil_of_resolve first.field
            have read := ih.mpr ⟨others, after⟩
            obtain ⟨found, operated⟩ := first
            rcases assignment with ⟨field, operator, position⟩
            simp only at found operated placed
            simp [nonempty, found, read, operated, placed]

theorem readChange_eq_ok_iff {entity : Entity} {params : List GoType} {slot : Nat}
    {words : List String} {change : Change} :
    entity.readChange params slot words = .ok change ↔
      (words = [] ∧ params[slot]? = some entity.struct.pointerType ∧ change = .model slot) ∨
        (words ≠ [] ∧ ∃ assignments, change = .fields assignments ∧
          entity.ReadsAssignments slot (runs Keyword.and.spelling words) assignments) := by
  unfold readChange
  constructor
  · intro read
    split at read
    · next none =>
        split at read
        · next passed =>
            cases read
            exact .inl ⟨List.isEmpty_iff.mp none, passed, rfl⟩
        · cases read
    · next some =>
        split at read
        · cases read
        · next assignments found =>
            cases read
            rw [List.isEmpty_iff] at some
            exact .inr ⟨some, assignments, rfl, readAssignments_eq_ok_iff.mp found⟩
  · rintro (⟨rfl, passed, rfl⟩ | ⟨some, assignments, rfl, found⟩)
    · simp [passed]
    · simp [some, readAssignments_eq_ok_iff.mpr found]

end Entity

end NamedQuery
