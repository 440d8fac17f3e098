import NamedQuery.Proofs.Clause

/-!
# The runs of a query clause and its first fault

The connectives cut a clause into runs of words.  The clause is read exactly when it
does not have both connectives and every run is a field with its comparator; there is
then one predicate for each run.  Otherwise the clause is refused for the first run
from the left at which there is a fault.
-/

namespace NamedQuery

namespace Entity

/-! ## Runs and connectives -/

/-- The connectives of a clause, in order. -/
def connectives (words : List String) : List Connective := words.filterMap Connective.ofWord?

/-- The runs of words between the connectives of a clause, before the first and after
the last. -/
def queryRuns (words : List String) : List (List String) :=
  words.splitOnP fun word => word = "And" || word = "Or"

/-- Runs with the connective after each of them. -/
def paired : List (List String) → List Connective → List Segment
  | [], _ => []
  | run :: _, [] => [⟨run, none⟩]
  | run :: runs, next :: joins => ⟨run, some next⟩ :: paired runs joins

theorem isConnective_iff (word : String) :
    (word = "And" || word = "Or") = (Connective.ofWord? word).isSome := by
  cases known : Connective.ofWord? word with
  | some connective =>
      rw [Connective.ofWord?_eq_some_iff] at known
      cases connective <;> simp [known, Connective.keyword_spelling, Connective.text]
  | none =>
      have notAnd : word ≠ "And" := by
        rintro rfl
        cases known
      have notOr : word ≠ "Or" := by
        rintro rfl
        cases known
      simp [notAnd, notOr]

theorem mem_connectives_iff {words : List String} {connective : Connective} :
    connective ∈ connectives words ↔ connective.text ∈ words := by
  rw [connectives, List.mem_filterMap, ← Connective.keyword_spelling]
  constructor
  · rintro ⟨word, member, known⟩
    rw [← Connective.ofWord?_eq_some_iff.mp known]
    exact member
  · intro member
    exact ⟨_, member, Connective.ofWord?_eq_some_iff.mpr rfl⟩

theorem queryRuns_cons (word : String) (rest : List String) :
    queryRuns (word :: rest) =
      if (Connective.ofWord? word).isSome then [] :: queryRuns rest
      else (queryRuns rest).modifyHead (word :: ·) := by
  rw [queryRuns, List.splitOnP_cons_eq_if_modifyHead, isConnective_iff]
  rfl

/-- There is one run more than there are connectives. -/
theorem length_queryRuns (words : List String) :
    (queryRuns words).length = (connectives words).length + 1 := by
  induction words with
  | nil => rfl
  | cons word rest ih =>
      rw [queryRuns_cons, connectives, List.filterMap_cons]
      cases known : Connective.ofWord? word with
      | some connective => simpa [connectives] using ih
      | none => simpa [connectives] using ih

theorem paired_modifyHead (word : String) (runs : List (List String)) (joins : List Connective) :
    paired (runs.modifyHead (word :: ·)) joins =
      (paired runs joins).modifyHead fun segment =>
        { segment with run := word :: segment.run } := by
  cases runs with
  | nil => rfl
  | cons run others => cases joins <;> rfl

/-- The segments of a clause are its runs with its connectives between them. -/
theorem segments_eq_paired (words : List String) :
    segments words = paired (queryRuns words) (connectives words) := by
  induction words with
  | nil => rfl
  | cons word rest ih =>
      rw [queryRuns_cons, connectives, List.filterMap_cons, segments]
      cases known : Connective.ofWord? word with
      | some connective =>
          rw [ih]
          rfl
      | none =>
          have nonempty : paired (queryRuns rest) (connectives rest) ≠ [] := by
            have count := length_queryRuns rest
            cases found : queryRuns rest with
            | nil => simp [found] at count
            | cons run others => cases connectives rest <;> simp [paired]
          simp only [Option.isSome_none, Bool.false_eq_true, if_false]
          rw [paired_modifyHead, ih]
          change _ = List.modifyHead _ (paired (queryRuns rest) (connectives rest))
          cases found : paired (queryRuns rest) (connectives rest) with
          | nil => exact absurd found nonempty
          | cons segment others => rfl

/-! ## Faults -/

/-- The connective after the run at a position differs from one before it, in the
clause or seen before the clause. -/
def MixedAt (seen : Option Connective) (joins : List Connective) (position : Nat) : Prop :=
  ∃ earlier later, joins[position]? = some later ∧
    (seen = some earlier ∨ earlier ∈ joins.take position) ∧ earlier ≠ later

/-- What is wrong at the run of a position: the connective after it is not the one
before, or there are no words, or the words name no field. -/
inductive FaultAt (entity : Entity) (clause : String) (seen : Option Connective)
    (joins : List Connective) (runs : List (List String)) (position : Nat) :
    MethodError → Prop where
  | mixed (mixed : MixedAt seen joins position) :
      FaultAt entity clause seen joins runs position (.invalidQuery clause)
  | empty (unmixed : ¬ MixedAt seen joins position) (found : runs[position]? = some []) :
      FaultAt entity clause seen joins runs position (.invalidQuery clause)
  | unresolved {run : List String} (unmixed : ¬ MixedAt seen joins position)
      (found : runs[position]? = some run) (nonempty : run ≠ [])
      (unknown : ∀ path, entity.resolve (Comparator.fieldWords run) ≠ .ok path) :
      FaultAt entity clause seen joins runs position
        (.fieldNotFound (spell (Comparator.fieldWords run)))

/-- A fault at a position before which there is none. -/
def FirstFault (entity : Entity) (clause : String) (seen : Option Connective)
    (joins : List Connective) (runs : List (List String)) (fault : MethodError) : Prop :=
  ∃ position, entity.FaultAt clause seen joins runs position fault ∧
    ∀ before < position, ∀ other, ¬ entity.FaultAt clause seen joins runs before other

variable {entity : Entity} {clause : String} {seen : Option Connective}
  {joins : List Connective} {run : List String} {runs : List (List String)}
  {fault : MethodError}

theorem mixedAt_zero_iff : MixedAt seen joins 0 ↔ mixes seen joins.head? = true := by
  cases seen <;> cases joins <;> simp [MixedAt, mixes]

theorem eq_of_not_mixes {earlier next : Connective}
    (agrees : mixes (some earlier) (some next) = false) : earlier = next := by
  simpa [mixes] using agrees

/-- After a connective that agrees with those before it, the rest of the clause is
judged with that connective seen. -/
theorem mixedAt_succ_iff {next : Connective} (agrees : mixes seen (some next) = false)
    (joins : List Connective) (position : Nat) :
    MixedAt seen (next :: joins) (position + 1) ↔ MixedAt (some next) joins position := by
  constructor
  · rintro ⟨earlier, later, found, before, differ⟩
    refine ⟨earlier, later, by simpa using found, ?_, differ⟩
    rw [List.take_succ_cons, List.mem_cons] at before
    rcases before with rfl | same | inside
    · exact .inl (by rw [eq_of_not_mixes agrees])
    · exact .inl (by rw [same])
    · exact .inr inside
  · rintro ⟨earlier, later, found, before, differ⟩
    refine ⟨earlier, later, by simpa using found, .inr ?_, differ⟩
    rw [List.take_succ_cons, List.mem_cons]
    rcases before with old | inside
    · exact .inl (Option.some.inj old).symm
    · exact .inr inside

theorem faultAt_succ_iff {next : Connective} (agrees : mixes seen (some next) = false)
    {position : Nat} :
    entity.FaultAt clause seen (next :: joins) (run :: runs) (position + 1) fault ↔
      entity.FaultAt clause (some next) joins runs position fault := by
  have mixed := mixedAt_succ_iff agrees joins position
  constructor
  · rintro (here | ⟨unmixed, found⟩ | ⟨unmixed, found, nonempty, unknown⟩)
    · exact .mixed (mixed.mp here)
    · exact .empty (mixed.not.mp unmixed) (by simpa using found)
    · exact .unresolved (mixed.not.mp unmixed) (by simpa using found) nonempty unknown
  · rintro (here | ⟨unmixed, found⟩ | ⟨unmixed, found, nonempty, unknown⟩)
    · exact .mixed (mixed.mpr here)
    · exact .empty (mixed.not.mpr unmixed) (by simpa using found)
    · exact .unresolved (mixed.not.mpr unmixed) (by simpa using found) nonempty unknown

/-! ## Reading up to the first fault -/

theorem resolve_eq_error_iff :
    entity.resolve run = .error fault ↔
      (∀ path, entity.resolve run ≠ .ok path) ∧ fault = .fieldNotFound (spell run) := by
  unfold resolve
  cases entity.schema.path? entity.struct run <;> simp [eq_comm]

theorem readPredicate_eq_error_iff {slot : Nat} :
    entity.readPredicate slot run = .error fault ↔
      entity.resolve (Comparator.fieldWords run) = .error fault := by
  unfold readPredicate
  cases entity.resolve (Comparator.fieldWords run) <;> simp

/-- The first run is at fault when its connective or its words are refused. -/
theorem faultAt_zero_iff (slot : Nat) :
    entity.FaultAt clause seen joins (run :: runs) 0 fault ↔
      if mixes seen joins.head? || run.isEmpty then fault = .invalidQuery clause
      else entity.readPredicate slot run = .error fault := by
  rw [readPredicate_eq_error_iff, resolve_eq_error_iff]
  constructor
  · rintro (mixed | ⟨unmixed, found⟩ | ⟨unmixed, found, nonempty, unknown⟩)
    · simp [mixedAt_zero_iff.mp mixed]
    · simp [List.isEmpty_iff.mpr (Option.some.inj found)]
    · rw [mixedAt_zero_iff] at unmixed
      cases found
      simpa [unmixed, nonempty] using unknown
  · split
    · next refused =>
        rintro rfl
        by_cases mixed : MixedAt seen joins 0
        · exact .mixed mixed
        · rw [mixedAt_zero_iff] at mixed
          refine .empty (mixedAt_zero_iff.not.mpr mixed) ?_
          simpa [mixed] using refused
    · next allowed =>
        rintro ⟨unknown, rfl⟩
        simp only [Bool.or_eq_true, not_or, List.isEmpty_iff] at allowed
        exact .unresolved (mixedAt_zero_iff.not.mpr allowed.1) rfl allowed.2 unknown

/-- A run without a fault is read. -/
theorem exists_readPredicate_of_clear (slot : Nat)
    (clear : ∀ other, ¬ entity.FaultAt clause seen joins (run :: runs) 0 other) :
    (mixes seen joins.head? || run.isEmpty) = false ∧
      ∃ predicate, entity.readPredicate slot run = .ok predicate := by
  simp only [faultAt_zero_iff slot] at clear
  split at clear
  · exact absurd rfl (clear _)
  · next allowed =>
      refine ⟨Bool.not_eq_true _ ▸ allowed, ?_⟩
      cases read : entity.readPredicate slot run with
      | ok predicate => exact ⟨predicate, rfl⟩
      | error fault => exact absurd read (clear fault)

/-- Segments are refused for a fault of the first run, or for one of the others when the
first run has none. -/
theorem readSegments_cons_eq_error_iff {slot : Nat} {next : Option Connective}
    (after : joins.head? = next) (runs : List (List String)) (rest : List Segment) :
    entity.readSegments clause seen slot (⟨run, next⟩ :: rest) = .error fault ↔
      entity.FaultAt clause seen joins (run :: runs) 0 fault ∨
        (∀ other, ¬ entity.FaultAt clause seen joins (run :: runs) 0 other) ∧
          ∃ predicate, entity.readPredicate slot run = .ok predicate ∧
            entity.readSegments clause (next.or seen) (slot + predicate.arity) rest =
              .error fault := by
  simp only [readSegments, faultAt_zero_iff slot, after]
  split
  · simp [eq_comm]
  · cases read : entity.readPredicate slot run with
    | error first => simp
    | ok predicate =>
        cases later : entity.readSegments clause (next.or seen) (slot + predicate.arity) rest <;>
          simp [later]

theorem firstFault_cons_iff :
    entity.FirstFault clause seen joins (run :: runs) fault ↔
      entity.FaultAt clause seen joins (run :: runs) 0 fault ∨
        (∀ other, ¬ entity.FaultAt clause seen joins (run :: runs) 0 other) ∧
          ∃ position, entity.FaultAt clause seen joins (run :: runs) (position + 1) fault ∧
            ∀ before < position, ∀ other,
              ¬ entity.FaultAt clause seen joins (run :: runs) (before + 1) other := by
  constructor
  · rintro ⟨position, found, none⟩
    cases position with
    | zero => exact .inl found
    | succ position =>
        exact .inr ⟨none 0 (Nat.succ_pos position), position, found,
          fun before earlier => none (before + 1) (Nat.succ_lt_succ earlier)⟩
  · rintro (found | ⟨clear, position, found, none⟩)
    · exact ⟨0, found, fun before earlier => absurd earlier (Nat.not_lt_zero before)⟩
    · refine ⟨position + 1, found, ?_⟩
      intro before earlier
      cases before with
      | zero => exact clear
      | succ before => exact none before (Nat.lt_of_succ_lt_succ earlier)

/-- A single run can only be at fault itself. -/
theorem eq_zero_of_faultAt_single {position : Nat}
    (found : entity.FaultAt clause seen [] [run] position fault) : position = 0 := by
  cases found with
  | mixed mixed =>
      obtain ⟨earlier, later, missing, -⟩ := mixed
      cases missing
  | empty _ listed => simpa using (List.getElem?_eq_some_iff.mp listed).1
  | unresolved _ listed _ _ => simpa using (List.getElem?_eq_some_iff.mp listed).1

/-- Segments are refused for the first fault among them. -/
theorem readSegments_paired_eq_error_iff {slot : Nat}
    (count : runs.length = joins.length + 1) :
    entity.readSegments clause seen slot (paired runs joins) = .error fault ↔
      entity.FirstFault clause seen joins runs fault := by
  induction joins generalizing seen slot runs with
  | nil =>
      obtain ⟨run, rfl⟩ := List.length_eq_one_iff.mp count
      rw [paired, readSegments_cons_eq_error_iff List.head?_nil [], firstFault_cons_iff]
      refine or_congr_right (and_congr_right fun _ => ?_)
      constructor
      · rintro ⟨predicate, -, done⟩
        cases done
      · rintro ⟨position, found, -⟩
        cases eq_zero_of_faultAt_single found
  | cons next joins ih =>
      obtain ⟨run, others, rfl⟩ := List.exists_cons_of_length_eq_add_one count
      rw [paired, readSegments_cons_eq_error_iff List.head?_cons others, firstFault_cons_iff]
      refine or_congr_right (and_congr_right fun clear => ?_)
      obtain ⟨allowed, predicate, read⟩ := exists_readPredicate_of_clear slot clear
      have agrees : mixes seen (some next) = false := (Bool.or_eq_false_iff.mp allowed).1
      simp only [faultAt_succ_iff agrees, Option.some_or, ih (Nat.succ.inj count)]
      constructor
      · rintro ⟨-, -, first⟩
        exact first
      · intro first
        exact ⟨predicate, read, first⟩

/-! ## Whole clauses -/

/-- Segments that are read have one predicate for each run, and the connective that was
seen before them or stands between them. -/
theorem reads_of_readSegments_paired {slot : Nat} {query : Query}
    (count : runs.length = joins.length + 1)
    (read : entity.readSegments clause seen slot (paired runs joins) = .ok query) :
    List.Forall₂ entity.ReadsPredicate runs query.predicates ∧
      ∀ connective, query.connective = some connective ↔
        seen = some connective ∨ connective ∈ joins := by
  induction joins generalizing seen slot runs query with
  | nil =>
      obtain ⟨run, rfl⟩ := List.length_eq_one_iff.mp count
      obtain ⟨-, predicate, later, first, done, rfl⟩ := readSegments_cons_eq_ok_iff.mp read
      cases done
      exact ⟨.cons first.1 .nil, by simp⟩
  | cons next joins ih =>
      obtain ⟨run, others, rfl⟩ := List.exists_cons_of_length_eq_add_one count
      obtain ⟨agrees, predicate, later, first, rest, rfl⟩ := readSegments_cons_eq_ok_iff.mp read
      obtain ⟨each, joined⟩ := ih (Nat.succ.inj count) rest
      refine ⟨.cons first.1 each, ?_⟩
      intro connective
      rw [joined, Option.some_or, List.mem_cons, Option.some.injEq]
      constructor
      · rintro (rfl | inside)
        · exact .inr (.inl rfl)
        · exact .inr (.inr inside)
      · rintro (rfl | rfl | inside)
        · exact .inl (eq_of_not_mixes agrees).symm
        · exact .inl rfl
        · exact .inr inside

theorem reads_of_readPredicates {slot : Nat} {words : List String} {query : Query}
    (read : entity.readPredicates slot words = .ok query) :
    List.Forall₂ entity.ReadsPredicate (queryRuns words) query.predicates ∧
      ∀ connective, query.connective = some connective ↔ connective.text ∈ words := by
  rw [readPredicates, segments_eq_paired] at read
  simpa [mem_connectives_iff] using reads_of_readSegments_paired (length_queryRuns words) read

/-- A clause is refused for its first fault. -/
theorem readPredicates_eq_error_iff {slot : Nat} {words : List String} :
    entity.readPredicates slot words = .error fault ↔
      entity.FirstFault (spell words) none (connectives words) (queryRuns words) fault := by
  rw [readPredicates, segments_eq_paired]
  exact readSegments_paired_eq_error_iff (length_queryRuns words)

/-- Connectives are mixed only where both stand. -/
theorem both_of_mixedAt {words : List String} {position : Nat}
    (mixed : MixedAt none (connectives words) position) : "And" ∈ words ∧ "Or" ∈ words := by
  obtain ⟨earlier, later, found, before, differ⟩ := mixed
  have laterThere := mem_connectives_iff.mp (List.mem_of_getElem? found)
  have earlierThere : earlier.text ∈ words := by
    rcases before with none | inside
    · cases none
    · exact mem_connectives_iff.mp (List.mem_of_mem_take inside)
  cases earlier with
  | and =>
      cases later with
      | and => exact absurd rfl differ
      | or => exact ⟨earlierThere, laterThere⟩
  | or =>
      cases later with
      | and => exact ⟨laterThere, earlierThere⟩
      | or => exact absurd rfl differ

/-- A clause has no fault when it has one connective and all its runs are read. -/
theorem not_faultAt {words : List String} {position : Nat}
    (single : ¬ ("And" ∈ words ∧ "Or" ∈ words))
    (each : ∀ run ∈ queryRuns words,
      run ≠ [] ∧ ∃ path, entity.resolve (Comparator.fieldWords run) = .ok path) :
    ¬ entity.FaultAt clause none (connectives words) (queryRuns words) position fault := by
  rintro (mixed | ⟨-, found⟩ | ⟨-, found, -, unknown⟩)
  · exact single (both_of_mixedAt mixed)
  · exact (each [] (List.mem_of_getElem? found)).1 rfl
  · obtain ⟨-, path, resolved⟩ := each _ (List.mem_of_getElem? found)
    exact unknown path resolved

theorem exists_readPredicates_iff {slot : Nat} {words : List String} :
    (∃ query, entity.readPredicates slot words = .ok query) ↔
      ¬ ("And" ∈ words ∧ "Or" ∈ words) ∧ ∀ run ∈ queryRuns words,
        run ≠ [] ∧ ∃ path, entity.resolve (Comparator.fieldWords run) = .ok path := by
  constructor
  · rintro ⟨query, read⟩
    obtain ⟨each, joined⟩ := reads_of_readPredicates read
    refine ⟨?_, ?_⟩
    · rintro ⟨and, or⟩
      have first := (joined .and).mpr and
      rw [(joined .or).mpr or] at first
      cases first
    · intro run member
      obtain ⟨predicate, -, reads⟩ := exists_mem_of_forall₂ each member
      exact ⟨reads.run_ne_nil, predicate.field, reads.field⟩
  · rintro ⟨single, each⟩
    cases read : entity.readPredicates slot words with
    | ok query => exact ⟨query, rfl⟩
    | error fault =>
        obtain ⟨position, found, -⟩ := readPredicates_eq_error_iff.mp read
        exact absurd found (not_faultAt single each)

/-- A clause is read exactly when it does not have both connectives and every run of
words between them is a field with a comparator.  It then has one predicate for each
run, in order, and the connective that occurs.  Otherwise it is refused for the first
fault from the left: a connective that differs from an earlier one, a run without words,
or a run that names no field. -/
theorem readPredicates_run_by_run (entity : Entity) (slot : Nat) (words : List String) :
    ((∃ query, entity.readPredicates slot words = .ok query) ↔
      ¬ ("And" ∈ words ∧ "Or" ∈ words) ∧ ∀ run ∈ queryRuns words,
        run ≠ [] ∧ ∃ path, entity.resolve (Comparator.fieldWords run) = .ok path) ∧
    (∀ query, entity.readPredicates slot words = .ok query →
      List.Forall₂ entity.ReadsPredicate (queryRuns words) query.predicates ∧
        ∀ connective, query.connective = some connective ↔ connective.text ∈ words) ∧
    (∀ fault, entity.readPredicates slot words = .error fault ↔
      ∃ position,
        entity.FaultAt (spell words) none (connectives words) (queryRuns words) position fault ∧
          ∀ before < position, ∀ other, ¬ entity.FaultAt (spell words) none (connectives words)
            (queryRuns words) before other) :=
  ⟨exists_readPredicates_iff, fun _ => reads_of_readPredicates,
    fun _ => readPredicates_eq_error_iff⟩

end Entity

namespace Users

/-- The second connective is refused before the unknown field in front of it is looked
up, and before the empty run after it. -/
theorem age_or_size_and_refused :
    entity.readPredicates 1 ["Age", "Or", "Size", "And"] =
      .error (.invalidQuery "AgeOrSizeAnd") := by
  obtain ⟨-, -, refused⟩ :=
    Entity.readPredicates_run_by_run entity 1 ["Age", "Or", "Size", "And"]
  refine (refused _).mpr ⟨1, .mixed ⟨.or, .and, rfl, .inr List.mem_cons_self, by decide⟩, ?_⟩
  intro before earlier other found
  cases Nat.lt_one_iff.mp earlier
  change entity.FaultAt _ none [.or, .and] [["Age"], ["Size"], []] 0 other at found
  rw [Entity.faultAt_zero_iff 1] at found
  cases found

end Users

end NamedQuery
