import Mathlib.Data.List.Basic
import NamedQuery.Operation

/-!
# What words of the vocabulary stand for

A keyword, a connective, an operation and an update operator are each found by
their own word and by no other.  A run of words is the words of its field
followed by the words of its comparator.
-/

namespace NamedQuery

/-! ## Keywords -/

theorem Keyword.ofWord?_spelling (keyword : Keyword) :
    Keyword.ofWord? keyword.spelling = some keyword := by
  cases keyword <;> rfl

theorem Keyword.ofWord?_eq_some_iff {word : String} {keyword : Keyword} :
    Keyword.ofWord? word = some keyword ↔ word = keyword.spelling := by
  constructor
  · intro found
    have same := List.find?_some found
    simp only [decide_eq_true_eq] at same
    exact same.symm
  · rintro rfl
    exact Keyword.ofWord?_spelling keyword

theorem Keyword.afterTop?_eq_some_iff {word rest : String} :
    Keyword.afterTop? word = some rest ↔ word = Keyword.top.spelling ++ rest := by
  unfold Keyword.afterTop?
  rw [Option.map_eq_some_iff]
  constructor
  · rintro ⟨digits, found, rfl⟩
    rw [List.isPrefixOf?_eq_some_iff_append_eq] at found
    rw [← String.ofList_toList (s := word), ← found, String.ofList_append,
      String.ofList_toList]
  · rintro rfl
    refine ⟨rest.toList, ?_, String.ofList_toList⟩
    rw [List.isPrefixOf?_eq_some_iff_append_eq, String.toList_append]

theorem Connective.ofWord?_eq_some_iff {word : String} {connective : Connective} :
    Connective.ofWord? word = some connective ↔ word = connective.keyword.spelling := by
  constructor
  · intro found
    unfold Connective.ofWord? at found
    split at found <;> cases found
    · next known => exact Keyword.ofWord?_eq_some_iff.mp known
    · next known => exact Keyword.ofWord?_eq_some_iff.mp known
  · rintro rfl
    cases connective <;> rfl

/-- The word that stands between predicates. -/
def Connective.text : Connective → String
  | .and => "And"
  | .or => "Or"

theorem Connective.keyword_spelling (connective : Connective) :
    connective.keyword.spelling = connective.text := by
  cases connective <;> rfl

theorem Connective.ofWord?_eq_none {word : String} (notAnd : word ≠ "And") (notOr : word ≠ "Or") :
    Connective.ofWord? word = none := by
  cases known : Connective.ofWord? word with
  | none => rfl
  | some connective =>
      have spelled := Connective.ofWord?_eq_some_iff.mp known
      cases connective with
      | and => exact absurd spelled notAnd
      | or => exact absurd spelled notOr

theorem OperationKind.ofWord?_eq_some_iff {word : String} {kind : OperationKind} :
    OperationKind.ofWord? word = some kind ↔ word = kind.name := by
  constructor
  · intro found
    unfold OperationKind.ofWord? at found
    split at found <;> cases found <;>
      next known => exact Keyword.ofWord?_eq_some_iff.mp known
  · rintro rfl
    cases kind <;> rfl

/-- Only `Push` and `Inc` are written; `Set` has no word. -/
theorem UpdateOperator.ofWord?_eq_some_iff {word : String} {operator : UpdateOperator} :
    UpdateOperator.ofWord? word = some operator ↔
      operator ≠ .set ∧ word = operator.spelling := by
  constructor
  · intro found
    have same := List.find?_some found
    have listed := List.mem_of_find?_eq_some found
    simp only [decide_eq_true_eq] at same
    refine ⟨?_, same.symm⟩
    rintro rfl
    simp at listed
  · rintro ⟨written, rfl⟩
    cases operator with
    | set => exact absurd rfl written
    | push => rfl
    | increment => rfl

/-! ## Comparators -/

namespace Comparator

theorem closes_iff {comparator : Comparator} {run : List String} :
    comparator.closes run = true ↔
      comparator.suffix.length < run.length ∧ comparator.suffix <:+ run := by
  simp only [closes, Bool.and_eq_true, decide_eq_true_eq, List.isSuffixOf_iff_suffix]

/-- Either no comparator closes a run, or the first in the order that does is at its end. -/
theorem atEnd_cases (run : List String) :
    (atEnd run = .equal ∧ ∀ comparator ∈ matchOrder, ¬ comparator.closes run = true) ∨
    ((atEnd run).closes run = true ∧ ∃ before after, matchOrder = before ++ atEnd run :: after ∧
      ∀ earlier ∈ before, ¬ earlier.closes run = true) := by
  unfold atEnd
  cases found : matchOrder.find? fun comparator => comparator.closes run with
  | none => exact .inl ⟨rfl, List.find?_eq_none.mp found⟩
  | some comparator =>
      obtain ⟨closed, before, after, order, earlier⟩ := List.find?_eq_some_iff_append.mp found
      refine .inr ⟨closed, before, after, order, ?_⟩
      intro other member
      simpa using earlier other member

/-- The comparator that is found at the end of a run stands there. -/
theorem suffix_atEnd (run : List String) : (atEnd run).suffix <:+ run := by
  rcases atEnd_cases run with ⟨unmarked, -⟩ | ⟨closed, -⟩
  · rw [unmarked]
    exact List.nil_suffix
  · exact (closes_iff.mp closed).2

/-- The comparator that is found at the end of a run is not the whole of it. -/
theorem length_suffix_atEnd_lt {run : List String} (nonempty : run ≠ []) :
    (atEnd run).suffix.length < run.length := by
  rcases atEnd_cases run with ⟨unmarked, -⟩ | ⟨closed, -⟩
  · rw [unmarked]
    exact List.length_pos_iff.mpr nonempty
  · exact (closes_iff.mp closed).1

/-- Nothing of a run is lost between its field and its comparator. -/
theorem fieldWords_append_suffix (run : List String) :
    fieldWords run ++ (atEnd run).suffix = run := by
  obtain ⟨field, split⟩ := suffix_atEnd run
  have start : fieldWords run = field := by
    have count := congrArg List.length split
    rw [List.length_append] at count
    rw [fieldWords, show run.length - (atEnd run).suffix.length = field.length by omega,
      ← split, List.take_left]
  rw [start, split]

/-- The field words of a field followed by its comparator are those of the
field. -/
theorem fieldWords_append {field : List String} {comparator : Comparator}
    (found : atEnd (field ++ comparator.suffix) = comparator) :
    fieldWords (field ++ comparator.suffix) = field := by
  have whole := fieldWords_append_suffix (field ++ comparator.suffix)
  rw [found] at whole
  exact List.append_cancel_right whole

end Comparator

end NamedQuery
