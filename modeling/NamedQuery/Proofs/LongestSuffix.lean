import NamedQuery.Proofs.Vocabulary

/-!
# The longest comparator at the end of a run

Comparators are tried in a fixed order, and it is not an order by length.  It never tries
the tail of another comparator before that comparator, and this is enough for the longest
one to be found that leaves a word for the field.  So a comparator after a field is read
back, unless the field ends in `Not` and there is a comparator that starts with it.
-/

namespace NamedQuery.Comparator

/-- The words of a comparator, at least one of them, end a run and leave a word before
them. -/
structure Fits (comparator : Comparator) (run : List String) : Prop where
  written : comparator.suffix ≠ []
  ends : comparator.suffix <:+ run
  shorter : comparator.suffix.length < run.length

/-! ## The order -/

theorem suffix_eq_nil_iff {comparator : Comparator} :
    comparator.suffix = [] ↔ comparator = .equal := by
  cases comparator <;> simp [suffix]

theorem mem_matchOrder_iff {comparator : Comparator} :
    comparator ∈ matchOrder ↔ comparator ≠ .equal := by
  cases comparator <;> decide

/-- No comparator comes before one that ends in its words. -/
theorem matchOrder_pairwise :
    matchOrder.Pairwise fun earlier later => ¬ earlier.suffix <:+ later.suffix := by
  decide

theorem fits_iff {comparator : Comparator} {run : List String} :
    comparator.Fits run ↔ comparator ∈ matchOrder ∧ comparator.closes run = true := by
  rw [mem_matchOrder_iff, closes_iff, ne_eq, ← suffix_eq_nil_iff]
  constructor
  · rintro ⟨written, ends, shorter⟩
    exact ⟨written, shorter, ends⟩
  · rintro ⟨written, shorter, ends⟩
    exact ⟨written, ends, shorter⟩

/-! ## The comparator that is found -/

theorem atEnd_eq_equal_iff {run : List String} :
    atEnd run = .equal ↔ ¬ ∃ comparator : Comparator, comparator.Fits run := by
  rcases atEnd_cases run with ⟨unmarked, none⟩ | ⟨closed, before, after, order, -⟩
  · refine iff_of_true unmarked ?_
    rintro ⟨comparator, fits⟩
    obtain ⟨tried, closes⟩ := fits_iff.mp fits
    exact none comparator tried closes
  · have tried : atEnd run ∈ matchOrder := order ▸ List.mem_append_cons_self
    refine iff_of_false (mem_matchOrder_iff.mp tried) ?_
    intro none
    exact none ⟨_, fits_iff.mpr ⟨tried, closed⟩⟩

theorem Fits.fits_atEnd {comparator : Comparator} {run : List String}
    (fits : comparator.Fits run) : (atEnd run).Fits run := by
  have found : atEnd run ≠ .equal := by
    intro unmarked
    exact atEnd_eq_equal_iff.mp unmarked ⟨comparator, fits⟩
  rcases atEnd_cases run with ⟨unmarked, -⟩ | ⟨closed, -⟩
  · exact absurd unmarked found
  · exact fits_iff.mpr ⟨mem_matchOrder_iff.mpr found, closed⟩

/-- The words of every comparator that fits a run end those of the one that is found. -/
theorem Fits.suffix_atEnd {comparator : Comparator} {run : List String}
    (fits : comparator.Fits run) : comparator.suffix <:+ (atEnd run).suffix := by
  obtain ⟨tried, closes⟩ := fits_iff.mp fits
  rcases atEnd_cases run with ⟨-, none⟩ | ⟨closed, before, after, order, earlier⟩
  · exact absurd closes (none comparator tried)
  · have ends := (closes_iff.mp closed).2
    rw [order, List.mem_append, List.mem_cons] at tried
    rcases tried with before | same | later
    · exact absurd closes (earlier comparator before)
    · exact same ▸ List.suffix_rfl
    · -- Of two tails of one run the shorter ends the longer, and the one found comes first.
      have apart : ¬ (atEnd run).suffix <:+ comparator.suffix := by
        have pairs := matchOrder_pairwise
        rw [order, List.pairwise_append, List.pairwise_cons] at pairs
        exact pairs.2.1.1 comparator later
      apply List.suffix_of_suffix_length_le fits.ends ends
      apply Nat.le_of_not_le
      intro longer
      exact apart (List.suffix_of_suffix_length_le ends fits.ends longer)

/-! ## A field and its comparator -/

/-- The comparators with words that end in those of another one. -/
theorem eq_or_negated_of_suffix {comparator longer : Comparator} (written : comparator ≠ .equal)
    (tail : comparator.suffix <:+ longer.suffix) :
    longer = comparator ∨
      (comparator = .oneOf ∨ comparator = .present) ∧
        longer.suffix = "Not" :: comparator.suffix := by
  revert written tail
  cases comparator <;> cases longer <;> decide

theorem exists_negated {comparator : Comparator}
    (negatable : comparator = .oneOf ∨ comparator = .present) :
    ∃ longer : Comparator, longer.suffix = "Not" :: comparator.suffix := by
  rcases negatable with rfl | rfl
  · exact ⟨.noneOf, rfl⟩
  · exact ⟨.absent, rfl⟩

/-- When `Not` before a comparator is taken for a part of the comparator. -/
theorem fits_negated_iff {comparator longer : Comparator} {field : List String}
    (negated : longer.suffix = "Not" :: comparator.suffix) :
    longer.Fits (field ++ comparator.suffix) ↔
      2 ≤ field.length ∧ field.getLast? = some "Not" := by
  have tail : longer.suffix <:+ field ++ comparator.suffix ↔ field.getLast? = some "Not" := by
    rw [negated, ← List.singleton_append, List.suffix_append_self_iff, List.getLast?_eq_some_iff]
    constructor
    · rintro ⟨start, split⟩
      exact ⟨start, split.symm⟩
    · rintro ⟨start, split⟩
      exact ⟨start, split.symm⟩
  have room : longer.suffix.length < (field ++ comparator.suffix).length ↔ 2 ≤ field.length := by
    rw [negated, List.length_cons, List.length_append]
    omega
  constructor
  · rintro ⟨-, ends, shorter⟩
    exact ⟨room.mp shorter, tail.mp ends⟩
  · rintro ⟨long, last⟩
    exact ⟨negated ▸ List.cons_ne_nil _ _, tail.mpr last, room.mpr long⟩

theorem fits_append {field : List String} (nonempty : field ≠ []) {comparator : Comparator}
    (written : comparator ≠ .equal) : comparator.Fits (field ++ comparator.suffix) where
  written := mt suffix_eq_nil_iff.mp written
  ends := List.suffix_append field comparator.suffix
  shorter := by
    rw [List.length_append]
    exact Nat.lt_add_of_pos_left (List.length_pos_iff.mpr nonempty)

theorem atEnd_append_iff {field : List String} (nonempty : field ≠ []) {comparator : Comparator}
    (written : comparator ≠ .equal) :
    atEnd (field ++ comparator.suffix) = comparator ↔
      ¬ ((comparator = .oneOf ∨ comparator = .present) ∧
        2 ≤ field.length ∧ field.getLast? = some "Not") := by
  have fits := fits_append nonempty written
  constructor
  · rintro found ⟨negatable, swallowed⟩
    obtain ⟨longer, negated⟩ := exists_negated negatable
    have tail := ((fits_negated_iff negated).mpr swallowed).suffix_atEnd
    rw [found, negated] at tail
    exact absurd tail.length_le (Nat.not_succ_le_self _)
  · intro kept
    rcases eq_or_negated_of_suffix written fits.suffix_atEnd with same | ⟨negatable, negated⟩
    · exact same
    · exact absurd ⟨negatable, (fits_negated_iff negated).mp fits.fits_atEnd⟩ kept

/-- A run is its field and the longest comparator that leaves a word for the field, or has
none when no comparator does.  A field and a comparator after it are told apart, except
where `Not` at the end of a longer field makes another comparator. -/
theorem atEnd_longest :
    (∀ run : List String,
      fieldWords run ++ (atEnd run).suffix = run ∧
      (run = [] ∧ (atEnd run).suffix.length = 0 ∨ (atEnd run).suffix.length < run.length) ∧
      (∀ comparator : Comparator, comparator.Fits run →
        comparator.suffix.length ≤ (atEnd run).suffix.length) ∧
      (atEnd run = .equal ↔ ¬ ∃ comparator : Comparator, comparator.Fits run)) ∧
    ∀ (field : List String) (comparator : Comparator), field ≠ [] → comparator ≠ .equal →
      (atEnd (field ++ comparator.suffix) = comparator ∧
          fieldWords (field ++ comparator.suffix) = field ↔
        ¬ ((comparator = .oneOf ∨ comparator = .present) ∧
          2 ≤ field.length ∧ field.getLast? = some "Not")) := by
  constructor
  · intro run
    refine ⟨fieldWords_append_suffix run, ?_, fun _ fits => fits.suffix_atEnd.length_le,
      atEnd_eq_equal_iff⟩
    cases run with
    | nil => exact .inl ⟨rfl, rfl⟩
    | cons word rest => exact .inr (length_suffix_atEnd_lt (List.cons_ne_nil word rest))
  · intro field comparator nonempty written
    rw [← atEnd_append_iff nonempty written]
    constructor
    · rintro ⟨found, -⟩
      exact found
    · intro found
      exact ⟨found, fieldWords_append found⟩

example : atEnd ["Not", "In"] = .oneOf ∧ atEnd ["City", "Not", "In"] = .noneOf := by
  decide

end NamedQuery.Comparator
