import NamedQuery.Proofs.Word

/-!
# Where an identifier is cut

The words of an identifier are non-empty, they spell it, and they are cut at the
positions where a word starts and nowhere else.  These three facts leave one list of
words.  A word has no such position inside it, also when it stands alone, so that
its only word is itself.
-/

namespace NamedQuery

open Text

/-! ## Cuts -/

section Cuts

variable {α : Type} {groups rest others : List (List α)} {group : List α} {position : Nat}

/-- Groups are cut at a position when one group ends and another starts there. -/
def CutAt (groups : List (List α)) (position : Nat) : Prop :=
  ∃ before after, before ≠ [] ∧ after ≠ [] ∧ groups = before ++ after ∧
    before.flatten.length = position

theorem not_cutAt_nil : ¬ CutAt ([] : List (List α)) position := by
  rintro ⟨before, after, first, -, cut, -⟩
  exact first (List.append_eq_nil_iff.mp cut.symm).1

theorem cutAt_cons_iff :
    CutAt (group :: rest) position ↔
      (rest ≠ [] ∧ position = group.length) ∨
        ∃ later, CutAt rest later ∧ position = group.length + later := by
  constructor
  · rintro ⟨before, after, first, last, cut, rfl⟩
    obtain ⟨start, inner, rfl⟩ := List.exists_cons_of_ne_nil first
    obtain ⟨rfl, rfl⟩ := List.cons.inj cut
    cases inner with
    | nil => exact .inl ⟨last, by simp⟩
    | cons next inner =>
        exact .inr ⟨_, ⟨next :: inner, after, List.cons_ne_nil _ _, last, rfl, rfl⟩, by simp⟩
  · rintro (⟨more, rfl⟩ | ⟨later, ⟨before, after, first, last, rfl, rfl⟩, rfl⟩)
    · exact ⟨[group], rest, List.cons_ne_nil _ _, more, rfl, by simp⟩
    · exact ⟨group :: before, after, List.cons_ne_nil _ _, last, rfl, by simp⟩

theorem not_cutAt_single : ¬ CutAt [group] position := by
  rw [cutAt_cons_iff]
  rintro (⟨more, -⟩ | ⟨later, inside, -⟩)
  · exact more rfl
  · exact not_cutAt_nil inside

/-- One more item at the start moves the cuts by one. -/
theorem cutAt_cons_head_iff {item : α} :
    CutAt ((item :: group) :: rest) position ↔
      ∃ later, CutAt (group :: rest) later ∧ position = later + 1 := by
  simp only [cutAt_cons_iff, List.length_cons]
  constructor
  · rintro (⟨more, rfl⟩ | ⟨later, inside, rfl⟩)
    · exact ⟨_, .inl ⟨more, rfl⟩, rfl⟩
    · exact ⟨_, .inr ⟨later, inside, rfl⟩, by omega⟩
  · rintro ⟨_, ⟨more, rfl⟩ | ⟨later, inside, rfl⟩, rfl⟩
    · exact .inl ⟨more, rfl⟩
    · exact .inr ⟨later, inside, by omega⟩

theorem CutAt.length_le (cut : CutAt (group :: rest) position) : group.length ≤ position := by
  rcases cutAt_cons_iff.mp cut with ⟨-, rfl⟩ | ⟨later, -, rfl⟩
  · exact Nat.le_refl _
  · exact Nat.le_add_right _ _

theorem CutAt.pos (nonempty : ∀ group ∈ groups, group ≠ []) (cut : CutAt groups position) :
    0 < position := by
  cases groups with
  | nil => exact absurd cut not_cutAt_nil
  | cons group rest =>
      have some := List.length_pos_iff.mpr (nonempty group List.mem_cons_self)
      exact Nat.lt_of_lt_of_le some cut.length_le

/-- There is no cut inside a group. -/
theorem not_cutAt_inside {before after : List (List α)} {offset : Nat} (first : 0 < offset)
    (last : offset < group.length) :
    ¬ CutAt (before ++ group :: after) (before.flatten.length + offset) := by
  induction before with
  | nil =>
      intro cut
      have bound := CutAt.length_le cut
      simp only [List.flatten_nil, List.length_nil] at bound
      omega
  | cons start inner ih =>
      rw [List.cons_append, cutAt_cons_iff, List.flatten_cons, List.length_append]
      rintro (⟨-, here⟩ | ⟨later, inside, moved⟩)
      · omega
      · have same : later = inner.flatten.length + offset := by omega
        exact ih (same ▸ inside)

/-- Cuts of groups with a common first group are cuts of the others. -/
theorem cutAt_tail (nonempty : ∀ group ∈ rest, group ≠ [])
    (same : ∀ position, CutAt (group :: rest) position → CutAt (group :: others) position)
    (cut : CutAt rest position) : CutAt others position := by
  have positive := cut.pos nonempty
  rcases cutAt_cons_iff.mp (same _ (cutAt_cons_iff.mpr (.inr ⟨position, cut, rfl⟩))) with
    ⟨-, here⟩ | ⟨later, inside, moved⟩
  · omega
  · have equal : later = position := by omega
    exact equal ▸ inside

/-- When all cuts of groups are cuts of others, the others have no longer first group. -/
theorem length_first_le {other : List α} (more : rest ≠ [])
    (same : ∀ position, CutAt (group :: rest) position → CutAt (other :: others) position) :
    other.length ≤ group.length :=
  (same _ (cutAt_cons_iff.mpr (.inl ⟨more, rfl⟩))).length_le

/-- Non-empty groups are known from their items and their cuts. -/
theorem eq_of_cutAt_iff {first second : List (List α)} (nonempty : ∀ group ∈ first, group ≠ [])
    (nonempty' : ∀ group ∈ second, group ≠ []) (items : first.flatten = second.flatten)
    (cuts : ∀ position, CutAt first position ↔ CutAt second position) : first = second := by
  induction first generalizing second with
  | nil =>
      cases second with
      | nil => rfl
      | cons other others =>
          have empty := (List.append_eq_nil_iff.mp items.symm).1
          exact absurd empty (nonempty' other List.mem_cons_self)
  | cons group rest ih =>
      obtain ⟨start, nonemptyRest⟩ := List.forall_mem_cons.mp nonempty
      cases second with
      | nil => exact absurd (List.append_eq_nil_iff.mp items).1 start
      | cons other others =>
          obtain ⟨-, nonemptyOthers⟩ := List.forall_mem_cons.mp nonempty'
          rw [List.flatten_cons, List.flatten_cons] at items
          -- without a second group there is no cut, and else the first cut ends the first group
          have lengths : group.length = other.length := by
            by_cases last : rest = [] <;> by_cases lastOther : others = []
            · simpa [last, lastOther] using congrArg List.length items
            · subst last
              exact absurd ((cuts _).mpr (cutAt_cons_iff.mpr (.inl ⟨lastOther, rfl⟩)))
                not_cutAt_single
            · subst lastOther
              exact absurd ((cuts _).mp (cutAt_cons_iff.mpr (.inl ⟨last, rfl⟩))) not_cutAt_single
            · exact Nat.le_antisymm (length_first_le lastOther fun _ => (cuts _).mpr)
                (length_first_le last fun _ => (cuts _).mp)
          obtain ⟨rfl, tails⟩ := List.append_inj items lengths
          have same := ih nonemptyRest nonemptyOthers tails fun position =>
            ⟨cutAt_tail nonemptyRest fun _ => (cuts _).mp,
              cutAt_tail nonemptyOthers fun _ => (cuts _).mpr⟩
          rw [same]

end Cuts

/-! ## Starts of words -/

/-- A word starts at a capital that follows a small letter or a digit, or that follows a
capital and stands before a small letter. -/
def StartsWordAt (text : List Char) (position : Nat) : Prop :=
  1 ≤ position ∧ ∃ c before, text[position]? = some c ∧ text[position - 1]? = some before ∧
    isUpper c ∧
    (isLower before ∨ isDigit before ∨
      (isUpper before ∧ ∃ after, text[position + 1]? = some after ∧ isLower after))

theorem startsWord_iff {before c : Char} {after : Option Char} :
    startsWord before c after = true ↔ isUpper c ∧
      (isLower before ∨ isDigit before ∨
        (isUpper before ∧ ∃ next, after = some next ∧ isLower next)) := by
  cases after <;> simp [startsWord, or_assoc]

theorem not_startsWordAt_single {c : Char} {position : Nat} : ¬ StartsWordAt [c] position := by
  rintro ⟨first, d, -, found, -⟩
  obtain ⟨earlier, rfl⟩ := Nat.exists_eq_add_of_le first
  simp [Nat.add_comm 1] at found

theorem startsWordAt_cons_cons_iff {c d : Char} {rest : List Char} {position : Nat} :
    StartsWordAt (c :: d :: rest) position ↔
      (position = 1 ∧ startsWord c d rest.head? = true) ∨
        ∃ later, StartsWordAt (d :: rest) later ∧ position = later + 1 := by
  rw [startsWord_iff]
  constructor
  · rintro ⟨first, starts⟩
    match position, first with
    | 1, _ => exact .inl ⟨rfl, by simpa [List.head?_eq_getElem?] using starts⟩
    | later + 2, _ => exact .inr ⟨later + 1, ⟨Nat.le_add_left 1 later, starts⟩, rfl⟩
  · rintro (⟨rfl, starts⟩ | ⟨later, ⟨first, starts⟩, rfl⟩)
    · exact ⟨Nat.le_refl 1, by simpa [List.head?_eq_getElem?] using starts⟩
    · obtain ⟨earlier, rfl⟩ := Nat.exists_eq_add_of_le' first
      exact ⟨Nat.le_add_left 1 _, starts⟩

theorem StartsWordAt.lt_length {text : List Char} {position : Nat}
    (starts : StartsWordAt text position) : position < text.length := by
  obtain ⟨-, c, -, found, -⟩ := starts
  exact (List.getElem?_eq_some_iff.mp found).1

/-- A word that starts inside a part of a text starts inside the text. -/
theorem StartsWordAt.append {text : List Char} {position : Nat}
    (starts : StartsWordAt text position) (before after : List Char) :
    StartsWordAt (before ++ (text ++ after)) (before.length + position) := by
  have kept {index : Nat} {c : Char} (found : text[index]? = some c) :
      (before ++ (text ++ after))[before.length + index]? = some c := by
    rw [List.getElem?_append_right (Nat.le_add_right _ _), Nat.add_sub_cancel_left,
      List.getElem?_append_left (List.getElem?_eq_some_iff.mp found).1]
    exact found
  obtain ⟨first, c, previous, here, earlier, upper, context⟩ := starts
  refine ⟨Nat.le_add_left_of_le first, c, previous, kept here, ?_, upper, ?_⟩
  · rw [Nat.add_sub_assoc first]
    exact kept earlier
  · rcases context with lower | digit | ⟨capital, next, later, small⟩
    · exact .inl lower
    · exact .inr (.inl digit)
    · exact .inr (.inr ⟨capital, next, kept later, small⟩)

/-! ## Words -/

theorem pieces_ne_nil (c : Char) (rest : List Char) : pieces (c :: rest) ≠ [] := by
  intro none
  have spelled := flatten_pieces (c :: rest)
  rw [none] at spelled
  cases spelled

theorem ne_nil_of_mem_pieces (text : List Char) : ∀ piece ∈ pieces text, piece ≠ [] := by
  induction text using pieces.induct with
  | case1 => exact fun _ member => absurd member List.not_mem_nil
  | case2 c => simp [pieces]
  | case3 c d rest starts ih =>
      rw [pieces, if_pos starts]
      exact List.forall_mem_cons.mpr ⟨List.cons_ne_nil _ _, ih⟩
  | case4 c d rest inside none ih => exact absurd none (pieces_ne_nil d rest)
  | case5 c d rest inside word others found ih =>
      rw [found] at ih
      rw [pieces, if_neg inside, found]
      exact List.forall_mem_cons.mpr ⟨List.cons_ne_nil _ _, (List.forall_mem_cons.mp ih).2⟩

/-- The pieces of a text are cut where its words start. -/
theorem cutAt_pieces_iff (text : List Char) (position : Nat) :
    CutAt (pieces text) position ↔ StartsWordAt text position := by
  induction text using pieces.induct generalizing position with
  | case1 =>
      refine iff_of_false not_cutAt_nil ?_
      rintro ⟨-, c, -, found, -⟩
      simp at found
  | case2 c => exact iff_of_false not_cutAt_single not_startsWordAt_single
  | case3 c d rest starts ih =>
      rw [pieces, if_pos starts, cutAt_cons_iff, startsWordAt_cons_cons_iff]
      simp [pieces_ne_nil, starts, ih, Nat.add_comm 1]
  | case4 c d rest inside none ih => exact absurd none (pieces_ne_nil d rest)
  | case5 c d rest inside word others found ih =>
      rw [found] at ih
      rw [pieces, if_neg inside, found, cutAt_cons_head_iff, startsWordAt_cons_cons_iff]
      simp [inside, ih]

/-- No word starts inside a piece. -/
theorem not_startsWordAt_of_mem_pieces {text piece : List Char} (member : piece ∈ pieces text)
    (position : Nat) : ¬ StartsWordAt piece position := by
  intro starts
  obtain ⟨before, after, cut⟩ := List.append_of_mem member
  have whole : text = before.flatten ++ (piece ++ after.flatten) := by
    rw [← flatten_pieces text, cut, List.flatten_append, List.flatten_cons]
  have outside := (cutAt_pieces_iff text _).mpr
    (whole ▸ starts.append before.flatten after.flatten)
  rw [cut] at outside
  exact not_cutAt_inside starts.1 starts.lt_length outside

theorem pieces_of_mem_pieces {text piece : List Char} (member : piece ∈ pieces text) :
    pieces piece = [piece] := by
  have nonempty := ne_nil_of_mem_pieces text piece member
  refine eq_of_cutAt_iff (ne_nil_of_mem_pieces piece) (by simpa using nonempty) ?_ ?_
  · rw [flatten_pieces, List.flatten_singleton]
  · intro position
    rw [cutAt_pieces_iff]
    exact iff_of_false (not_startsWordAt_of_mem_pieces member position) not_cutAt_single

theorem toList_spell (tokens : List String) :
    (spell tokens).toList = (tokens.map String.toList).flatten := by
  induction tokens with
  | nil => rfl
  | cons token rest ih => simp [spell, ih]

theorem map_toList_words (identifier : String) :
    (words identifier).map String.toList = pieces identifier.toList := by
  simp [words, Function.comp_def]

/-- The words of an identifier are the one list of non-empty words that spell it and are
cut exactly where a word starts.  Each of them is a word by itself. -/
theorem words_cut_where_they_start (identifier : String) :
    (∀ tokens, tokens = words identifier ↔
      (∀ token ∈ tokens, token ≠ "") ∧ spell tokens = identifier ∧
        ∀ position, CutAt (tokens.map String.toList) position ↔
          StartsWordAt identifier.toList position) ∧
    ∀ token ∈ words identifier, words token = [token] := by
  refine ⟨fun tokens => ⟨?_, ?_⟩, ?_⟩
  · rintro rfl
    refine ⟨?_, spell_words identifier, ?_⟩
    · intro token member
      obtain ⟨piece, inside, rfl⟩ := List.mem_map.mp member
      simpa using ne_nil_of_mem_pieces _ piece inside
    · intro position
      rw [map_toList_words, cutAt_pieces_iff]
  · rintro ⟨nonempty, rfl, cuts⟩
    have same : tokens.map String.toList = pieces (spell tokens).toList := by
      refine eq_of_cutAt_iff ?_ (ne_nil_of_mem_pieces _) ?_ ?_
      · simpa using nonempty
      · rw [flatten_pieces, toList_spell]
      · intro position
        rw [cuts, cutAt_pieces_iff]
    rw [words, ← same]
    simp [Function.comp_def]
  · intro token member
    obtain ⟨piece, inside, rfl⟩ := List.mem_map.mp member
    rw [words, String.toList_ofList, pieces_of_mem_pieces inside]
    rfl

example : words "FindTop5ByUserIDIn" = ["Find", "Top5", "By", "User", "ID", "In"] := by
  decide +kernel

end NamedQuery
