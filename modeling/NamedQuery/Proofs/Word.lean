import NamedQuery.Text.Basic
import NamedQuery.Word

/-!
# Words and the texts they spell

Cutting an identifier into words loses nothing: the words spell the identifier
again.  Cutting words into runs at a separator is undone by putting the separator
back between the runs, and the text of runs with separators between them is the
text of the runs joined by the separator.
-/

namespace NamedQuery

open Text

/-! ## Spelling -/

theorem spell_append (first second : List String) :
    spell (first ++ second) = spell first ++ spell second := by
  induction first with
  | nil => simp [spell]
  | cons word rest ih => simp [spell, ih, String.append_assoc]

theorem spell_singleton (word : String) : spell [word] = word := by
  simp [spell]

theorem flatten_pieces (text : List Char) : (pieces text).flatten = text := by
  induction text using pieces.induct with
  | case1 => rfl
  | case2 c => rfl
  | case3 c d rest starts ih =>
      rw [pieces, if_pos starts, List.flatten_cons, ih]
      rfl
  | case4 c d rest inside none ih =>
      rw [none] at ih
      cases ih
  | case5 c d rest inside word others found ih =>
      rw [found] at ih
      rw [pieces, if_neg inside, found, ← ih]
      rfl

theorem spell_map_ofList (groups : List (List Char)) :
    spell (groups.map String.ofList) = String.ofList groups.flatten := by
  induction groups with
  | nil => rfl
  | cons group rest ih => simp [spell, ih, String.ofList_append]

/-- The words of an identifier spell it. -/
theorem spell_words (identifier : String) : spell (words identifier) = identifier := by
  rw [words, spell_map_ofList, flatten_pieces, String.ofList_toList]

/-- Runs with a separator between them spell the texts of the runs, joined by the
separator. -/
theorem spell_intercalate (separator : String) (groups : List (List String)) :
    spell ([separator].intercalate groups) = joined separator (groups.map spell) := by
  induction groups with
  | nil => rfl
  | cons first rest ih =>
      cases rest with
      | nil => simp [joined]
      | cons second others =>
          rw [List.intercalate_cons_cons, spell_append, spell_append, spell_singleton, ih]
          rfl

/-! ## Runs -/

theorem runs_eq_splitOn (separator : String) (words : List String) :
    runs separator words = words.splitOn separator := by
  induction words with
  | nil => rfl
  | cons word rest ih =>
      rw [runs, List.splitOn_cons_eq_if_modifyHead, ih]
      by_cases same : word = separator
      · simp [same]
      · have nonempty := List.splitOn_ne_nil separator rest
        cases found : rest.splitOn separator with
        | nil => exact absurd found nonempty
        | cons run others => simp [same]

theorem runs_ne_nil (separator : String) (words : List String) : runs separator words ≠ [] := by
  rw [runs_eq_splitOn]
  exact List.splitOn_ne_nil separator words

/-- Putting the separator back between the runs gives the words. -/
theorem intercalate_runs (separator : String) (words : List String) :
    [separator].intercalate (runs separator words) = words := by
  rw [runs_eq_splitOn]
  exact List.intercalate_splitOn separator

/-- Runs without the separator are found again between the separators. -/
theorem runs_intercalate {separator : String} {groups : List (List String)}
    (nonempty : groups ≠ []) (apart : ∀ run ∈ groups, separator ∉ run) :
    runs separator ([separator].intercalate groups) = groups := by
  rw [runs_eq_splitOn]
  exact List.splitOn_intercalate separator apart nonempty

/-- A word of joined runs is a separator, or a word of one of the runs. -/
theorem mem_of_mem_intercalate {separator word : String} {groups : List (List String)}
    (member : word ∈ [separator].intercalate groups) :
    word = separator ∨ ∃ run ∈ groups, word ∈ run := by
  induction groups with
  | nil => cases member
  | cons first rest ih =>
      cases rest with
      | nil =>
          rw [List.intercalate_singleton] at member
          exact .inr ⟨first, List.mem_cons_self, member⟩
      | cons second others =>
          rw [List.intercalate_cons_cons, List.append_assoc, List.mem_append] at member
          rcases member with inFirst | later
          · exact .inr ⟨first, List.mem_cons_self, inFirst⟩
          · rw [List.singleton_append, List.mem_cons] at later
            rcases later with same | inRest
            · exact .inl same
            · rcases ih inRest with same | ⟨run, listed, inside⟩
              · exact .inl same
              · exact .inr ⟨run, List.mem_cons_of_mem first listed, inside⟩

end NamedQuery
