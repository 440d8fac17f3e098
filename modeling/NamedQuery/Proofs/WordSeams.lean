import NamedQuery.Proofs.WordCuts
import NamedQuery.Vocabulary.Comparator
import NamedQuery.Vocabulary.Keyword
import NamedQuery.Vocabulary.UpdateOperator

/-!
# Identifiers put together from words

Two texts that meet where a word starts are cut apart from each other: what stands on
one side of the seam changes nothing on the other.  A name that is put together from
capitalised words, as all words of the vocabulary are, is therefore read back as these
words.
-/

namespace NamedQuery

open Text

/-! ## Seams -/

/-- Two texts meet where a word starts: the second starts with a capital, and the first
ends in a small letter, in a digit, or in a capital while a small letter comes second. -/
def Seam (first second : List Char) : Prop :=
  ∃ before c, first.getLast? = some before ∧ second.head? = some c ∧
    isUpper c ∧ ¬ isLower c ∧
    (isLower before ∨ isDigit before ∨
      (isUpper before ∧ ∃ next, second[1]? = some next ∧ isLower next))

theorem seam_cons_cons_iff {c d : Char} {rest second : List Char} :
    Seam (c :: d :: rest) second ↔ Seam (d :: rest) second := by
  unfold Seam
  rw [List.getLast?_cons_cons]

/-- At a seam, the first character of the second text starts a word. -/
theorem Seam.startsWord {before c : Char} {rest : List Char} (seam : Seam [before] (c :: rest)) :
    startsWord before c rest.head? = true := by
  obtain ⟨_, _, ⟨⟩, ⟨⟩, capital, -, context⟩ := seam
  rw [startsWord_iff]
  exact ⟨capital, by simpa [List.head?_eq_getElem?] using context⟩

/-- What comes after a seam starts no word before it: the capital at the seam is no small
letter for the character that looks ahead. -/
theorem Seam.startsWord_append {c d : Char} {rest second : List Char}
    (seam : Seam (c :: d :: rest) second) :
    NamedQuery.startsWord c d (rest ++ second).head? =
      NamedQuery.startsWord c d rest.head? := by
  obtain ⟨_, capital, -, start, -, notSmall, -⟩ := seam
  cases rest with
  | nil => simp [NamedQuery.startsWord, start, notSmall]
  | cons next others => rfl

/-- The pieces of two texts that meet at a seam are those of the first and those of the
second. -/
theorem pieces_append {first second : List Char} (seam : Seam first second) :
    pieces (first ++ second) = pieces first ++ pieces second := by
  induction first using pieces.induct with
  | case1 =>
      obtain ⟨_, _, last, -⟩ := seam
      cases last
  | case2 c =>
      cases second with
      | nil =>
          obtain ⟨_, _, -, start, -⟩ := seam
          cases start
      | cons d rest =>
          show pieces (c :: d :: rest) = [c] :: pieces (d :: rest)
          rw [pieces, if_pos seam.startsWord]
  | case3 c d rest starts ih =>
      rw [List.cons_append, List.cons_append, pieces, seam.startsWord_append, if_pos starts,
        ← List.cons_append, ih (seam_cons_cons_iff.mp seam), pieces, if_pos starts]
      rfl
  | case4 c d rest inside none ih => exact absurd none (pieces_ne_nil d rest)
  | case5 c d rest inside word others found ih =>
      rw [List.cons_append, List.cons_append, pieces, seam.startsWord_append, if_neg inside,
        ← List.cons_append, ih (seam_cons_cons_iff.mp seam), pieces, if_neg inside, found]
      rfl

theorem words_append {first second : String} (seam : Seam first.toList second.toList) :
    words (first ++ second) = words first ++ words second := by
  rw [words, String.toList_append, pieces_append seam, List.map_append]
  rfl

/-! ## Capitalised words -/

/-- Whether a word is a capital followed by one or more small letters. -/
def isCapitalised (word : String) : Bool :=
  match word.toList with
  | c :: d :: rest =>
      isUpper c && !isLower c && (d :: rest).all fun small => isLower small && !isUpper small
  | _ => false

theorem isCapitalised_iff {word : String} :
    isCapitalised word = true ↔ ∃ c tail, word.toList = c :: tail ∧ tail ≠ [] ∧
      isUpper c ∧ ¬ isLower c ∧ ∀ small ∈ tail, isLower small ∧ ¬ isUpper small := by
  unfold isCapitalised
  split
  · next c d rest spelled => simp [spelled, and_assoc]
  · next other =>
      refine iff_of_false Bool.false_ne_true ?_
      rintro ⟨c, tail, spelled, more, -⟩
      obtain ⟨d, rest, rfl⟩ := List.exists_cons_of_ne_nil more
      exact other c d rest spelled

/-- Without a further capital there is one piece. -/
theorem pieces_cons_of_small {c : Char} {tail : List Char} (small : ∀ d ∈ tail, ¬ isUpper d) :
    pieces (c :: tail) = [c :: tail] := by
  induction tail generalizing c with
  | nil => rfl
  | cons d rest ih =>
      obtain ⟨first, later⟩ := List.forall_mem_cons.mp small
      have inside : ¬ startsWord c d rest.head? = true := fun starts =>
        first (startsWord_iff.mp starts).1
      rw [pieces, if_neg inside, ih later]

theorem words_of_isCapitalised {word : String} (capitalised : isCapitalised word = true) :
    words word = [word] := by
  obtain ⟨c, tail, spelled, -, -, -, small⟩ := isCapitalised_iff.mp capitalised
  rw [words, spelled, pieces_cons_of_small fun d member => (small d member).2, ← spelled,
    List.map_singleton, String.ofList_toList]

/-- After a capitalised word, a text that starts with another one starts a word. -/
theorem seam_of_isCapitalised {word next : String} (text : String)
    (capitalised : isCapitalised word = true) (follows : isCapitalised next = true) :
    Seam word.toList (next ++ text).toList := by
  obtain ⟨c, tail, spelled, more, -, -, small⟩ := isCapitalised_iff.mp capitalised
  obtain ⟨d, rest, start, -, capital, notSmall, -⟩ := isCapitalised_iff.mp follows
  refine ⟨tail.getLast more, d, ?_, ?_, capital, notSmall, ?_⟩
  · rw [spelled, List.getLast?_cons, List.getLast?_eq_some_getLast more]
    rfl
  · rw [String.toList_append, start]
    rfl
  · exact .inl (small _ (List.getLast_mem more)).1

/-- Capitalised words are read back from the name that they spell. -/
theorem words_spell {tokens : List String}
    (capitalised : ∀ token ∈ tokens, isCapitalised token = true) :
    words (spell tokens) = tokens := by
  induction tokens with
  | nil => rfl
  | cons token rest ih =>
      obtain ⟨first, later⟩ := List.forall_mem_cons.mp capitalised
      cases rest with
      | nil => rw [spell_singleton, words_of_isCapitalised first]
      | cons next others =>
          have seam : Seam token.toList (spell (next :: others)).toList :=
            seam_of_isCapitalised (spell others) first (List.forall_mem_cons.mp later).1
          rw [spell, words_append seam, words_of_isCapitalised first, ih later]
          rfl

/-! ## ASCII letters -/

/-- A set whose later ranges start at a bound is its first range below that bound. -/
theorem contains_of_below {range : CharRange} {bound : Nat} {c : Char} (others : CharSet)
    (later : others.all (fun other => bound ≤ other.first) = true) (below : c.toNat < bound) :
    CharSet.contains (range :: others) c = range.contains c.toNat := by
  have outside : others.any (fun other => other.contains c.toNat) = false := by
    rw [List.any_eq_false]
    intro other member
    have start := List.all_eq_true.mp later other member
    rw [decide_eq_true_eq] at start
    simp only [CharRange.contains, Bool.and_eq_true, decide_eq_true_eq]
    omega
  rw [CharSet.contains, List.any_cons, outside, Bool.or_false]

theorem contains_step_one_iff {first last code : Nat} :
    CharRange.contains ⟨first, last, 1⟩ code = true ↔ first ≤ code ∧ code ≤ last := by
  simp [CharRange.contains, Nat.mod_one]

theorem isUpper_of_ascii {c : Char} (ascii : c.toNat < 0x80) :
    isUpper c = CharRange.contains ⟨0x41, 0x5a, 1⟩ c.toNat :=
  contains_of_below uppercase.tail (by decide +kernel) ascii

theorem isLower_of_ascii {c : Char} (ascii : c.toNat < 0x80) :
    isLower c = CharRange.contains ⟨0x61, 0x7a, 1⟩ c.toNat :=
  contains_of_below lowercase.tail (by decide +kernel) ascii

theorem capital_of_ascii {c : Char} (capital : c.isUpper = true) :
    isUpper c = true ∧ ¬ isLower c = true := by
  have bounds : 0x41 ≤ c.toNat ∧ c.toNat ≤ 0x5a := of_decide_eq_true capital
  have ascii : c.toNat < 0x80 := by omega
  rw [isUpper_of_ascii ascii, isLower_of_ascii ascii]
  rw [contains_step_one_iff, contains_step_one_iff]
  omega

theorem small_of_ascii {c : Char} (small : c.isLower = true) :
    isLower c = true ∧ ¬ isUpper c = true := by
  have bounds : 0x61 ≤ c.toNat ∧ c.toNat ≤ 0x7a := by
    obtain ⟨least, greatest⟩ := Bool.and_eq_true_iff.mp small
    exact ⟨of_decide_eq_true least, of_decide_eq_true greatest⟩
  have ascii : c.toNat < 0x80 := by omega
  rw [isUpper_of_ascii ascii, isLower_of_ascii ascii]
  rw [contains_step_one_iff, contains_step_one_iff]
  omega

/-- Whether a word is an ASCII capital followed by one or more ASCII small letters. -/
def isAsciiWord (word : String) : Bool :=
  match word.toList with
  | c :: d :: rest => c.isUpper && (d :: rest).all Char.isLower
  | _ => false

theorem isCapitalised_of_isAsciiWord {word : String} (ascii : isAsciiWord word = true) :
    isCapitalised word = true := by
  unfold isAsciiWord at ascii
  split at ascii
  · next c d rest spelled =>
      rw [Bool.and_eq_true, List.all_eq_true] at ascii
      obtain ⟨capital, notSmall⟩ := capital_of_ascii ascii.1
      exact isCapitalised_iff.mpr ⟨c, d :: rest, spelled, List.cons_ne_nil d rest, capital,
        notSmall, fun small member => small_of_ascii (ascii.2 small member)⟩
  · cases ascii

/-! ## The vocabulary -/

/-- The words that a method name is put together from, beside the names of fields. -/
inductive Reserved : String → Prop where
  | keyword (keyword : Keyword) : Reserved keyword.spelling
  | comparator (comparator : Comparator) {word : String} (listed : word ∈ comparator.suffix) :
      Reserved word
  | operator (operator : UpdateOperator) : Reserved operator.spelling

theorem Reserved.isAsciiWord {word : String} (reserved : Reserved word) :
    isAsciiWord word = true := by
  cases reserved with
  | keyword keyword => cases keyword <;> rfl
  | comparator comparator listed =>
      have each : comparator.suffix.all NamedQuery.isAsciiWord = true := by
        cases comparator <;> rfl
      exact List.all_eq_true.mp each word listed
  | operator operator => cases operator <;> rfl

/-- Texts that meet where a word starts have the words of the first and then those of the
second.  A name that is put together from reserved and capitalised words has exactly these
words. -/
theorem words_of_parts :
    (∀ first second : String, Seam first.toList second.toList →
      words (first ++ second) = words first ++ words second) ∧
    ∀ tokens : List String, (∀ token ∈ tokens, Reserved token ∨ isCapitalised token = true) →
      words (spell tokens) = tokens := by
  refine ⟨fun first second seam => words_append seam, ?_⟩
  intro tokens known
  refine words_spell fun token member => ?_
  rcases known token member with reserved | capitalised
  · exact isCapitalised_of_isAsciiWord reserved.isAsciiWord
  · exact capitalised

/-- A run of capitals ends at a seam, and a word need not be of ASCII letters. -/
theorem delete_by_id_or_street :
    Seam "DeleteByID".toList "In".toList ∧
      words ("DeleteByID" ++ "In") = words "DeleteByID" ++ words "In" ∧
      words (spell ["Delete", "By", "Straße", "Not", "In"]) =
        ["Delete", "By", "Straße", "Not", "In"] := by
  have seam : Seam "DeleteByID".toList "In".toList :=
    ⟨'D', 'I', rfl, rfl, (capital_of_ascii rfl).1, (capital_of_ascii rfl).2,
      .inr (.inr ⟨(capital_of_ascii rfl).1, 'n', rfl, (small_of_ascii rfl).1⟩)⟩
  refine ⟨seam, words_of_parts.1 _ _ seam, words_of_parts.2 _ ?_⟩
  have street : isCapitalised "Straße" = true := by decide +kernel
  simp only [List.mem_cons, List.not_mem_nil, or_false]
  rintro token (rfl | rfl | rfl | rfl | rfl)
  · exact .inl (.keyword .delete)
  · exact .inl (.keyword .byClause)
  · exact .inr street
  · exact .inl (.comparator .noneOf List.mem_cons_self)
  · exact .inl (.comparator .oneOf List.mem_cons_self)

end NamedQuery
