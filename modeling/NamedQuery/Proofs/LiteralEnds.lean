import NamedQuery.Code.File
import NamedQuery.Proofs.Literal
import NamedQuery.Proofs.Tag

/-!
# Where a string literal ends

Nothing in a text can end its literal: between the quotes at both ends, each quote is
escaped and no control character stands.  Reading the literal gives the text back, so two
texts never have the same literal, and a line of an import tells the path, whatever name
stands before it.
-/

namespace NamedQuery

namespace Text

open Tag (Quotable)

/-! ## Escaped quotes -/

/-- Whether a character that follows is escaped.  A backslash escapes one character, which
may be another backslash. -/
def escapesNext : List Char → Bool
  | [] => false
  | ['\\'] => true
  | '\\' :: _ :: rest => escapesNext rest
  | _ :: rest => escapesNext rest

theorem escapesNext_cons {c : Char} (plain : c ≠ '\\') (rest : List Char) :
    escapesNext (c :: rest) = escapesNext rest := by
  simp [escapesNext, plain]

theorem getLast?_of_escapesNext {before : List Char} (escapes : escapesNext before = true) :
    before.getLast? = some '\\' := by
  fun_induction escapesNext before with
  | case1 => cases escapes
  | case2 => rfl
  | case3 c rest ih =>
      rw [List.getLast?_cons, List.getLast?_cons, ih escapes]
      rfl
  | case4 c rest single pair ih =>
      rw [List.getLast?_cons, ih escapes]
      rfl

/-- A quote in a text that can stand between quotes is escaped. -/
theorem escapesNext_of_quotable {text : List Char} (quotable : Quotable text)
    {before after : List Char} (split : text = before ++ '"' :: after) :
    escapesNext before = true := by
  induction quotable generalizing before with
  | nil => cases before <;> cases split
  | plain unquoted unshielding later ih =>
      cases before with
      | nil => exact absurd (List.cons.inj split).1 unquoted
      | cons c others =>
          obtain ⟨rfl, rest⟩ := List.cons.inj split
          rw [escapesNext_cons unshielding]
          exact ih rest
  | shielded c later ih =>
      cases before with
      | nil => exact absurd (List.cons.inj split).1 (by decide)
      | cons shield others =>
          obtain ⟨rfl, rest⟩ := List.cons.inj split
          cases others with
          | nil => rfl
          | cons next more =>
              change escapesNext more = true
              exact ih (List.cons.inj rest).2

/-! ## Characters of a literal -/

/-- The characters of a literal between its quotes. -/
def literalBody (text : String) : List Char := text.toList.flatMap escaped

theorem toList_literal (text : String) :
    (literal text).toList = '"' :: literalBody text ++ ['"'] := String.toList_ofList

theorem hexDigit_plain : ∀ n < 16,
    hexDigit n ≠ '"' ∧ hexDigit n ≠ '\\' ∧ 0x20 ≤ (hexDigit n).toNat := by
  decide

theorem printed_of_escape? {letter c : Char} (known : escape? letter = some c) :
    0x20 ≤ letter.toNat := by
  unfold escape? at known
  split at known <;> cases known <;> decide

theorem quotable_escaped (c : Char) : Quotable (escaped c) := by
  rcases escaped_cases c with ⟨letter, -, written⟩ | ⟨control, written⟩ |
      ⟨quote, backslash, -, written⟩
  · rw [written]
    exact .shielded letter .nil
  · obtain ⟨highQuote, highShield, -⟩ := hexDigit_plain (c.toNat / 16) (by omega)
    obtain ⟨lowQuote, lowShield, -⟩ := hexDigit_plain (c.toNat % 16) (by omega)
    rw [written]
    apply Quotable.shielded
    apply Quotable.plain (by decide) (by decide)
    apply Quotable.plain (by decide) (by decide)
    exact .plain highQuote highShield (.plain lowQuote lowShield .nil)
  · rw [written]
    exact .plain quote backslash .nil

theorem printed_escaped (c : Char) : ∀ d ∈ escaped c, 0x20 ≤ d.toNat := by
  rcases escaped_cases c with ⟨letter, known, written⟩ | ⟨control, written⟩ |
      ⟨-, -, printed, written⟩
  · rw [written]
    simpa using printed_of_escape? known
  · obtain ⟨-, -, high⟩ := hexDigit_plain (c.toNat / 16) (by omega)
    obtain ⟨-, -, low⟩ := hexDigit_plain (c.toNat % 16) (by omega)
    rw [written]
    simpa using ⟨high, low⟩
  · rw [written]
    simpa using printed

theorem quotable_literalBody (text : String) : Quotable (literalBody text) := by
  unfold literalBody
  induction text.toList with
  | nil => exact .nil
  | cons c rest ih =>
      rw [List.flatMap_cons]
      exact (quotable_escaped c).append ih

theorem printed_literal (text : String) : ∀ c ∈ (literal text).toList, 0x20 ≤ c.toNat := by
  intro c member
  rw [toList_literal, List.mem_append, List.mem_cons, List.mem_singleton] at member
  rcases member with (rfl | inside) | rfl
  · decide
  · obtain ⟨source, -, written⟩ := List.mem_flatMap.mp inside
    exact printed_escaped source c written
  · decide

/-- A literal of a text that nothing in the text can end. -/
structure Sealed (text written : String) : Prop where
  /-- Quotes stand at both ends, and each quote between them is escaped. -/
  enclosed : ∃ body : List Char, written.toList = '"' :: body ++ ['"'] ∧
    ∀ before after, body = before ++ '"' :: after → escapesNext before = true
  /-- No control character stands anywhere. -/
  printed : ∀ c ∈ written.toList, 0x20 ≤ c.toNat
  /-- Reading the literal gives the text. -/
  read : unquoted? written = some text

theorem sealed_literal (text : String) : Sealed text (literal text) where
  enclosed := by
    refine ⟨literalBody text, toList_literal text, ?_⟩
    intro before after split
    exact escapesNext_of_quotable (quotable_literalBody text) split
  printed := printed_literal text
  read := unquoted?_literal text

/-! ## Telling literals apart -/

theorem literal_injective {text other : String} (same : literal text = literal other) :
    text = other := by
  have read := unquoted?_literal text
  rw [same, unquoted?_literal] at read
  exact (Option.some.inj read).symm

/-- A literal that goes on to the end of a line does not start inside another one. -/
theorem eq_nil_of_literal_inside {lead middle inner outer : List Char} (quotable : Quotable outer)
    (inside : '"' :: outer = middle ++ '"' :: inner)
    (blank : ∀ c, (lead ++ middle).getLast? = some c → c = ' ') : middle = [] := by
  cases middle with
  | nil => rfl
  | cons quote rest =>
      -- The second quote would be inside the outer literal, and so after a backslash.
      obtain ⟨-, split⟩ := List.cons.inj inside
      have last := getLast?_of_escapesNext (escapesNext_of_quotable quotable split)
      have shield := blank '\\' (by simp [List.getLast?_append, List.getLast?_cons, last])
      exact absurd shield (by decide)

/-- The literal at the end of a line tells its text when nothing or a blank is before it. -/
theorem eq_of_append_literal {first second : List Char} {text other : String}
    (firstBlank : ∀ c, first.getLast? = some c → c = ' ')
    (secondBlank : ∀ c, second.getLast? = some c → c = ' ')
    (same : first ++ (literal text).toList = second ++ (literal other).toList) :
    text = other := by
  have bodies : literalBody text = literalBody other := by
    rw [toList_literal, toList_literal, ← List.append_assoc, ← List.append_assoc] at same
    rcases List.append_eq_append_iff.mp (List.append_cancel_right same) with
      ⟨middle, rfl, split⟩ | ⟨middle, rfl, split⟩
    · have none := eq_nil_of_literal_inside (quotable_literalBody text) split secondBlank
      rw [none] at split
      exact (List.cons.inj split).2
    · have none := eq_nil_of_literal_inside (quotable_literalBody other) split firstBlank
      rw [none] at split
      exact (List.cons.inj split).2.symm
  apply literal_injective
  rw [← String.toList_inj, toList_literal, toList_literal, bodies]

end Text

namespace Code

open Text

theorem Expr.lines_string (text : String) :
    (Expr.string text).lines = single (literal text) := by
  rw [Expr.string, Expr.lines]

theorem GoFile.toList_importText (entry : Import) :
    ∃ lead : List Char, (∀ c, lead.getLast? = some c → c = ' ') ∧
      (importText entry).toList = lead ++ (literal entry.path).toList := by
  unfold importText
  cases entry.localName with
  | none =>
      refine ⟨[], ?_, (List.nil_append _).symm⟩
      intro c last
      cases last
  | some name =>
      refine ⟨name.toList ++ [' '], ?_, ?_⟩
      · intro c last
        rw [List.getLast?_concat] at last
        exact (Option.some.inj last).symm
      · rw [String.toList_append, String.toList_append]
        rfl

theorem GoFile.path_of_importText {first second : Import}
    (same : importText first = importText second) : first.path = second.path := by
  obtain ⟨lead, blank, written⟩ := toList_importText first
  obtain ⟨otherLead, otherBlank, otherWritten⟩ := toList_importText second
  apply eq_of_append_literal blank otherBlank
  rw [← written, ← otherWritten, same]

/-- A string literal has quotes at both ends, only escaped quotes between them and no
control characters, and reading it gives its text.  An import is written as the same
literal of its path, perhaps after a name and a blank.  Different texts, such as paths in
documents, have different literals, and imports of different paths have different lines. -/
theorem string_sealed :
    (∀ text : String, ∃ written : String,
      (Expr.string text).lines = single written ∧ Sealed text written ∧
      GoFile.importText ⟨none, text⟩ = written ∧
      ∀ name, GoFile.importText ⟨some name, text⟩ = name ++ " " ++ written) ∧
    (∀ text other : String,
      (Expr.string text).lines = (Expr.string other).lines ↔ text = other) ∧
    ∀ first second : Import,
      GoFile.importText first = GoFile.importText second → first.path = second.path := by
  refine ⟨?_, ?_, ?_⟩
  · intro text
    refine ⟨literal text, Expr.lines_string text, sealed_literal text, rfl, ?_⟩
    intro name
    rfl
  · intro text other
    constructor
    · intro same
      rw [Expr.lines_string, Expr.lines_string] at same
      apply literal_injective
      exact congrArg Line.text (List.cons.inj same).1
    · rintro rfl
      rfl
  · intro first second same
    exact GoFile.path_of_importText same

example : literal "a\"\\\x01" = "\"a\\\"\\\\\\u0001\"" := by
  decide

end Code

end NamedQuery
