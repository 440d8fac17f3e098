import NamedQuery.Text.Basic

/-!
# What a string literal stands for

A double-quoted literal is read from its first quote on.  A backslash starts an
escape, a line break or a quote inside the literal is an error, and every other
character stands for itself.  Reading the literal of a text gives the text back.
-/

namespace NamedQuery.Text

/-- The value of a hexadecimal digit. -/
def hexValue? (c : Char) : Option Nat :=
  if '0' ≤ c ∧ c ≤ '9' then some (c.toNat - '0'.toNat)
  else if 'a' ≤ c ∧ c ≤ 'f' then some (c.toNat - 'a'.toNat + 10)
  else if 'A' ≤ c ∧ c ≤ 'F' then some (c.toNat - 'A'.toNat + 10)
  else none

/-- The character with a code of four hexadecimal digits. -/
def codePoint? (first second third fourth : Char) : Option Char := do
  let high := 16 * (← hexValue? first) + (← hexValue? second)
  let low := 16 * (← hexValue? third) + (← hexValue? fourth)
  let code := 256 * high + low
  if code.isValidChar then some (Char.ofNat code) else none

/-- The character that a single letter stands for after a backslash. -/
def escape? : Char → Option Char
  | '"' => some '"'
  | '\\' => some '\\'
  | 'b' => some '\x08'
  | 'f' => some '\x0c'
  | 'n' => some '\n'
  | 'r' => some '\r'
  | 't' => some '\t'
  | _ => none

/-- The characters up to the closing quote, which has to come last. -/
def unescaped? : List Char → Option (List Char)
  | [] => none
  | ['"'] => some []
  | '\\' :: 'u' :: first :: second :: third :: fourth :: rest => do
      let c ← codePoint? first second third fourth
      return c :: (← unescaped? rest)
  | '\\' :: letter :: rest => do
      let c ← escape? letter
      return c :: (← unescaped? rest)
  | c :: rest =>
      if c = '"' ∨ c = '\\' ∨ c = '\n' then none else (unescaped? rest).map (c :: ·)

/-- The text that a literal stands for. -/
def unquoted? (text : String) : Option String :=
  match text.toList with
  | '"' :: rest => (unescaped? rest).map String.ofList
  | _ => none

/-! ## One character -/

/-- The ways to write a character: a letter after a backslash, a code, or the
character itself. -/
theorem escaped_cases (c : Char) :
    (∃ letter, escape? letter = some c ∧ escaped c = ['\\', letter]) ∨
    (c.toNat < 32 ∧ escaped c =
      ['\\', 'u', '0', '0', hexDigit (c.toNat / 16), hexDigit (c.toNat % 16)]) ∨
    (c ≠ '"' ∧ c ≠ '\\' ∧ 32 ≤ c.toNat ∧ escaped c = [c]) := by
  by_cases listed : c ∈ ['"', '\\', '\x08', '\x0c', '\n', '\r', '\t']
  · simp only [List.mem_cons, List.not_mem_nil, or_false] at listed
    rcases listed with rfl | rfl | rfl | rfl | rfl | rfl | rfl
    all_goals exact .inl ⟨_, rfl, rfl⟩
  · simp only [List.mem_cons, List.not_mem_nil, or_false, not_or] at listed
    obtain ⟨quote, backslash, backspace, feed, newline, carriage, tab⟩ := listed
    by_cases control : c.toNat < 32
    · refine .inr (.inl ⟨control, ?_⟩)
      simp [escaped, quote, backslash, backspace, feed, newline, carriage, tab, control]
    · refine .inr (.inr ⟨quote, backslash, Nat.le_of_not_lt control, ?_⟩)
      simp [escaped, quote, backslash, backspace, feed, newline, carriage, tab, control]

theorem unescaped?_letter {letter c : Char} (known : escape? letter = some c)
    (rest : List Char) :
    unescaped? ('\\' :: letter :: rest) = (unescaped? rest).map (c :: ·) := by
  have other : letter ≠ 'u' := by
    rintro rfl
    cases known
  cases found : unescaped? rest <;> simp [unescaped?, known, other, found]

theorem unescaped?_code {first second third fourth c : Char}
    (known : codePoint? first second third fourth = some c) (rest : List Char) :
    unescaped? ('\\' :: 'u' :: first :: second :: third :: fourth :: rest) =
      (unescaped? rest).map (c :: ·) := by
  cases found : unescaped? rest <;> simp [unescaped?, known, found]

theorem unescaped?_plain {c : Char} (quote : c ≠ '"') (backslash : c ≠ '\\')
    (newline : c ≠ '\n') (rest : List Char) :
    unescaped? (c :: rest) = (unescaped? rest).map (c :: ·) := by
  simp [unescaped?, quote, backslash, newline]

theorem codePoint?_control : ∀ n < 32,
    codePoint? '0' '0' (hexDigit (n / 16)) (hexDigit (n % 16)) = some (Char.ofNat n) := by
  decide

/-- Reading the way that a character is written gives the character. -/
theorem unescaped?_escaped (c : Char) (rest : List Char) :
    unescaped? (escaped c ++ rest) = (unescaped? rest).map (c :: ·) := by
  rcases escaped_cases c with ⟨letter, known, written⟩ | ⟨control, written⟩ |
      ⟨quote, backslash, printed, written⟩
  · rw [written]
    exact unescaped?_letter known rest
  · rw [written]
    have code := codePoint?_control c.toNat control
    rw [Char.ofNat_toNat] at code
    exact unescaped?_code code rest
  · rw [written]
    refine unescaped?_plain quote backslash ?_ rest
    rintro rfl
    exact absurd printed (by decide)

/-! ## Whole literals -/

theorem unescaped?_flatMap_escaped (text : List Char) :
    unescaped? (text.flatMap escaped ++ ['"']) = some text := by
  induction text with
  | nil => rfl
  | cons c rest ih =>
      rw [List.flatMap_cons, List.append_assoc, unescaped?_escaped, ih]
      rfl

/-- Reading the literal of a text gives the text. -/
theorem unquoted?_literal (text : String) : unquoted? (literal text) = some text := by
  rw [unquoted?, literal, String.toList_ofList]
  change (unescaped? (text.toList.flatMap escaped ++ ['"'])).map String.ofList = some text
  rw [unescaped?_flatMap_escaped, Option.map_some, String.ofList_toList]

end NamedQuery.Text
