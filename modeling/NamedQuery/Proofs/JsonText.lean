import Mathlib.Data.List.Forall2
import NamedQuery.Json.Reader
import NamedQuery.Proofs.Literal

/-!
# The texts of a JSON value

A value has many texts: there may be space around every part, and a character of a
string may be written as it is, by a letter after a backslash, or by its code.  Every
text of a value is read as that value when no more arrays and objects are open at once
than the reader allows.  Numbers and truth values have no text here, because no
declaration is written with them.
-/

namespace NamedQuery.JsonText

/-! ## Texts of strings -/

/-- The hexadecimal digits with their values. -/
def hexDigits : List (Char × Nat) :=
  [('0', 0), ('1', 1), ('2', 2), ('3', 3), ('4', 4), ('5', 5), ('6', 6), ('7', 7), ('8', 8),
    ('9', 9), ('a', 10), ('b', 11), ('c', 12), ('d', 13), ('e', 14), ('f', 15), ('A', 10),
    ('B', 11), ('C', 12), ('D', 13), ('E', 14), ('F', 15)]

/-- The letters after a backslash, with the characters they stand for. -/
def letters : List (Char × Char) :=
  [('"', '"'), ('\\', '\\'), ('/', '/'), ('b', '\x08'), ('f', '\x0c'), ('n', '\n'), ('r', '\r'),
    ('t', '\t')]

/-- The texts of a number as a code: a backslash, a letter and four digits. -/
inductive UnitText : Nat → List Char → Prop where
  | digits {a b c d : Char} {first second third fourth : Nat}
      (one : (a, first) ∈ hexDigits) (two : (b, second) ∈ hexDigits)
      (three : (c, third) ∈ hexDigits) (four : (d, fourth) ∈ hexDigits) :
      UnitText (((first * 16 + second) * 16 + third) * 16 + fourth) ['\\', 'u', a, b, c, d]

/-- The texts of a character in a string.  A character beyond the codes of four digits
is written as a pair of them. -/
inductive CharText : Char → List Char → Prop where
  | plain {c : Char} (quote : c ≠ '"') (backslash : c ≠ '\\') (printed : 0x20 ≤ c.toNat) :
      CharText c [c]
  | letter {c name : Char} (listed : (name, c) ∈ letters) : CharText c ['\\', name]
  | code {c : Char} {text : List Char} (written : UnitText c.toNat text) : CharText c text
  | pair {c : Char} {high low : List Char} (wide : 0x10000 ≤ c.toNat)
      (first : UnitText (0xd800 + (c.toNat - 0x10000) / 0x400) high)
      (second : UnitText (0xdc00 + (c.toNat - 0x10000) % 0x400) low) :
      CharText c (high ++ low)

/-- The texts of a string after its opening quote. -/
inductive StringText : List Char → List Char → Prop where
  | close : StringText [] ['"']
  | char {c : Char} {content text rest : List Char} (first : CharText c text)
      (later : StringText content rest) : StringText (c :: content) (text ++ rest)

/-! ## Texts of values -/

/-- Space, which means nothing between the parts of a text. -/
def Blank (space : List Char) : Prop := ∀ c ∈ space, c = ' ' ∨ c = '\t' ∨ c = '\n' ∨ c = '\r'

/-- The texts of one or more items with commas between them. -/
inductive ItemsText {α : Type} (item : α → List Char → Prop) : List α → List Char → Prop where
  | single {value : α} {text after : List Char} (written : item value text)
      (space : Blank after) : ItemsText item [value] (text ++ after)
  | cons {value : α} {values : List α} {text after before rest : List Char}
      (written : item value text) (space : Blank after) (next : Blank before)
      (later : ItemsText item values rest) :
      ItemsText item (value :: values) (text ++ after ++ ',' :: (before ++ rest))

/-- The texts of items between brackets. -/
inductive EnclosedText {α : Type} (item : α → List Char → Prop) (opening closing : Char) :
    List α → List Char → Prop where
  | empty {space : List Char} (blank : Blank space) :
      EnclosedText item opening closing [] (opening :: (space ++ [closing]))
  | items {values : List α} {before text : List Char} (blank : Blank before)
      (written : ItemsText item values text) :
      EnclosedText item opening closing values (opening :: (before ++ text ++ [closing]))

/-- The texts of a name and a value, with a colon between them. -/
inductive MemberText (value : JsonValue → List Char → Prop) :
    String × JsonValue → List Char → Prop where
  | member {name : String} {json : JsonValue} {nameText space before text : List Char}
      (named : StringText name.toList nameText) (blank : Blank space) (next : Blank before)
      (written : value json text) :
      MemberText value (name, json) ('"' :: (nameText ++ space ++ ':' :: (before ++ text)))

/-- The texts of a value, without space around them. -/
inductive ValueText : JsonValue → List Char → Prop where
  | null : ValueText .null ['n', 'u', 'l', 'l']
  | string {value : String} {text : List Char} (written : StringText value.toList text) :
      ValueText (.string value) ('"' :: text)
  | array {items : List JsonValue} {text : List Char}
      (written : EnclosedText ValueText '[' ']' items text) : ValueText (.array items) text
  | object {members : List (String × JsonValue)} {text : List Char}
      (written : EnclosedText (MemberText ValueText) '{' '}' members text) :
      ValueText (.object members) text

/-- A text of a value with space around it. -/
def Spells (text : String) (json : JsonValue) : Prop :=
  ∃ before written after, Blank before ∧ ValueText json written ∧ Blank after ∧
    text.toList = before ++ written ++ after

/-! ## Reading strings -/

theorem hexValue?_of_listed {c : Char} {value : Nat} (listed : (c, value) ∈ hexDigits) :
    hexValue? c = some value := by
  have all : ∀ entry ∈ hexDigits, hexValue? entry.1 = some entry.2 := by decide
  exact all _ listed

theorem escape?_of_listed {name c : Char} (listed : (name, c) ∈ letters) :
    escape? name = some c := by
  have all : ∀ entry ∈ letters, escape? entry.1 = some entry.2 := by decide
  exact all _ listed

/-- The digits of a code are read as its number. -/
theorem UnitText.exists_digits {unit : Nat} {text : List Char} (written : UnitText unit text) :
    ∃ a b c d, text = ['\\', 'u', a, b, c, d] ∧ unit? a b c d = some unit := by
  obtain ⟨one, two, three, four⟩ := written
  refine ⟨_, _, _, _, rfl, ?_⟩
  simp only [unit?, hexValue?_of_listed one, hexValue?_of_listed two, hexValue?_of_listed three,
    hexValue?_of_listed four]

theorem stringBody_plain {c : Char} (quote : c ≠ '"') (backslash : c ≠ '\\')
    (printed : 0x20 ≤ c.toNat) (rest : List Char) :
    stringBody (c :: rest) = (stringBody rest).map (prepend c) := by
  have allowed : ¬ c.toNat < 0x20 := Nat.not_lt.mpr printed
  simp [stringBody, backslash, allowed]

theorem stringBody_letter {name c : Char} (known : escape? name = some c) (rest : List Char) :
    stringBody ('\\' :: name :: rest) = (stringBody rest).map (prepend c) := by
  have other : name ≠ 'u' := by
    rintro rfl
    cases known
  simp [stringBody, other, known]

/-- No character has the code of half a pair. -/
theorem toNat_lt_or_lt (c : Char) : c.toNat < 0xd800 ∨ 0xdfff < c.toNat ∧ c.toNat < 0x110000 :=
  c.valid

theorem stringBody_code {c : Char} {text : List Char} (written : UnitText c.toNat text)
    (rest : List Char) : stringBody (text ++ rest) = (stringBody rest).map (prepend c) := by
  obtain ⟨first, second, third, fourth, rfl, number⟩ := written.exists_digits
  have range := toNat_lt_or_lt c
  have notLow : isLowSurrogate c.toNat = false := by
    simp only [isLowSurrogate, Bool.and_eq_false_iff, decide_eq_false_iff_not]
    omega
  have notHigh : isHighSurrogate c.toNat = false := by
    simp only [isHighSurrogate, Bool.and_eq_false_iff, decide_eq_false_iff_not]
    omega
  simp [stringBody, number, notLow, notHigh, Char.ofNat_toNat]

theorem stringBody_pair {c : Char} {high low : List Char} (wide : 0x10000 ≤ c.toNat)
    (first : UnitText (0xd800 + (c.toNat - 0x10000) / 0x400) high)
    (second : UnitText (0xdc00 + (c.toNat - 0x10000) % 0x400) low) (rest : List Char) :
    stringBody (high ++ low ++ rest) = (stringBody rest).map (prepend c) := by
  obtain ⟨a, b, d, e, rfl, highNumber⟩ := first.exists_digits
  obtain ⟨f, g, h, i, rfl, lowNumber⟩ := second.exists_digits
  have range := toNat_lt_or_lt c
  have notLow : isLowSurrogate (0xd800 + (c.toNat - 0x10000) / 0x400) = false := by
    simp only [isLowSurrogate, Bool.and_eq_false_iff, decide_eq_false_iff_not]
    omega
  have isHigh : isHighSurrogate (0xd800 + (c.toNat - 0x10000) / 0x400) = true := by
    simp only [isHighSurrogate, Bool.and_eq_true, decide_eq_true_eq]
    omega
  have isLow : isLowSurrogate (0xdc00 + (c.toNat - 0x10000) % 0x400) = true := by
    simp only [isLowSurrogate, Bool.and_eq_true, decide_eq_true_eq]
    omega
  have joined : pairChar (0xd800 + (c.toNat - 0x10000) / 0x400)
      (0xdc00 + (c.toNat - 0x10000) % 0x400) = c := by
    rw [pairChar, show 0x10000 + (0xd800 + (c.toNat - 0x10000) / 0x400 - 0xd800) * 0x400 +
      (0xdc00 + (c.toNat - 0x10000) % 0x400 - 0xdc00) = c.toNat by omega, Char.ofNat_toNat]
  simp only [List.cons_append, List.nil_append, stringBody, highNumber, lowNumber, notLow, isHigh,
    isLow, joined, if_true, Bool.false_eq_true, if_false]

/-- Every text of a character is read as the character. -/
theorem CharText.stringBody_append {c : Char} {text : List Char} (written : CharText c text)
    (rest : List Char) : stringBody (text ++ rest) = (stringBody rest).map (prepend c) := by
  cases written with
  | plain quote backslash printed => exact stringBody_plain quote backslash printed rest
  | letter listed => exact stringBody_letter (escape?_of_listed listed) rest
  | code number => exact stringBody_code number rest
  | pair wide first second => exact stringBody_pair wide first second rest

/-- Every text of a string is read as the string. -/
theorem StringText.stringBody_append {content text : List Char}
    (written : StringText content text) (rest : List Char) :
    stringBody (text ++ rest) = some (content, rest) := by
  induction written with
  | close => rfl
  | char first later ih =>
      rw [List.append_assoc, first.stringBody_append, ih]
      rfl

/-! ## Reading values -/

theorem isSpace_iff {c : Char} :
    isSpace c = true ↔ c = ' ' ∨ c = '\t' ∨ c = '\n' ∨ c = '\r' := by
  simp [isSpace, or_assoc]

theorem blank_nil : Blank [] := by
  simp [Blank]

/-- Space is skipped up to the next part of a text. -/
theorem skipSpace_append {before : List Char} (blank : Blank before) {c : Char}
    (solid : isSpace c = false) (rest : List Char) :
    skipSpace (before ++ c :: rest) = c :: rest := by
  have skipped : ∀ d ∈ before, isSpace d = true := fun d member => isSpace_iff.mpr (blank d member)
  rw [skipSpace, List.dropWhile_append_of_pos skipped, List.dropWhile_cons_of_neg (by simp [solid])]

/-- The text of an item starts with a character that is neither space nor a closing
bracket, and it is read as the item whatever comes after it. -/
structure ReadsItem {α : Type} (read : Reader α) (value : α) (text : List Char) : Prop where
  start : ∃ c rest, text = c :: rest ∧ isSpace c = false ∧ c ≠ ']' ∧ c ≠ '}'
  reads : ∀ before rest, Blank before → read (before ++ text ++ rest) = some (value, rest)

section Items

variable {α : Type} {item : α → List Char → Prop} {read : Reader α} {values : List α}
  {text : List Char} {closing : Char}

/-- Items are read up to the closing bracket. -/
theorem ItemsText.items_append (written : ItemsText item values text)
    (bracket : closing = ']' ∨ closing = '}')
    (each : ∀ value ∈ values, ∀ text, item value text → ReadsItem read value text)
    {count : Nat} (enough : values.length ≤ count) {before : List Char} (blank : Blank before)
    (rest : List Char) :
    items read closing count (before ++ text ++ closing :: rest) = some (values, rest) := by
  have solid : isSpace closing = false := by rcases bracket with rfl | rfl <;> rfl
  have notComma : closing ≠ ',' := by rcases bracket with rfl | rfl <;> decide
  have comma : isSpace ',' = false := rfl
  induction written generalizing before count with
  | @single value part after here space =>
      cases count with
      | zero => cases enough
      | succ count =>
          have first := (each value List.mem_cons_self part here).reads before
            (after ++ closing :: rest) blank
          have regroup : before ++ (part ++ after) ++ closing :: rest =
              before ++ part ++ (after ++ closing :: rest) := by simp
          simp only [regroup, items, first, skipSpace_append space solid, if_neg notComma, if_true]
  | @cons value others part after next later here space nextBlank _ ih =>
      cases count with
      | zero => cases enough
      | succ count =>
          have first := (each value List.mem_cons_self part here).reads before
            (after ++ ',' :: (next ++ later ++ closing :: rest)) blank
          have tail := ih (fun value member => each value (List.mem_cons_of_mem _ member))
            (Nat.le_of_succ_le_succ enough) nextBlank
          have regroup : before ++ (part ++ after ++ ',' :: (next ++ later)) ++ closing :: rest =
              before ++ part ++ (after ++ ',' :: (next ++ later ++ closing :: rest)) := by simp
          simp only [regroup, items, first, skipSpace_append space comma, if_true, tail,
            Option.map_some]

/-- Items start where the first of them starts, and none of them is empty. -/
theorem ItemsText.start (written : ItemsText item values text)
    (each : ∀ value ∈ values, ∀ text, item value text → ReadsItem read value text) :
    (∃ c rest, text = c :: rest ∧ isSpace c = false ∧ c ≠ ']' ∧ c ≠ '}') ∧
      values.length ≤ text.length := by
  induction written with
  | @single value part after here space =>
      obtain ⟨c, rest, rfl, solid⟩ := (each value List.mem_cons_self part here).start
      exact ⟨⟨c, rest ++ after, rfl, solid⟩, by simp⟩
  | @cons value others part after next later here space nextBlank _ ih =>
      obtain ⟨c, rest, rfl, solid⟩ := (each value List.mem_cons_self part here).start
      obtain ⟨-, bound⟩ := ih fun value member => each value (List.mem_cons_of_mem _ member)
      refine ⟨⟨c, _, rfl, solid⟩, ?_⟩
      simp only [List.length_cons, List.length_append]
      omega

/-- Items between brackets are read after the opening one. -/
theorem EnclosedText.enclosed_append {opening : Char}
    (written : EnclosedText item opening closing values text)
    (bracket : closing = ']' ∨ closing = '}')
    (each : ∀ value ∈ values, ∀ text, item value text → ReadsItem read value text) :
    ∃ inner, text = opening :: inner ∧
      ∀ rest, enclosed read closing (inner ++ rest) = some (values, rest) := by
  cases written with
  | @empty space blank =>
      have solid : isSpace closing = false := by rcases bracket with rfl | rfl <;> rfl
      refine ⟨space ++ [closing], rfl, ?_⟩
      intro rest
      simp only [enclosed, List.append_assoc, List.singleton_append, skipSpace_append blank solid,
        if_true]
  | @items _ before parts blank listed =>
      refine ⟨before ++ parts ++ [closing], rfl, ?_⟩
      intro rest
      obtain ⟨⟨c, tail, rfl, solid, apart⟩, bound⟩ := listed.start each
      have other : c ≠ closing := by
        rcases bracket with rfl | rfl
        · exact apart.1
        · exact apart.2
      have regroup : before ++ c :: tail ++ [closing] ++ rest =
          before ++ c :: (tail ++ closing :: rest) := by simp
      have enough : values.length ≤ (before ++ c :: (tail ++ closing :: rest)).length := by
        simp only [List.length_append, List.length_cons] at bound ⊢
        omega
      have found := listed.items_append bracket each enough blank_nil rest
      simp only [enclosed, regroup, skipSpace_append blank solid, if_neg other]
      exact found

end Items

/-! ## Values of each kind -/

section Values

variable {depth : Nat} {text : List Char}

/-- A text that starts a value is read the same after space. -/
theorem readsItem_of_start {c : Char} {inner : List Char} {json : JsonValue}
    (start : isSpace c = false ∧ c ≠ ']' ∧ c ≠ '}')
    (found : ∀ rest, value depth (c :: (inner ++ rest)) = some (json, rest)) :
    ReadsItem (value depth) json (c :: inner) := by
  refine ⟨⟨c, inner, rfl, start⟩, ?_⟩
  intro before rest blank
  have atStart := found rest
  rw [value, ← List.nil_append (c :: _), skipSpace_append blank_nil start.1] at atStart
  rw [value, List.append_assoc, List.cons_append, skipSpace_append blank start.1]
  exact atStart

theorem readsItem_null : ReadsItem (value depth) .null ['n', 'u', 'l', 'l'] := by
  refine readsItem_of_start (by decide) fun rest => ?_
  rw [value]
  rfl

theorem readsItem_string {content : String} (written : StringText content.toList text) :
    ReadsItem (value depth) (.string content) ('"' :: text) := by
  refine readsItem_of_start (by decide) fun rest => ?_
  rw [value]
  change (stringBody (text ++ rest)).map _ = _
  rw [written.stringBody_append, Option.map_some, String.ofList_toList]

/-- An array is read when its items are, with one bracket less to open. -/
theorem readsItem_array {items : List JsonValue}
    (written : EnclosedText ValueText '[' ']' items text)
    (each : ∀ item ∈ items, ∀ text, ValueText item text → ReadsItem (value depth) item text) :
    ReadsItem (value (depth + 1)) (.array items) text := by
  obtain ⟨inner, rfl, found⟩ := written.enclosed_append (.inl rfl) each
  refine readsItem_of_start (by decide) fun rest => ?_
  rw [value]
  change (enclosed (value depth) ']' (inner ++ rest)).map _ = _
  rw [found, Option.map_some]

/-- A name with a value is read when the value is. -/
theorem readsItem_member {entry : String × JsonValue} (written : MemberText ValueText entry text)
    (inner : ∀ text, ValueText entry.2 text → ReadsItem (value depth) entry.2 text) :
    ReadsItem (member (value depth)) entry text := by
  cases written with
  | @member name json nameText space next valueText named blank nextBlank here =>
      refine ⟨⟨'"', _, rfl, by decide⟩, ?_⟩
      intro before rest blankBefore
      have quote : isSpace '"' = false := rfl
      have colon : isSpace ':' = false := rfl
      have regroup : before ++ '"' :: (nameText ++ space ++ ':' :: (next ++ valueText)) ++ rest =
          before ++ '"' :: (nameText ++ (space ++ ':' :: (next ++ valueText ++ rest))) := by simp
      rw [regroup, member, skipSpace_append blankBefore quote]
      simp only [named.stringBody_append, skipSpace_append blank colon,
        (inner _ here).reads next rest nextBlank, Option.map_some, String.ofList_toList]

theorem readsItem_object {members : List (String × JsonValue)}
    (written : EnclosedText (MemberText ValueText) '{' '}' members text)
    (each : ∀ entry ∈ members, ∀ text, ValueText entry.2 text →
      ReadsItem (value depth) entry.2 text) :
    ReadsItem (value (depth + 1)) (.object members) text := by
  obtain ⟨inner, rfl, found⟩ := written.enclosed_append (.inr rfl)
    fun entry listed text here => readsItem_member here (each entry listed)
  refine readsItem_of_start (by decide) fun rest => ?_
  rw [value]
  change (enclosed (member (value depth)) '}' (inner ++ rest)).map _ = _
  rw [found, Option.map_some]

end Values

/-! ## Nesting -/

theorem depth_le_depthOfAll {items : List JsonValue} {item : JsonValue} (listed : item ∈ items) :
    item.depth ≤ JsonValue.depthOfAll items := by
  induction items with
  | nil => cases listed
  | cons first rest ih =>
      rw [JsonValue.depthOfAll]
      rcases List.mem_cons.mp listed with rfl | later
      · exact Nat.le_max_left _ _
      · exact Nat.le_trans (ih later) (Nat.le_max_right _ _)

theorem depth_le_depthOfMembers {members : List (String × JsonValue)} {entry : String × JsonValue}
    (listed : entry ∈ members) : entry.2.depth ≤ JsonValue.depthOfMembers members := by
  induction members with
  | nil => cases listed
  | cons first rest ih =>
      rw [JsonValue.depthOfMembers]
      rcases List.mem_cons.mp listed with rfl | later
      · exact Nat.le_max_left _ _
      · exact Nat.le_trans (ih later) (Nat.le_max_right _ _)

/-- Every text of a value is read as the value when it is not nested too deeply. -/
theorem ValueText.readsItem {depth : Nat} {json : JsonValue} {text : List Char}
    (written : ValueText json text) (shallow : json.depth ≤ depth) :
    ReadsItem (value depth) json text := by
  -- the reader opens one bracket for each level of its depth, so the induction is on it
  induction depth generalizing json text with
  | zero =>
      cases written with
      | null => exact readsItem_null
      | string here => exact readsItem_string here
      | array _ => simp [JsonValue.depth] at shallow
      | object _ => simp [JsonValue.depth] at shallow
  | succ depth ih =>
      cases written with
      | null => exact readsItem_null
      | string here => exact readsItem_string here
      | array here =>
          rw [JsonValue.depth, Nat.add_comm] at shallow
          refine readsItem_array here fun item listed text inner => ih inner ?_
          exact Nat.le_trans (depth_le_depthOfAll listed) (Nat.le_of_succ_le_succ shallow)
      | object here =>
          rw [JsonValue.depth, Nat.add_comm] at shallow
          refine readsItem_object here fun entry listed text inner => ih inner ?_
          exact Nat.le_trans (depth_le_depthOfMembers listed) (Nat.le_of_succ_le_succ shallow)

/-- A whole text is read as its value, and nothing but space is left. -/
theorem first?_of_spells {text : String} {json : JsonValue} (spells : Spells text json)
    (shallow : json.depth ≤ maxDepth) :
    ∃ after, first? text = some (json, after) ∧ isDone after = true := by
  obtain ⟨before, written, after, blank, here, blankAfter, whole⟩ := spells
  refine ⟨after, ?_, ?_⟩
  · rw [first?, whole]
    exact (here.readsItem shallow).reads before after blank
  · rw [isDone, List.all_eq_true]
    exact fun c member => isSpace_iff.mpr (blankAfter c member)

/-! ## The compact text -/

/-- The compact text of a string: only what has to be is escaped. -/
def compactString (content : List Char) : List Char :=
  '"' :: (content.flatMap Text.escaped ++ ['"'])

/-- Texts between brackets, with commas between them. -/
def bracketed (opening closing : Char) (parts : List (List Char)) : List Char :=
  opening :: ([','].intercalate parts ++ [closing])

mutual

/-- The text of a value without any space. -/
def compact? : JsonValue → Option (List Char)
  | .null => some ['n', 'u', 'l', 'l']
  | .string content => some (compactString content.toList)
  | .array items => (compactItems? items).map (bracketed '[' ']')
  | .object members => (compactMembers? members).map (bracketed '{' '}')
  | .bool _ | .number _ => none

def compactItems? : List JsonValue → Option (List (List Char))
  | [] => some []
  | item :: rest =>
      match compact? item, compactItems? rest with
      | some text, some texts => some (text :: texts)
      | _, _ => none

def compactMembers? : List (String × JsonValue) → Option (List (List Char))
  | [] => some []
  | (name, value) :: rest =>
      match compact? value, compactMembers? rest with
      | some text, some texts => some ((compactString name.toList ++ ':' :: text) :: texts)
      | _, _ => none

end

theorem mem_letters_of_escape? {name c : Char} (known : Text.escape? name = some c) :
    (name, c) ∈ letters := by
  unfold Text.escape? at known
  split at known <;> cases known <;> decide

theorem mem_hexDigits : ∀ n < 16, (Text.hexDigit n, n) ∈ hexDigits := by
  decide

theorem charText_escaped (c : Char) : CharText c (Text.escaped c) := by
  rcases Text.escaped_cases c with ⟨name, known, written⟩ | ⟨control, written⟩ |
      ⟨quote, backslash, printed, written⟩
  · rw [written]
    exact .letter (mem_letters_of_escape? known)
  · rw [written]
    have zero : ('0', 0) ∈ hexDigits := mem_hexDigits 0 (by decide)
    have code := UnitText.digits zero zero (mem_hexDigits (c.toNat / 16) (by omega))
      (mem_hexDigits (c.toNat % 16) (by omega))
    rw [show ((0 * 16 + 0) * 16 + c.toNat / 16) * 16 + c.toNat % 16 = c.toNat by omega] at code
    exact .code code
  · rw [written]
    exact .plain quote backslash printed

theorem stringText_escaped (content : List Char) :
    StringText content (content.flatMap Text.escaped ++ ['"']) := by
  induction content with
  | nil => exact .close
  | cons c rest ih =>
      rw [List.flatMap_cons, List.append_assoc]
      exact .char (charText_escaped c) ih

theorem itemsText_intercalate {α : Type} {item : α → List Char → Prop} {value : α}
    {values : List α} {part : List Char} {parts : List (List Char)} (first : item value part)
    (each : List.Forall₂ item values parts) :
    ItemsText item (value :: values) ([','].intercalate (part :: parts)) := by
  induction each generalizing value part with
  | nil =>
      have single := ItemsText.single first blank_nil
      simpa using single
  | cons next _ ih =>
      have more := ItemsText.cons first blank_nil blank_nil (ih next)
      simpa [List.intercalate_cons_cons] using more

theorem enclosedText_bracketed {α : Type} {item : α → List Char → Prop} {values : List α}
    {parts : List (List Char)} (each : List.Forall₂ item values parts) (opening closing : Char) :
    EnclosedText item opening closing values (bracketed opening closing parts) := by
  cases each with
  | nil => exact .empty blank_nil
  | cons first later => exact .items blank_nil (itemsText_intercalate first later)

mutual

/-- The compact text is a text of the value. -/
theorem valueText_of_compact? : ∀ (json : JsonValue) {text : List Char},
    compact? json = some text → ValueText json text
  | .null, _, rfl => .null
  | .string content, _, rfl => .string (stringText_escaped content.toList)
  | .array items, text, made => by
      rw [compact?, Option.map_eq_some_iff] at made
      obtain ⟨parts, found, rfl⟩ := made
      exact .array (enclosedText_bracketed (itemTexts_of_compactItems? items found) '[' ']')
  | .object members, text, made => by
      rw [compact?, Option.map_eq_some_iff] at made
      obtain ⟨parts, found, rfl⟩ := made
      exact .object
        (enclosedText_bracketed (memberTexts_of_compactMembers? members found) '{' '}')

theorem itemTexts_of_compactItems? : ∀ (items : List JsonValue) {parts : List (List Char)},
    compactItems? items = some parts → List.Forall₂ ValueText items parts
  | [], _, rfl => .nil
  | item :: rest, parts, made => by
      rw [compactItems?] at made
      split at made
      · next text texts first later =>
          cases made
          exact .cons (valueText_of_compact? item first) (itemTexts_of_compactItems? rest later)
      · cases made

theorem memberTexts_of_compactMembers? : ∀ (members : List (String × JsonValue))
    {parts : List (List Char)}, compactMembers? members = some parts →
    List.Forall₂ (MemberText ValueText) members parts
  | [], _, rfl => .nil
  | (name, value) :: rest, parts, made => by
      rw [compactMembers?] at made
      split at made
      · next text texts first later =>
          cases made
          have whole := MemberText.member (stringText_escaped name.toList) blank_nil blank_nil
            (valueText_of_compact? value first)
          refine .cons ?_ (memberTexts_of_compactMembers? rest later)
          simpa [compactString] using whole
      · cases made

end

theorem spells_of_compact? {json : JsonValue} {text : List Char}
    (made : compact? json = some text) : Spells (String.ofList text) json :=
  ⟨[], text, [], blank_nil, valueText_of_compact? json made, blank_nil, by simp⟩

end NamedQuery.JsonText
