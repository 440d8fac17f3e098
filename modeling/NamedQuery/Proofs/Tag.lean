import NamedQuery.Schema.Basic

/-!
# Tags that are read back as they were written

A tag is written as pairs of a key and a quoted value, each after any blanks, and perhaps
some text at the end.  Whatever stands in one value, the pairs after it are found: reading
gives every key the value of its first pair, and a field the name that its `bson` value
starts with.
-/

namespace NamedQuery

namespace Tag

open Text

/-! ## Writing -/

/-- A text that can stand between quotes: each backslash has a character after it that it
protects, and no quote stands unprotected. -/
inductive Quotable : List Char → Prop where
  | nil : Quotable []
  | plain {c : Char} {rest : List Char} (unquoted : c ≠ '"') (unshielding : c ≠ '\\')
      (later : Quotable rest) : Quotable (c :: rest)
  | shielded (c : Char) {rest : List Char} (later : Quotable rest) :
      Quotable ('\\' :: c :: rest)

theorem quotable_of_plain {text : List Char} (unquoted : '"' ∉ text) (unshielding : '\\' ∉ text) :
    Quotable text := by
  induction text with
  | nil => exact .nil
  | cons c rest ih =>
      obtain ⟨notQuote, later⟩ := List.ne_and_not_mem_of_not_mem_cons unquoted
      obtain ⟨notShield, others⟩ := List.ne_and_not_mem_of_not_mem_cons unshielding
      exact .plain notQuote.symm notShield.symm (ih later others)

theorem Quotable.append {first second : List Char} (before : Quotable first)
    (after : Quotable second) : Quotable (first ++ second) := by
  induction before with
  | nil => exact after
  | plain unquoted unshielding later ih => exact .plain unquoted unshielding ih
  | shielded c later ih => exact .shielded c ih

/-- A pair as it stands in a tag. -/
structure Entry where
  gap : String
  key : String
  value : String
  blank : ∀ c ∈ gap.toList, isBlank c = true
  undivided : ':' ∉ key.toList
  start : ∀ c, key.toList.head? = some c → ¬ isBlank c = true
  quotable : Quotable value.toList

def Entry.text (entry : Entry) : String :=
  entry.gap ++ entry.key ++ ":" ++ "\"" ++ entry.value ++ "\""

/-- Pairs in turn, and a text at the end. -/
def written (entries : List Entry) (rest : String) : String :=
  match entries with
  | [] => rest
  | entry :: others => entry.text ++ written others rest

/-! ## Reading -/

theorem scan_gap_append {gap : List Char} (blank : ∀ c ∈ gap, isBlank c = true)
    (rest : List Char) : scan .gap (gap ++ rest) = scan .gap rest := by
  induction gap with
  | nil => rfl
  | cons c others ih =>
      obtain ⟨first, later⟩ := List.forall_mem_cons.mp blank
      rw [List.cons_append, scan, if_pos first, ih later]

theorem scan_key_append {key : List Char} (undivided : ':' ∉ key) (read rest : List Char) :
    scan (.key read) (key ++ ':' :: rest) = scan (.opening (key.reverse ++ read)) rest := by
  induction key generalizing read with
  | nil => rw [List.nil_append, scan, if_pos rfl, List.reverse_nil, List.nil_append]
  | cons c others ih =>
      obtain ⟨first, later⟩ := List.ne_and_not_mem_of_not_mem_cons undivided
      rw [List.cons_append, scan, if_neg (Ne.symm first), ih later, List.reverse_cons,
        List.append_assoc, List.singleton_append]

/-- A key that does not start with a blank is read as a whole. -/
theorem scan_gap_key_append {key : List Char} (undivided : ':' ∉ key)
    (start : ∀ c, key.head? = some c → ¬ isBlank c = true) (rest : List Char) :
    scan .gap (key ++ ':' :: rest) = scan (.opening key.reverse) rest := by
  cases key with
  | nil =>
      have visible : ¬ isBlank ':' = true := by decide
      rw [List.nil_append, scan, if_neg visible, if_pos rfl, List.reverse_nil]
  | cons c others =>
      obtain ⟨first, later⟩ := List.ne_and_not_mem_of_not_mem_cons undivided
      rw [List.cons_append, scan, if_neg (start c rfl), if_neg (Ne.symm first),
        scan_key_append later, List.reverse_cons]

/-- A quotable value is read up to the quote that closes it. -/
theorem scan_value_append {value : List Char} (quotable : Quotable value)
    (key read rest : List Char) :
    scan (.value key read) (value ++ '"' :: rest) =
      (String.ofList key.reverse, String.ofList (read.reverse ++ value)) :: scan .gap rest := by
  induction quotable generalizing read with
  | nil => rw [List.nil_append, scan, if_pos rfl, List.append_nil]
  | plain unquoted unshielding later ih =>
      rw [List.cons_append, scan, if_neg unquoted, if_neg unshielding, ih]
      simp
  | shielded c later ih =>
      rw [List.cons_append, List.cons_append, scan, if_neg (by decide), if_pos rfl, scan, ih]
      simp

theorem scan_key_of_undivided {rest : List Char} (undivided : ':' ∉ rest) (read : List Char) :
    scan (.key read) rest = [] := by
  induction rest generalizing read with
  | nil => rfl
  | cons c others ih =>
      obtain ⟨first, later⟩ := List.ne_and_not_mem_of_not_mem_cons undivided
      rw [scan, if_neg (Ne.symm first), ih later]

/-- A text without a colon has no pair. -/
theorem scan_gap_of_undivided {rest : List Char} (undivided : ':' ∉ rest) :
    scan .gap rest = [] := by
  induction rest with
  | nil => rfl
  | cons c others ih =>
      obtain ⟨first, later⟩ := List.ne_and_not_mem_of_not_mem_cons undivided
      rw [scan]
      split
      · exact ih later
      · rw [if_neg (Ne.symm first), scan_key_of_undivided later]

theorem scan_text_append (entry : Entry) (rest : List Char) :
    scan .gap (entry.text.toList ++ rest) = (entry.key, entry.value) :: scan .gap rest := by
  have spelled : entry.text.toList ++ rest =
      entry.gap.toList ++ (entry.key.toList ++
        ':' :: '"' :: (entry.value.toList ++ '"' :: rest)) := by
    simp [Entry.text]
  rw [spelled, scan_gap_append entry.blank, scan_gap_key_append entry.undivided entry.start,
    scan, if_pos rfl, scan_value_append entry.quotable]
  simp

/-- The pairs of a tag are those that it was written with. -/
theorem pairs_written (entries : List Entry) {rest : String} (undivided : ':' ∉ rest.toList) :
    pairs (written entries rest) = entries.map fun entry => (entry.key, entry.value) := by
  induction entries with
  | nil => exact scan_gap_of_undivided undivided
  | cons entry others ih =>
      rw [pairs, written, String.toList_append, scan_text_append, List.map_cons, ← ih]
      rfl

theorem value?_written (entries : List Entry) {rest : String} (undivided : ':' ∉ rest.toList)
    (key : String) :
    value? (written entries rest) key =
      (entries.find? fun entry => entry.key = key).map Entry.value := by
  rw [value?, pairs_written entries undivided, List.find?_map, Option.map_map]
  rfl

/-! ## Stored names -/

/-- The part of a value before its first comma, which is all of it where there is none. -/
def BeforeComma (value part : String) : Prop :=
  ',' ∉ part.toList ∧ (value = part ∨ ∃ options, value = part ++ "," ++ options)

theorem exists_beforeComma (value : String) : ∃ part, BeforeComma value part := by
  by_cases comma : ',' ∈ value.toList
  · obtain ⟨part, options, cut, absent⟩ := List.eq_append_cons_of_mem comma
    refine ⟨String.ofList part, by rw [String.toList_ofList]; exact absent, .inr ?_⟩
    refine ⟨String.ofList options, ?_⟩
    rw [← String.toList_inj, cut]
    simp
  · exact ⟨value, comma, .inl rfl⟩

theorem BeforeComma.takeWhile_eq {value part : String} (before : BeforeComma value part) :
    value.toList.takeWhile (fun c => c ≠ ',') = part.toList := by
  obtain ⟨absent, shape⟩ := before
  have kept : ∀ c ∈ part.toList, decide (c ≠ ',') = true := by
    intro c member
    exact decide_eq_true (ne_of_mem_of_not_mem member absent)
  rcases shape with rfl | ⟨options, rfl⟩
  · rw [← List.append_nil value.toList, List.takeWhile_append_of_pos kept, List.takeWhile_nil]
  · rw [String.toList_append, String.toList_append, List.append_assoc,
      List.takeWhile_append_of_pos kept]
    simp

end Tag

/-- A field is stored under the part of its `bson` value before the first comma, unless this
part is empty or `-`. -/
theorem Field.bsonName?_of_tagValue? {field : Field} {value part : String}
    (tagged : field.tagValue? "bson" = some value) (before : Tag.BeforeComma value part) :
    field.bsonName? = if part = "" ∨ part = "-" then none else some part := by
  rw [bsonName?, tagged]
  dsimp only
  rw [before.takeWhile_eq, String.ofList_toList]

namespace Tag

/-- A field whose tag was written as pairs has for every key the value of the first pair
with that key, and is stored under the part of its `bson` value before the first comma;
it has no stored name where this part is empty or `-`, or where no pair has the key. -/
theorem read_written (name : String) (type : GoType) (entries : List Entry) (rest : String)
    (undivided : ':' ∉ rest.toList) :
    (∀ key, Field.tagValue? ⟨name, type, some (written entries rest)⟩ key =
      (entries.find? fun entry => entry.key = key).map Entry.value) ∧
    (∀ entry, (entries.find? fun entry => entry.key = "bson") = some entry →
      ∃ part, BeforeComma entry.value part ∧
        Field.bsonName? ⟨name, type, some (written entries rest)⟩ =
          if part = "" ∨ part = "-" then none else some part) ∧
    ((∀ entry ∈ entries, entry.key ≠ "bson") →
      Field.bsonName? ⟨name, type, some (written entries rest)⟩ = none) := by
  have values (key : String) :
      Field.tagValue? ⟨name, type, some (written entries rest)⟩ key =
        (entries.find? fun entry => entry.key = key).map Entry.value :=
    value?_written entries undivided key
  refine ⟨values, ?_, ?_⟩
  · intro entry first
    obtain ⟨part, before⟩ := exists_beforeComma entry.value
    have tagged := values "bson"
    rw [first] at tagged
    exact ⟨part, before, Field.bsonName?_of_tagValue? tagged before⟩
  · intro absent
    have none : (entries.find? fun entry => entry.key = "bson") = none :=
      List.find?_eq_none.mpr fun entry member => by simpa using absent entry member
    rw [Field.bsonName?, values, none]
    rfl

/-- A value with a protected quote, a colon and a comma. -/
def remark : Entry where
  gap := ""
  key := "doc"
  value := "\\\":,"
  blank := nofun
  undivided := by decide
  start := by rintro c ⟨⟩; decide
  quotable := .shielded '"' (quotable_of_plain (by decide) (by decide))

/-- A pair that may stand right behind another one. -/
def storedAge : Entry where
  gap := ""
  key := "bson"
  value := "age,omitempty"
  blank := nofun
  undivided := by decide
  start := by rintro c ⟨⟩; decide
  quotable := quotable_of_plain (by decide) (by decide)

theorem age_after_remark :
    ':' ∉ " end".toList ∧
      written [remark, storedAge] " end" = "doc:\"\\\":,\"bson:\"age,omitempty\" end" ∧
      Field.tagValue? ⟨"Age", .named "int", some (written [remark, storedAge] " end")⟩ "doc" =
        some "\\\":," ∧
      Field.bsonName? ⟨"Age", .named "int", some (written [remark, storedAge] " end")⟩ =
        some "age" := by
  have undivided : ':' ∉ " end".toList := by decide
  obtain ⟨values, stored, -⟩ :=
    read_written "Age" (.named "int") [remark, storedAge] " end" undivided
  obtain ⟨part, before, named⟩ := stored storedAge rfl
  have same : part = "age" := String.toList_inj.mp (before.takeWhile_eq.symm.trans (by decide))
  subst same
  exact ⟨undivided, by decide, values "doc", named.trans (if_neg (by decide))⟩

end Tag

end NamedQuery
