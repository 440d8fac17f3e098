import NamedQuery.Proofs.FieldPath

/-!
# Splits of the words that name a field

A run of words names a field through a split of the run into segments: the first
segment spells the name of a field, the next one that of a field of the struct which
that field holds, and so on.  A run is resolved exactly when it has such a split, and
it is read by the one with the longest first segment, then the longest second segment,
and so on.  Structs may hold themselves or each other.
-/

namespace NamedQuery

namespace Schema

/-- The segments lead from a struct through the fields: each spells the name of a
field, which is looked up in the struct that the field before it holds. -/
inductive Leads (schema : Schema) : Struct → List (List String) → List Field → Prop where
  | last {struct : Struct} {segment : List String} {field : Field} (nonempty : segment ≠ [])
      (named : struct.field? (spell segment) = some field) :
      Leads schema struct [segment] [field]
  | inside {struct inner : Struct} {segment : List String} {rest : List (List String)}
      {field : Field} {fields : List Field} (nonempty : segment ≠ [])
      (named : struct.field? (spell segment) = some field)
      (held : schema.structOf? field.type = some inner)
      (below : Leads schema inner rest fields) :
      Leads schema struct (segment :: rest) (field :: fields)

/-- A split of a run into segments that lead from a struct through the fields. -/
structure Splits (schema : Schema) (struct : Struct) (run : List String)
    (split : List (List String)) (fields : List Field) : Prop where
  whole : split.flatten = run
  leads : schema.Leads struct split fields

/-- A split that is the same as `greatest`, or one whose lengths come before those of
`greatest` in the order of the first difference. -/
def UpTo (greatest split : List (List String)) : Prop :=
  split = greatest ∨ List.Lex (· < ·) (split.map List.length) (greatest.map List.length)

theorem UpTo.cons {greatest split : List (List String)} (upTo : UpTo greatest split)
    (segment : List String) : UpTo (segment :: greatest) (segment :: split) := by
  rcases upTo with same | less
  · exact .inl (by rw [same])
  · exact .inr (.cons less)

/-! ## Splits with a given start -/

/-- A split whose first segment starts with the words `taken`, before the words
`rest`. -/
structure SplitsAfter (schema : Schema) (struct : Struct) (taken rest : List String)
    (split : List (List String)) (fields : List Field) : Prop
    extends schema.Splits struct (taken ++ rest) split fields where
  start : ∃ more others, split = (taken ++ more) :: others

variable {schema : Schema} {struct : Struct} {taken rest run : List String} {word : String}
  {split : List (List String)} {fields : List Field}

/-- The first segment has a word. -/
theorem Leads.exists_first (leads : schema.Leads struct split fields) :
    ∃ word more others, split = (word :: more) :: others := by
  have first : ∃ segment others, split = segment :: others ∧ segment ≠ [] := by
    cases leads with
    | last nonempty _ => exact ⟨_, _, rfl, nonempty⟩
    | inside nonempty _ _ _ => exact ⟨_, _, rfl, nonempty⟩
  obtain ⟨segment, others, rfl, nonempty⟩ := first
  obtain ⟨word, more, rfl⟩ := List.exists_cons_of_ne_nil nonempty
  exact ⟨word, more, others, rfl⟩

theorem Leads.flatten_ne_nil (leads : schema.Leads struct split fields) : split.flatten ≠ [] := by
  obtain ⟨word, more, others, rfl⟩ := leads.exists_first
  exact List.cons_ne_nil _ _

/-- A split of a run starts with the first word of the run. -/
theorem Splits.after (splits : schema.Splits struct (word :: rest) split fields) :
    schema.SplitsAfter struct [word] rest split fields := by
  obtain ⟨whole, leads⟩ := splits
  obtain ⟨first, more, others, rfl⟩ := leads.exists_first
  obtain ⟨rfl, -⟩ := List.cons.inj whole
  exact ⟨⟨whole, leads⟩, more, others, rfl⟩

/-- With no words left, the words taken name the only field. -/
theorem splitsAfter_nil_iff (nonempty : taken ≠ []) :
    schema.SplitsAfter struct taken [] split fields ↔
      ∃ field, struct.field? (spell taken) = some field ∧ split = [taken] ∧ fields = [field] := by
  constructor
  · rintro ⟨⟨whole, leads⟩, more, others, rfl⟩
    rw [List.flatten_cons, List.append_assoc, List.append_cancel_left_eq,
      List.append_eq_nil_iff] at whole
    obtain ⟨rfl, done⟩ := whole
    rw [List.append_nil] at leads ⊢
    cases leads with
    | last _ named => exact ⟨_, named, rfl, rfl⟩
    | inside _ _ _ below => exact absurd done below.flatten_ne_nil
  · rintro ⟨field, named, rfl, rfl⟩
    exact ⟨⟨by simp, .last nonempty named⟩, [], [], by simp⟩

/-- The next word belongs to the first segment, or it starts the second one. -/
theorem splitsAfter_cons_iff (nonempty : taken ≠ []) :
    schema.SplitsAfter struct taken (word :: rest) split fields ↔
      schema.SplitsAfter struct (taken ++ [word]) rest split fields ∨
        ∃ field inner others below, struct.field? (spell taken) = some field ∧
          schema.structOf? field.type = some inner ∧
          schema.SplitsAfter inner [word] rest others below ∧
          split = taken :: others ∧ fields = field :: below := by
  constructor
  · rintro ⟨⟨whole, leads⟩, more, others, rfl⟩
    cases more with
    | cons next more =>
        rw [List.flatten_cons, List.append_assoc, List.append_cancel_left_eq,
          List.cons_append] at whole
        obtain ⟨rfl, after⟩ := List.cons.inj whole
        refine .inl ⟨⟨?_, leads⟩, more, others, by simp⟩
        rw [List.flatten_cons, ← after]
        simp
    | nil =>
        rw [List.flatten_cons, List.append_nil, List.append_cancel_left_eq] at whole
        rw [List.append_nil] at leads ⊢
        cases leads with
        | last _ _ => cases whole
        | inside _ named held below =>
            exact .inr ⟨_, _, _, _, named, held, Splits.after ⟨whole, below⟩, rfl, rfl⟩
  · rintro (⟨⟨whole, leads⟩, more, others, rfl⟩ | ⟨field, inner, others, below, named, held,
        after, rfl, rfl⟩)
    · exact ⟨⟨by simpa using whole, leads⟩, word :: more, others, by simp⟩
    · obtain ⟨⟨whole, leads⟩, -⟩ := after
      refine ⟨⟨?_, .inside nonempty named held leads⟩, [], others, by simp⟩
      rw [List.flatten_cons, whole]
      rfl

/-- A segment that stops before a word makes for smaller lengths than one that goes on
with it. -/
theorem SplitsAfter.upTo_of_stop {greatest others : List (List String)}
    (further : schema.SplitsAfter struct (taken ++ [word]) rest greatest fields) :
    UpTo greatest (taken :: others) := by
  obtain ⟨-, more, later, rfl⟩ := further
  refine .inr (.rel ?_)
  simp only [List.length_append, List.length_cons]
  omega

/-! ## The split that is found -/

/-- No split is missed. -/
theorem pathAfter_ne_none_of_splitsAfter (nonempty : taken ≠ [])
    (splits : schema.SplitsAfter struct taken rest split fields) :
    schema.pathAfter struct (spell taken) rest ≠ none := by
  induction rest generalizing struct taken split fields with
  | nil =>
      obtain ⟨field, named, -, -⟩ := (splitsAfter_nil_iff nonempty).mp splits
      simp [pathAfter, named]
  | cons word rest ih =>
      have spelled : spell taken ++ word = spell (taken ++ [word]) := by
        rw [spell_append, spell_singleton]
      rw [pathAfter, spelled]
      cases longer : schema.pathAfter struct (spell (taken ++ [word])) rest with
      | some path => simp
      | none =>
          rcases (splitsAfter_cons_iff nonempty).mp splits with further |
              ⟨field, inner, others, below, named, held, after, -, -⟩
          · exact absurd longer (ih (by simp) further)
          · have reached := ih (List.cons_ne_nil word []) after
            rw [spell_singleton] at reached
            simp only [named, held, ne_eq, Option.map_eq_none_iff]
            exact reached

/-- The path that is found belongs to a split, and every other split has smaller
lengths. -/
theorem exists_greatest_of_pathAfter (nonempty : taken ≠ []) {path : FieldPath}
    (found : schema.pathAfter struct (spell taken) rest = some path) :
    ∃ greatest, schema.SplitsAfter struct taken rest greatest path.fields ∧
      ∀ split fields, schema.SplitsAfter struct taken rest split fields →
        UpTo greatest split := by
  induction rest generalizing struct taken path with
  | nil =>
      rw [pathAfter, Option.map_eq_some_iff] at found
      obtain ⟨field, named, rfl⟩ := found
      refine ⟨[taken], (splitsAfter_nil_iff nonempty).mpr ⟨field, named, rfl, rfl⟩, ?_⟩
      intro split fields splits
      obtain ⟨-, -, same, -⟩ := (splitsAfter_nil_iff nonempty).mp splits
      exact .inl same
  | cons word rest ih =>
      have spelled : spell taken ++ word = spell (taken ++ [word]) := by
        rw [spell_append, spell_singleton]
      rw [pathAfter, spelled] at found
      cases longer : schema.pathAfter struct (spell (taken ++ [word])) rest with
      | some further =>
          -- the first segment goes on, and a split where it stops is smaller
          rw [longer] at found
          cases found
          obtain ⟨greatest, splits, upTo⟩ := ih (by simp) longer
          refine ⟨greatest, (splitsAfter_cons_iff nonempty).mpr (.inl splits), ?_⟩
          intro split fields other
          rcases (splitsAfter_cons_iff nonempty).mp other with goesOn |
              ⟨field, inner, others, below, -, -, -, rfl, -⟩
          · exact upTo split fields goesOn
          · exact splits.upTo_of_stop
      | none =>
          -- no split goes on, so the lengths differ after the first segment
          rw [longer] at found
          simp only at found
          split at found
          · cases found
          · next field named =>
              split at found
              · cases found
              · next inner held =>
                  obtain ⟨below, reached, rfl⟩ := Option.map_eq_some_iff.mp found
                  rw [← spell_singleton word] at reached
                  obtain ⟨greatest, splits, upTo⟩ := ih (List.cons_ne_nil word []) reached
                  refine ⟨taken :: greatest, (splitsAfter_cons_iff nonempty).mpr
                    (.inr ⟨field, inner, greatest, _, named, held, splits, rfl, rfl⟩), ?_⟩
                  intro split fields other
                  rcases (splitsAfter_cons_iff nonempty).mp other with goesOn |
                      ⟨field', inner', others, below', named', held', after, rfl, -⟩
                  · exact absurd longer
                      (pathAfter_ne_none_of_splitsAfter (by simp) goesOn)
                  · rw [named] at named'
                    cases named'
                    rw [held] at held'
                    cases held'
                    exact (upTo others below' after).cons taken

/-! ## Whole runs -/

theorem path?_ne_none_of_splits (splits : schema.Splits struct run split fields) :
    schema.path? struct run ≠ none := by
  cases run with
  | nil => exact absurd splits.whole splits.leads.flatten_ne_nil
  | cons word rest =>
      have found := pathAfter_ne_none_of_splitsAfter (List.cons_ne_nil word []) splits.after
      rw [spell_singleton] at found
      exact found

theorem exists_greatest_of_path? {path : FieldPath} (found : schema.path? struct run = some path) :
    ∃ greatest, schema.Splits struct run greatest path.fields ∧
      ∀ split fields, schema.Splits struct run split fields → UpTo greatest split := by
  cases run with
  | nil => cases found
  | cons word rest =>
      rw [path?, ← spell_singleton word] at found
      obtain ⟨greatest, splits, upTo⟩ :=
        exists_greatest_of_pathAfter (List.cons_ne_nil word []) found
      exact ⟨greatest, splits.toSplits, fun split fields other => upTo split fields other.after⟩

end Schema

/-- A run of words is resolved exactly when it has a split, and then to the fields of
the split with the greatest lengths; every other split has smaller ones.  A run without
a split is not found, by the text that it spells. -/
theorem Entity.resolve_by_greatest_split (entity : Entity) (run : List String) :
    ((∃ path, entity.resolve run = .ok path) ↔
      ∃ split fields, entity.schema.Splits entity.struct run split fields) ∧
    (∀ path, entity.resolve run = .ok path → path.fields ≠ [] ∧
      ∃ greatest, entity.schema.Splits entity.struct run greatest path.fields ∧
        ∀ split fields, entity.schema.Splits entity.struct run split fields →
          split = greatest ∨
            List.Lex (· < ·) (split.map List.length) (greatest.map List.length)) ∧
    ((¬ ∃ split fields, entity.schema.Splits entity.struct run split fields) →
      entity.resolve run = .error (.fieldNotFound (spell run))) := by
  refine ⟨⟨?_, ?_⟩, ?_, ?_⟩
  · rintro ⟨path, resolved⟩
    obtain ⟨greatest, splits, -⟩ := Schema.exists_greatest_of_path? (resolve_eq_ok_iff.mp resolved)
    exact ⟨greatest, path.fields, splits⟩
  · rintro ⟨split, fields, splits⟩
    obtain ⟨path, found⟩ := Option.ne_none_iff_exists'.mp (Schema.path?_ne_none_of_splits splits)
    exact ⟨path, resolve_eq_ok_iff.mpr found⟩
  · intro path resolved
    exact ⟨List.cons_ne_nil _ _, Schema.exists_greatest_of_path? (resolve_eq_ok_iff.mp resolved)⟩
  · intro none
    cases found : entity.schema.path? entity.struct run with
    | none => rw [resolve, found]
    | some path =>
        obtain ⟨greatest, splits, -⟩ := Schema.exists_greatest_of_path? found
        exact absurd ⟨greatest, path.fields, splits⟩ none

namespace Chains

def key : Field := ⟨"Key", .named "Node", none⟩

def next : Field := ⟨"Next", .pointer (.named "Node"), none⟩

def nextKey : Field := ⟨"NextKey", .named "string", none⟩

/-- Nodes that hold nodes. -/
def entity : Entity :=
  let node : Struct := ⟨"Node", [key, next, nextKey]⟩
  ⟨⟨"node", [], [node], [], []⟩, node⟩

/-- The first two words name a field by themselves, but then nothing names the other
two: the first field is `Next`, and the last two words are read together. -/
theorem next_key_next_key :
    entity.resolve ["Next", "Key", "Next", "Key"] = .ok ⟨next, [key, nextKey]⟩ ∧
    ∃ greatest, entity.schema.Splits entity.struct ["Next", "Key", "Next", "Key"] greatest
        [next, key, nextKey] ∧
      ∀ split fields,
        entity.schema.Splits entity.struct ["Next", "Key", "Next", "Key"] split fields →
          split = greatest ∨
            List.Lex (· < ·) (split.map List.length) (greatest.map List.length) := by
  obtain ⟨-, found, -⟩ := Entity.resolve_by_greatest_split entity ["Next", "Key", "Next", "Key"]
  have resolved : entity.resolve ["Next", "Key", "Next", "Key"] = .ok ⟨next, [key, nextKey]⟩ := rfl
  exact ⟨resolved, (found _ resolved).2⟩

end Chains

end NamedQuery
