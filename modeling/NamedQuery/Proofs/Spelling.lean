import NamedQuery.Proofs.Check

/-!
# Method names spell their operations

The texts that spell an operation, clause by clause.  A method name is a spelling
of the operation it is planned as: every piece of the name belongs to one clause,
and the clauses follow one another with nothing lost between them.
-/

namespace NamedQuery

open Text

/-! ## Spellings of clauses -/

/-- A predicate is spelled by its field and the words of its comparator. -/
def Predicate.spelling (predicate : Predicate) : String :=
  predicate.field.spelling ++ spell predicate.comparator.suffix

/-- A query is spelled by `All`, or by `By` and its predicates.  Only a query of
several predicates has a connective, which stands between them. -/
inductive Query.Spelled : Query → String → Prop where
  | all : Spelled ⟨none, []⟩ "All"
  | single (predicate : Predicate) : Spelled ⟨none, [predicate]⟩ ("By" ++ predicate.spelling)
  | several (connective : Connective) {predicates : List Predicate}
      (two : 2 ≤ predicates.length) :
      Spelled ⟨some connective, predicates⟩
        ("By" ++ joined connective.text (predicates.map Predicate.spelling))

/-- A sort key is spelled by its field and its direction.  Only the ascending one
may be left out. -/
inductive SortKey.Spelled : SortKey → String → Prop where
  | plain (field : FieldPath) : Spelled ⟨field, .ascending⟩ field.spelling
  | ascending (field : FieldPath) : Spelled ⟨field, .ascending⟩ (field.spelling ++ "Asc")
  | descending (field : FieldPath) : Spelled ⟨field, .descending⟩ (field.spelling ++ "Desc")

inductive SortsSpelled : List SortKey → String → Prop where
  | absent : SortsSpelled [] ""
  | order {sorts : List SortKey} {keys : List String} (nonempty : sorts ≠ [])
      (each : List.Forall₂ SortKey.Spelled sorts keys) :
      SortsSpelled sorts ("OrderBy" ++ joined "And" keys)

/-- `One` may only be asked of a method of one document. -/
inductive OneSpelled : Mode → String → Prop where
  | absent (mode : Mode) : OneSpelled mode ""
  | one : OneSpelled .one "One"

/-- A limit may only be asked of a method of many documents, and is spelled in
decimal digits. -/
inductive LimitSpelled : Mode → Option Nat → String → Prop where
  | absent (mode : Mode) : LimitSpelled mode none ""
  | top {digits : List Char} (nonempty : digits ≠ [])
      (decimal : ∀ c ∈ digits, '0' ≤ c ∧ c ≤ '9') :
      LimitSpelled .many (some (numeral digits)) ("Top" ++ String.ofList digits)

inductive InsertSpelled : Mode → String → Prop where
  | absent (mode : Mode) : InsertSpelled mode ""
  | one : InsertSpelled .one "One"
  | many : InsertSpelled .many "Many"

/-- What stands after an updated field. -/
def UpdateOperator.text : UpdateOperator → String
  | .set => ""
  | .push => "Push"
  | .increment => "Inc"

def Assignment.spelling (assignment : Assignment) : String :=
  assignment.field.spelling ++ assignment.operator.text

inductive Change.Spelled : Change → String → Prop where
  | model (slot : Nat) : Spelled (.model slot) ""
  | fields {assignments : List Assignment} (nonempty : assignments ≠ []) :
      Spelled (.fields assignments) (joined "And" (assignments.map Assignment.spelling))

/-- An operation is spelled by its keyword and the spellings of its clauses. -/
inductive Operation.Spelled : Operation → String → Prop where
  | insert {mode : Mode} {modifier : String} (modified : InsertSpelled mode modifier) :
      Spelled (.insert mode) ("Insert" ++ modifier)
  | find {mode : Mode} {query : Query} {sorts : List SortKey} {limit : Option Nat}
      {one top clause order : String} (single : OneSpelled mode one)
      (limited : LimitSpelled mode limit top) (queried : query.Spelled clause)
      (sorted : SortsSpelled sorts order) :
      Spelled (.find mode query sorts limit) ("Find" ++ one ++ top ++ clause ++ order)
  | update {change : Change} {mode : Mode} {query : Query} {fields clause : String}
      (changed : change.Spelled fields) (queried : query.Spelled clause) :
      Spelled (.update change mode query) ("Update" ++ fields ++ clause)
  | delete {mode : Mode} {query : Query} {clause : String} (queried : query.Spelled clause) :
      Spelled (.delete mode query) ("Delete" ++ clause)
  | count {query : Query} {clause : String} (queried : query.Spelled clause) :
      Spelled (.count query) ("Count" ++ clause)

namespace Entity

/-! ## Readings of clauses -/

/-- Items that are related to values of the same text have the same texts. -/
theorem map_eq_map_of_forall₂ {α β γ : Type} {related : α → β → Prop} {left : α → γ}
    {right : β → γ} {items : List α} {values : List β}
    (each : List.Forall₂ related items values)
    (same : ∀ item value, related item value → left item = right value) :
    items.map left = values.map right := by
  rw [← List.forall₂_eq_eq_eq, List.forall₂_map_left_iff, List.forall₂_map_right_iff]
  exact each.imp same

/-- A run that is read as a predicate spells it. -/
theorem ReadsPredicate.spell_run {entity : Entity} {run : List String} {predicate : Predicate}
    (reads : entity.ReadsPredicate run predicate) : spell run = predicate.spelling := by
  rw [Predicate.spelling, spelling_of_resolve reads.field, reads.comparator, ← spell_append,
    Comparator.fieldWords_append_suffix]

theorem spelled_of_readQuery {entity : Entity} {slot : Nat} {words : List String}
    {query : Query} (read : entity.readQuery slot words = .ok query) :
    query.Spelled (spell words) := by
  rcases readQuery_eq_ok_iff.mp read with ⟨rfl, rfl⟩ | ⟨rest, rfl, predicates⟩
  · exact .all
  · obtain ⟨connective, groups, nonempty, -, rfl, runs, shared⟩ :=
      readPredicates_eq_ok_iff.mp predicates
    have texts : groups.map spell = query.predicates.map Predicate.spelling :=
      map_eq_map_of_forall₂ runs.each fun _ _ reads => reads.spell_run
    have count := runs.each.length_eq
    rw [spell, spell_intercalate, texts, Connective.keyword_spelling]
    rcases query with ⟨joint, compared⟩
    simp only at shared count ⊢
    subst shared
    rcases groups with _ | ⟨run, _ | ⟨next, later⟩⟩
    · exact absurd rfl nonempty
    · obtain ⟨predicate, rfl⟩ := List.length_eq_one_iff.mp count.symm
      exact .single predicate
    · exact .several connective (by simp [← count])

/-- A run that is read as a sort key spells it. -/
theorem ReadsSortKey.spelled {entity : Entity} {run : List String} {key : SortKey}
    (reads : entity.ReadsSortKey run key) : key.Spelled (spell run) := by
  obtain ⟨found, directed⟩ := reads
  have spelled := spelling_of_resolve found
  rcases key with ⟨field, direction⟩
  simp only at directed spelled
  subst directed
  rcases sortParts_cases run with ⟨words, ending, parts⟩ | ⟨words, ending, parts⟩ | parts
  · rw [parts] at spelled ⊢
    rw [ending, spell_append, ← spelled]
    exact .ascending field
  · rw [parts] at spelled ⊢
    rw [ending, spell_append, ← spelled]
    exact .descending field
  · rw [parts] at spelled ⊢
    rw [← spelled]
    exact .plain field

theorem SortWords.spelled {entity : Entity} {words : List String} {sorts : List SortKey}
    (sorted : entity.SortWords words sorts) : SortsSpelled sorts (spell words) := by
  cases sorted with
  | absent => exact .absent
  | @order keyWords _ read =>
      have each := readSorts_eq_ok_iff.mp read
      have nonempty : sorts ≠ [] := by
        rintro rfl
        exact runs_ne_nil _ _ (List.forall₂_nil_right_iff.mp each)
      have text : spell keyWords =
          joined "And" ((runs Keyword.and.spelling keyWords).map spell) := by
        rw [← spell_intercalate]
        exact congrArg spell (intercalate_runs _ keyWords).symm
      rw [spell, spell, text, ← String.append_assoc]
      refine .order nonempty ?_
      rw [List.forall₂_map_right_iff]
      exact each.flip.imp fun _ _ reads => reads.spelled

/-- A run that is read as an assignment spells it. -/
theorem ReadsAssignment.spell_run {entity : Entity} {run : List String}
    {assignment : Assignment} (reads : entity.ReadsAssignment run assignment) :
    spell run = assignment.spelling := by
  have ending : spell (operatorWords assignment.operator) = assignment.operator.text := by
    cases assignment.operator <;> rfl
  rw [Assignment.spelling, ← ending, spelling_of_resolve reads.field, ← spell_append,
    reads.operator, assignmentParts_append]

theorem spelled_of_readChange {entity : Entity} {params : List GoType} {slot : Nat}
    {words : List String} {change : Change}
    (read : entity.readChange params slot words = .ok change) :
    change.Spelled (spell words) := by
  rcases readChange_eq_ok_iff.mp read with ⟨rfl, -, rfl⟩ | ⟨-, assignments, rfl, fields⟩
  · exact .model slot
  · have texts := map_eq_map_of_forall₂ fields.each fun _ _ reads => reads.spell_run
    have nonempty : assignments ≠ [] := by
      rintro rfl
      exact runs_ne_nil _ _ (List.forall₂_nil_right_iff.mp fields.each)
    rw [← intercalate_runs Keyword.and.spelling words, spell_intercalate, texts]
    exact .fields nonempty

/-! ## Readings of names -/

theorem OneWords.spelled {mode : Mode} {words : List String} (single : OneWords mode words) :
    OneSpelled mode (spell words) := by
  cases single with
  | absent => exact .absent mode
  | one => exact .one

theorem LimitWords.spelled {mode : Mode} {words : List String} {limit : Option Nat}
    (limited : LimitWords mode words limit) : LimitSpelled mode limit (spell words) := by
  cases limited with
  | absent => exact .absent mode
  | @top digits shape =>
      rw [spell_singleton]
      refine .top shape.nonempty fun c member => ?_
      simpa [isDigit] using shape.decimal c member

/-- Words that are read as an operation spell it. -/
theorem Reading.spelled {entity : Entity} {params results : List GoType}
    {words : List String} {operation : Operation}
    (reading : entity.Reading params results words operation) :
    operation.Spelled (spell words) := by
  cases reading with
  | @insert mode _ fits agrees =>
      rcases agrees with rfl | rfl
      · exact .insert (.absent mode)
      · cases mode with
        | one => exact .insert .one
        | many => exact .insert .many
  | find fits single limited queried sorted =>
      rw [spell, spell_append, spell_append, spell_append, ← String.append_assoc,
        ← String.append_assoc, ← String.append_assoc]
      exact .find single.spelled limited.spelled (spelled_of_readQuery queried) sorted.spelled
  | update fits changed queried =>
      rw [spell, spell_append, ← String.append_assoc]
      exact .update (spelled_of_readChange changed) (spelled_of_readQuery queried)
  | delete fits queried => exact .delete (spelled_of_readQuery queried)
  | count fits queried => exact .count (spelled_of_readQuery queried)

/-- The name of a planned method spells the operation of its plan. -/
theorem spelled_of_plan {entity : Entity} {method : Signature} {plan : Plan}
    (planned : entity.plan method = .ok plan) : plan.operation.Spelled method.name := by
  have spelled := (reading_of_readOperation (read_of_plan planned).2.1).spelled
  rw [spell_words] at spelled
  exact spelled

end Entity

namespace Users

/-- At most five users with a phone number or in a range of ages, the oldest first. -/
def search : Signature :=
  ⟨"FindTop5ByContactPhoneOrAgeBetweenOrderByAgeDesc",
    [.context, .named "string", .named "int", .named "int"],
    [.slice (.pointer (.named "User")), .error]⟩

def searchQuery : Query :=
  ⟨some .or, [⟨⟨contact, [phone]⟩, .equal, 1⟩, ⟨⟨age, []⟩, .between, 2⟩]⟩

def searchOperation : Operation :=
  .find .many searchQuery [⟨⟨age, []⟩, .descending⟩] (some 5)

theorem plan_search : entity.plan search = .ok ⟨search, searchOperation⟩ := by
  have cut : words search.name = ["Find", "Top5", "By", "Contact", "Phone", "Or", "Age",
      "Between", "Order", "By", "Age", "Desc"] := by decide +kernel
  rw [Entity.plan, cut]
  rfl

theorem search_spelled :
    entity.plan search = .ok ⟨search, searchOperation⟩ ∧ searchOperation.Spelled search.name :=
  ⟨plan_search, Entity.spelled_of_plan plan_search⟩

end Users

end NamedQuery
