import Mathlib.Data.List.TakeDrop
import NamedQuery.MethodName.Operation
import NamedQuery.Proofs.Clause

/-!
# What a method name is read as

Every operation that a list of words is read as comes with a reading of the words:
the words are the keyword of the operation followed by the words of its clauses,
in order and with nothing between them, and each clause is read on its own.
-/

namespace NamedQuery

open Text

/-- A computation in two parts gives a value when both parts do. -/
theorem bind_eq_ok_iff {ε α β : Type} {first : Except ε α} {next : α → Except ε β} {value : β} :
    (first >>= next) = .ok value ↔ ∃ middle, first = .ok middle ∧ next middle = .ok value := by
  cases first with
  | error fault => simp [bind, Except.bind]
  | ok middle => simp [bind, Except.bind]

theorem map_eq_ok_iff {ε α β : Type} {first : Except ε α} {change : α → β} {value : β} :
    first.map change = .ok value ↔ ∃ middle, first = .ok middle ∧ change middle = value := by
  cases first with
  | error fault => simp [Except.map]
  | ok middle => simp [Except.map]

/-- The modifier that asks for a mode. -/
def Mode.keyword : Mode → Keyword
  | .one => .one
  | .many => .many

namespace Entity

/-! ## Optional words of a find -/

/-- The words of an optional `One`. -/
inductive OneWords : Mode → List String → Prop where
  | absent (mode : Mode) : OneWords mode []
  | one : OneWords .one [Keyword.one.spelling]

theorem afterOne_sound {results : List GoType} {mode : Mode} {words rest : List String}
    (read : afterOne results mode words = .ok rest) :
    ∃ one, OneWords mode one ∧ words = one ++ rest := by
  cases words with
  | nil =>
      cases read
      exact ⟨[], .absent mode, rfl⟩
  | cons word others =>
      rw [afterOne] at read
      split at read
      · next asked =>
          split at read
          · next single =>
              cases read
              subst single asked
              exact ⟨[_], .one, rfl⟩
          · cases read
      · cases read
        exact ⟨[], .absent mode, rfl⟩

/-- Decimal digits that stand for a limit: a positive number of 64 bits. -/
structure LimitDigits (digits : List Char) : Prop where
  nonempty : digits ≠ []
  decimal : ∀ c ∈ digits, isDigit c = true
  positive : 0 < numeral digits
  bounded : numeral digits ≤ limitBound

theorem limitOf?_eq_some_iff {digits : List Char} {limit : Nat} :
    limitOf? digits = some limit ↔ LimitDigits digits ∧ limit = numeral digits := by
  unfold limitOf?
  constructor
  · intro found
    split at found
    · next shape =>
        split at found
        · next range =>
            cases found
            exact ⟨⟨shape.1, List.all_eq_true.mp shape.2, range.1, range.2⟩, rfl⟩
        · cases found
    · cases found
  · rintro ⟨⟨nonempty, decimal, positive, bounded⟩, rfl⟩
    rw [if_pos ⟨nonempty, List.all_eq_true.mpr decimal⟩, if_pos ⟨positive, bounded⟩]

/-- The word of a limit with the given digits. -/
def limitWord (digits : List Char) : String := Keyword.top.spelling ++ String.ofList digits

theorem eq_limitWord {word : String} {digits : List Char}
    (found : limitDigits? word = some digits) : word = limitWord digits := by
  unfold limitDigits? at found
  cases known : Keyword.afterTop? word with
  | none => simp [known] at found
  | some rest =>
      have kept : rest.toList = digits := by
        rw [known, Option.map_some] at found
        split at found
        · next none => simp_all
        · next c others digit => split at found <;> simp_all
        · cases found
      rw [Keyword.afterTop?_eq_some_iff.mp known, limitWord, ← kept, String.ofList_toList]

/-- The words of an optional limit, which is only asked of many documents. -/
inductive LimitWords : Mode → List String → Option Nat → Prop where
  | absent (mode : Mode) : LimitWords mode [] none
  | top {digits : List Char} (shape : LimitDigits digits) :
      LimitWords .many [limitWord digits] (some (numeral digits))

theorem afterLimit_sound {results : List GoType} {mode : Mode} {words rest : List String}
    {limit : Option Nat} (read : afterLimit results mode words = .ok (limit, rest)) :
    ∃ top, LimitWords mode top limit ∧ words = top ++ rest := by
  cases words with
  | nil =>
      cases read
      exact ⟨[], .absent mode, rfl⟩
  | cons word others =>
      rw [afterLimit] at read
      split at read
      · cases read
        exact ⟨[], .absent mode, rfl⟩
      · next digits found =>
          split at read
          · cases read
          · next many =>
              split at read
              · next count known =>
                  cases read
                  obtain ⟨shape, rfl⟩ := limitOf?_eq_some_iff.mp known
                  cases mode with
                  | one => exact absurd rfl many
                  | many => exact ⟨[word], eq_limitWord found ▸ .top shape, rfl⟩
              · cases read

/-! ## The sort clause of a find -/

/-- The words of an optional sort clause. -/
inductive SortWords (entity : Entity) : List String → List SortKey → Prop where
  | absent : SortWords entity [] []
  | order {words : List String} {keys : List SortKey}
      (read : entity.readSorts words = .ok keys) :
      SortWords entity (Keyword.order.spelling :: Keyword.byClause.spelling :: words) keys

/-- The words of a split, with `Order By` between its parts. -/
def orderWords : Option (List String) → List String
  | none => []
  | some words => Keyword.order.spelling :: Keyword.byClause.spelling :: words

theorem splitOrder_append (words : List String) :
    (splitOrder words).1 ++ orderWords (splitOrder words).2 = words := by
  induction words using splitOrder.induct with
  | case1 => rfl
  | case2 word => rfl
  | case3 word next rest starts =>
      rw [splitOrder, if_pos starts, starts.1, starts.2]
      rfl
  | case4 word next rest inside before after found ih =>
      rw [found] at ih
      rw [splitOrder, if_neg inside, found, ← ih]
      rfl

/-! ## Whole names -/

/-- How a list of words is read as an operation, clause by clause. -/
inductive Reading (entity : Entity) (params results : List GoType) :
    List String → Operation → Prop where
  | insert {mode : Mode} {modifier : List String}
      (fits : OperationKind.insert.resultMode entity.struct results = .ok mode)
      (agrees : modifier = [] ∨ modifier = [mode.keyword.spelling]) :
      Reading entity params results (OperationKind.insert.name :: modifier) (.insert mode)
  | find {mode : Mode} {one top clause order : List String} {limit : Option Nat}
      {query : Query} {sorts : List SortKey}
      (fits : OperationKind.find.resultMode entity.struct results = .ok mode)
      (single : OneWords mode one) (limited : LimitWords mode top limit)
      (queried : entity.readQuery firstSlot clause = .ok query)
      (sorted : entity.SortWords order sorts) :
      Reading entity params results
        (OperationKind.find.name :: (one ++ (top ++ (clause ++ order))))
        (.find mode query sorts limit)
  | update {mode : Mode} {before clause : List String} {change : Change} {query : Query}
      (fits : OperationKind.update.resultMode entity.struct results = .ok mode)
      (changed : entity.readChange params firstSlot before = .ok change)
      (queried : entity.readQuery (firstSlot + change.arity) clause = .ok query) :
      Reading entity params results (OperationKind.update.name :: (before ++ clause))
        (.update change mode query)
  | delete {mode : Mode} {clause : List String} {query : Query}
      (fits : OperationKind.delete.resultMode entity.struct results = .ok mode)
      (queried : entity.readQuery firstSlot clause = .ok query) :
      Reading entity params results (OperationKind.delete.name :: clause) (.delete mode query)
  | count {mode : Mode} {clause : List String} {query : Query}
      (fits : OperationKind.count.resultMode entity.struct results = .ok mode)
      (queried : entity.readQuery firstSlot clause = .ok query) :
      Reading entity params results (OperationKind.count.name :: clause) (.count query)

theorem insertModifier_eq_ok_iff {words : List String} {modifier : Option Mode} :
    insertModifier words = .ok modifier ↔
      (words = [] ∧ modifier = none) ∨
        ∃ mode : Mode, words = [mode.keyword.spelling] ∧ modifier = some mode := by
  constructor
  · intro asked
    unfold insertModifier at asked
    split at asked
    · cases asked
      exact .inl ⟨rfl, rfl⟩
    · split at asked
      · next one =>
          cases asked
          exact .inr ⟨.one, congrArg (fun word => [word]) one, rfl⟩
      · split at asked
        · next many =>
            cases asked
            exact .inr ⟨.many, congrArg (fun word => [word]) many, rfl⟩
        · cases asked
    · cases asked
  · rintro (⟨rfl, rfl⟩ | ⟨mode, rfl, rfl⟩)
    · rfl
    · cases mode <;> rfl

theorem reading_of_readInsert {entity : Entity} {params results : List GoType}
    {words : List String} {operation : Operation}
    (read : entity.readInsert results words = .ok operation) :
    entity.Reading params results (OperationKind.insert.name :: words) operation := by
  obtain ⟨mode, fits, afterMode⟩ := bind_eq_ok_iff.mp read
  obtain ⟨modifier, asked, decided⟩ := bind_eq_ok_iff.mp afterMode
  split at decided
  · next agrees =>
      cases decided
      refine .insert fits ?_
      rcases insertModifier_eq_ok_iff.mp asked with ⟨none, -⟩ | ⟨wanted, spelled, rfl⟩
      · exact .inl none
      · rcases agrees with impossible | same
        · cases impossible
        · cases same
          exact .inr spelled
  · cases decided

theorem reading_of_readFind {entity : Entity} {params results : List GoType}
    {words : List String} {operation : Operation}
    (read : entity.readFind results words = .ok operation) :
    entity.Reading params results (OperationKind.find.name :: words) operation := by
  obtain ⟨mode, fits, afterMode⟩ := bind_eq_ok_iff.mp read
  obtain ⟨later, first, afterFirst⟩ := bind_eq_ok_iff.mp afterMode
  obtain ⟨⟨limit, rest⟩, second, afterSecond⟩ := bind_eq_ok_iff.mp afterFirst
  obtain ⟨query, queried, last⟩ := bind_eq_ok_iff.mp afterSecond
  obtain ⟨one, single, spelledOne⟩ := afterOne_sound first
  obtain ⟨top, limited, spelledTop⟩ := afterLimit_sound second
  have whole := splitOrder_append rest
  split at last
  · next none =>
      cases last
      rw [none] at whole
      rw [spelledOne, spelledTop, ← whole]
      exact .find fits single limited queried .absent
  · next keyWords some =>
      obtain ⟨sorts, sorted, done⟩ := bind_eq_ok_iff.mp last
      cases done
      rw [some] at whole
      rw [spelledOne, spelledTop, ← whole]
      exact .find fits single limited queried (.order sorted)

theorem reading_of_readUpdate {entity : Entity} {params results : List GoType}
    {words : List String} {operation : Operation}
    (read : entity.readUpdate params results words = .ok operation) :
    entity.Reading params results (OperationKind.update.name :: words) operation := by
  obtain ⟨mode, fits, afterMode⟩ := bind_eq_ok_iff.mp read
  rw [List.span_eq_takeWhile_dropWhile] at afterMode
  dsimp only at afterMode
  split at afterMode
  · cases afterMode
  · obtain ⟨change, changed, afterChange⟩ := bind_eq_ok_iff.mp afterMode
    obtain ⟨query, queried, done⟩ := bind_eq_ok_iff.mp afterChange
    cases done
    rw [← List.takeWhile_append_dropWhile (p := fun word => !startsQuery word) (l := words)]
    exact .update fits changed queried

/-- An operation that words are read as has a reading of the words. -/
theorem reading_of_readOperation {entity : Entity} {params results : List GoType}
    {words : List String} {operation : Operation}
    (read : entity.readOperation params results words = .ok operation) :
    entity.Reading params results words operation := by
  cases words with
  | nil => cases read
  | cons head rest =>
      rw [readOperation] at read
      cases known : OperationKind.ofWord? head with
      | none => simp [known] at read
      | some kind =>
          have spelled := OperationKind.ofWord?_eq_some_iff.mp known
          subst spelled
          rw [known] at read
          cases kind with
          | insert => exact reading_of_readInsert read
          | find => exact reading_of_readFind read
          | update => exact reading_of_readUpdate read
          | delete =>
              obtain ⟨mode, fits, afterMode⟩ := bind_eq_ok_iff.mp read
              obtain ⟨query, queried, done⟩ := bind_eq_ok_iff.mp afterMode
              cases done
              exact .delete fits queried
          | count =>
              obtain ⟨mode, fits, afterMode⟩ := bind_eq_ok_iff.mp read
              obtain ⟨query, queried, done⟩ := bind_eq_ok_iff.mp afterMode
              cases done
              exact .count fits queried

/-- The query of an operation is read from the words of its clause. -/
theorem Reading.exists_readQuery {entity : Entity} {params results : List GoType}
    {words : List String} {operation : Operation}
    (reading : entity.Reading params results words operation) {query : Query}
    (queried : operation.query? = some query) :
    ∃ slot clause, entity.readQuery slot clause = .ok query := by
  cases reading with
  | insert fits agrees => cases queried
  | find fits single limited read sorted =>
      cases queried
      exact ⟨_, _, read⟩
  | update fits changed read =>
      cases queried
      exact ⟨_, _, read⟩
  | delete fits read =>
      cases queried
      exact ⟨_, _, read⟩
  | count fits read =>
      cases queried
      exact ⟨_, _, read⟩

end Entity

end NamedQuery
