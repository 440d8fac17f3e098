import NamedQuery.Proofs.Body
import NamedQuery.Proofs.Grammar

/-!
# Limits in method bodies

The number after `Top` is written into the body of the method as a decimal literal, in
the one call that sets the limit.  It is any positive number of 64 bits, while the
driver takes an integer of 64 bits with a sign: the literal can be passed exactly when
the number fits into the other 63 bits.
-/

namespace NamedQuery

open Code Text

/-! ## Decimal literals -/

/-- A decimal literal of a positive number: digits without a leading zero, which would
make it an octal one. -/
structure DecimalLiteral (text : String) (value : Nat) : Prop where
  nonempty : text.toList ≠ []
  decimal : ∀ c ∈ text.toList, isDigit c
  plain : text.toList.head? ≠ some '0'
  value_eq : numeral text.toList = value

theorem numeral_eq_ofDigitChars (digits : List Char) :
    numeral digits = Nat.ofDigitChars 10 digits 0 := by
  simp only [numeral, digitValue, Nat.ofDigitChars, Nat.mul_comm]

theorem head?_toDigits_ne_zero {number : Nat} (positive : 0 < number) :
    (Nat.toDigits 10 number).head? ≠ some '0' := by
  induction number using Nat.strongRecOn with
  | ind number ih =>
      rw [Nat.toDigits_eq_if (by decide)]
      split
      · next small =>
          have digit : ∀ value < 10, 0 < value → Nat.digitChar value ≠ '0' := by decide
          simpa using digit number small positive
      · next large =>
          rw [List.head?_append_of_ne_nil _ Nat.toDigits_ne_nil]
          exact ih (number / 10) (by omega) (by omega)

theorem decimalLiteral_toString {number : Nat} (positive : 0 < number) :
    DecimalLiteral (toString number) number := by
  have digits : (toString number).toList = Nat.toDigits 10 number := Nat.toList_repr
  refine ⟨?_, ?_, ?_, ?_⟩ <;> rw [digits]
  · exact Nat.toDigits_ne_nil
  · intro c member
    have decimal := Nat.isDigit_of_mem_toDigits (by decide) (by decide) member
    simpa [Char.isDigit, isDigit, Char.le_def] using decimal
  · exact head?_toDigits_ne_zero positive
  · rw [numeral_eq_ofDigitChars, Nat.ofDigitChars_ten_toDigits]

namespace Mongo

/-- The largest limit that the driver takes: it is an integer of 64 bits with a sign. -/
def driverBound : Nat := Nat.pow 2 63 - 1

/-- A literal that can be passed as a limit. -/
def Passable (literal : String) : Prop :=
  ∃ value, DecimalLiteral literal value ∧ 1 ≤ value ∧ value ≤ driverBound

theorem passable_iff {literal : String} {value : Nat} (written : DecimalLiteral literal value) :
    Passable literal ↔ 1 ≤ value ∧ value ≤ driverBound := by
  constructor
  · rintro ⟨other, same, range⟩
    rw [← written.value_eq, same.value_eq]
    exact range
  · intro range
    exact ⟨value, written, range⟩

/-! ## Calls in bodies -/

@[simp]
theorem calls_arg (slot : Nat) : (arg slot).calls = [] := rfl

@[simp]
theorem calls_operand (key : String) (value : Expr) :
    (operand key value).calls = value.calls := by
  simp [operand]

theorem calls_conditionValue (comparator : Comparator) (slot : Nat) :
    (conditionValue comparator slot).calls = [] := by
  cases comparator <;> simp [conditionValue]

theorem calls_combine (connective : Option Connective) (conditions : List (Expr × Expr)) :
    (combine connective conditions).calls =
      conditions.flatMap fun entry => entry.1.calls ++ entry.2.calls := by
  unfold combine
  split <;> simp [List.flatMap_map]

/-- A filter calls nothing. -/
theorem calls_filter {query : Query} {document : Expr} (built : filter query = .ok document) :
    document.calls = [] := by
  obtain ⟨conditions, each, rfl⟩ := map_eq_ok_iff.mp built
  have none : (conditions.flatMap fun entry => entry.1.calls ++ entry.2.calls) =
      query.predicates.flatMap fun _ => [] := by
    refine flatMap_eq_of_mapM each ?_
    intro predicate entry made
    obtain ⟨path, -, rfl⟩ := map_eq_ok_iff.mp made
    exact calls_conditionValue predicate.comparator predicate.slot
  rw [calls_combine, none]
  simp

/-- A sort document calls nothing. -/
theorem calls_sortDocument {keys : List SortKey} {document : Expr}
    (built : sortDocument keys = .ok document) : document.calls = [] := by
  obtain ⟨entries, each, rfl⟩ := map_eq_ok_iff.mp built
  have none : entries.flatMap Expr.calls = keys.flatMap fun _ => [] := by
    refine flatMap_eq_of_mapM each ?_
    intro key entry made
    obtain ⟨path, -, rfl⟩ := map_eq_ok_iff.mp made
    simp
  rw [Expr.calls_slice, none]
  simp

/-- The calls that set a limit. -/
def settingLimit (calls : List (String × List Expr)) : List (String × List Expr) :=
  calls.filter fun call => call.1 == "SetLimit"

theorem settingLimit_findOptions {mode : Mode} {sorts : List SortKey} {limit : Option Nat}
    {options : List Expr} (built : findOptions mode sorts limit = .ok options) :
    settingLimit (options.flatMap Expr.calls) =
      limit.toList.map fun count => ("SetLimit", [.raw (toString count)]) := by
  cases findOptions_cases built with
  | absent => rfl
  | limited count => cases mode <;> simp [settingLimit, optionsName]
  | sorted nonempty made =>
      cases mode <;> cases limit <;>
        simp [settingLimit, optionsName, calls_sortDocument made]

theorem settingLimit_findStatements (entity : String) (mode : Mode) (args : List Expr) :
    settingLimit ((findStatements entity mode args).flatMap Stmt.calls) =
      settingLimit (args.flatMap Expr.calls) := by
  cases mode <;> simp [settingLimit, findStatements, checkCall, returnOnError, failure, success,
    collectionCall]

/-- The calls that set a limit in a body. -/
def limitCalls (statements : List Stmt) : List (String × List Expr) :=
  settingLimit (statements.flatMap Stmt.calls)

/-- The body of a find sets its limit once, if it has one, and otherwise not. -/
theorem limitCalls_body {entity : String} {mode : Mode} {query : Query} {sorts : List SortKey}
    {limit : Option Nat} {statements : List Stmt}
    (translated : body entity (.find mode query sorts limit) = .ok statements) :
    limitCalls statements =
      limit.toList.map fun count => ("SetLimit", [.raw (toString count)]) := by
  obtain ⟨document, filtered, afterFilter⟩ := bind_eq_ok_iff.mp translated
  obtain ⟨options, chosen, done⟩ := bind_eq_ok_iff.mp afterFilter
  cases done
  rw [limitCalls, settingLimit_findStatements, List.flatMap_cons, List.flatMap_cons, calls_arg,
    calls_filter filtered, List.nil_append, List.nil_append, settingLimit_findOptions chosen]

end Mongo

/-! ## Limits in names -/

namespace Entity

theorem afterLimit_limitWord {results : List GoType} {mode : Mode} {digits : List Char}
    {rest later : List String} {limit : Option Nat} (decimal : ∀ c ∈ digits, isDigit c = true)
    (read : afterLimit results mode (limitWord digits :: rest) = .ok (limit, later)) :
    mode = .many ∧ LimitDigits digits ∧ limit = some (numeral digits) := by
  rw [afterLimit, Grammar.limitDigits?_limitWord decimal] at read
  dsimp only at read
  split at read
  · cases read
  · next many =>
      split at read
      · next count known =>
          cases read
          obtain ⟨shape, rfl⟩ := limitOf?_eq_some_iff.mp known
          cases mode with
          | one => exact absurd rfl many
          | many => exact ⟨rfl, shape, rfl⟩
      · cases read

/-- A find with a limit in its name is read as a find of many documents, and its limit is
the number of the digits. -/
theorem limit_of_readFind {entity : Entity} {results : List GoType} {digits : List Char}
    {rest : List String} {operation : Operation} (decimal : ∀ c ∈ digits, isDigit c = true)
    (read : entity.readFind results (limitWord digits :: rest) = .ok operation) :
    LimitDigits digits ∧
      ∃ query sorts, operation = .find .many query sorts (some (numeral digits)) := by
  obtain ⟨mode, -, afterMode⟩ := bind_eq_ok_iff.mp read
  obtain ⟨later, first, afterFirst⟩ := bind_eq_ok_iff.mp afterMode
  obtain ⟨⟨limit, clause⟩, second, afterSecond⟩ := bind_eq_ok_iff.mp afterFirst
  obtain ⟨query, -, last⟩ := bind_eq_ok_iff.mp afterSecond
  have other : limitWord digits ≠ Keyword.one.spelling := by
    intro same
    have found := Grammar.limitDigits?_limitWord decimal
    rw [same] at found
    cases found
  rw [afterOne, if_neg other] at first
  cases first
  obtain ⟨rfl, shape, rfl⟩ := afterLimit_limitWord decimal second
  refine ⟨shape, query, ?_⟩
  split at last
  · cases last
    exact ⟨[], rfl⟩
  · obtain ⟨sorts, -, done⟩ := bind_eq_ok_iff.mp last
    cases done
    exact ⟨sorts, rfl⟩

end Entity

namespace Mongo

/-- The body of a find with a limit in its name sets the limit once, to a decimal literal
of the number in the name.  The number is positive and has 64 bits, and the literal can
be passed to the driver exactly when the number has no more than 63. -/
theorem limit_passable_iff {entity : Entity} {method : Signature} {plan : Plan} {name : String}
    {digits : List Char} {rest : List String} {statements : List Stmt}
    (decimal : ∀ c ∈ digits, isDigit c = true)
    (cut : words method.name = "Find" :: ("Top" ++ String.ofList digits) :: rest)
    (planned : entity.plan method = .ok plan)
    (translated : body name plan.operation = .ok statements) :
    ∃ literal, limitCalls statements = [("SetLimit", [.raw literal])] ∧
      DecimalLiteral literal (numeral digits) ∧
      1 ≤ numeral digits ∧ numeral digits ≤ Nat.pow 2 64 - 1 ∧
      (Passable literal ↔ numeral digits ≤ Nat.pow 2 63 - 1) := by
  obtain ⟨-, read, -⟩ := Entity.read_of_plan planned
  rw [cut] at read
  obtain ⟨shape, query, sorts, found⟩ := Entity.limit_of_readFind decimal read
  rw [found] at translated
  have written := decimalLiteral_toString shape.positive
  refine ⟨toString (numeral digits), limitCalls_body translated, written, shape.positive,
    shape.bounded, ?_⟩
  rw [passable_iff written]
  exact and_iff_right shape.positive

end Mongo

namespace Users

/-- A method with a limit. -/
def findTop (digits : String) : Signature :=
  ⟨"FindTop" ++ digits ++ "AllOrderByAgeDesc", [.context],
    [.slice (.pointer (.named "User")), .error]⟩

theorem top_ten_passable :
    ∃ plan statements literal, entity.plan (findTop "010") = .ok plan ∧
      Mongo.body "User" plan.operation = .ok statements ∧
      Mongo.limitCalls statements = [("SetLimit", [.raw literal])] ∧
      DecimalLiteral literal 10 ∧ Mongo.Passable literal := by
  have cut : words (findTop "010").name = ["Find", "Top010", "All", "Order", "By", "Age",
      "Desc"] := by decide +kernel
  have planned : entity.plan (findTop "010") = .ok ⟨findTop "010",
      .find .many .everything [⟨⟨age, []⟩, .descending⟩] (some 10)⟩ := by
    rw [Entity.plan, cut]
    rfl
  have translated : ∃ statements, Mongo.body "User"
      (.find .many .everything [⟨⟨age, []⟩, .descending⟩] (some 10)) = .ok statements := ⟨_, rfl⟩
  obtain ⟨statements, made⟩ := translated
  have decimal : ∀ c ∈ ['0', '1', '0'], isDigit c = true := List.all_eq_true.mp rfl
  obtain ⟨literal, called, written, -, -, passable⟩ :=
    Mongo.limit_passable_iff decimal cut planned made
  exact ⟨_, statements, literal, planned, made, called, written, passable.mpr (by decide)⟩

/-- The limit is one more than the largest that the driver takes. -/
theorem limit_not_passable :
    ∃ plan statements, entity.plan (findTop "9223372036854775808") = .ok plan ∧
      Mongo.body "User" plan.operation = .ok statements ∧
      Mongo.limitCalls statements = [("SetLimit", [.raw "9223372036854775808"])] ∧
      DecimalLiteral "9223372036854775808" 9223372036854775808 ∧
      ¬ Mongo.Passable "9223372036854775808" := by
  have cut : words (findTop "9223372036854775808").name = ["Find", "Top9223372036854775808",
      "All", "Order", "By", "Age", "Desc"] := by decide +kernel
  have planned : entity.plan (findTop "9223372036854775808") = .ok
      ⟨findTop "9223372036854775808", .find .many .everything [⟨⟨age, []⟩, .descending⟩]
        (some 9223372036854775808)⟩ := by
    rw [Entity.plan, cut]
    rfl
  have translated : ∃ statements, Mongo.body "User" (.find .many .everything
      [⟨⟨age, []⟩, .descending⟩] (some 9223372036854775808)) = .ok statements := ⟨_, rfl⟩
  obtain ⟨statements, made⟩ := translated
  have positive : 0 < 9223372036854775808 := by decide
  have written : DecimalLiteral "9223372036854775808" 9223372036854775808 :=
    decimalLiteral_toString positive
  refine ⟨_, statements, planned, made, Mongo.limitCalls_body made, written, ?_⟩
  rw [Mongo.passable_iff written]
  decide

end Users

end NamedQuery
