import Mathlib.Data.List.Count
import Mathlib.Data.List.Nodup
import NamedQuery.Proofs.Filter
import NamedQuery.Proofs.Grouping
import NamedQuery.Proofs.Nodes

/-!
# Bodies that agree with their signatures

The body of a planned method mentions every parameter after the context exactly
once, the context at least once, and no other parameter.  Each of its returns has
a value for every result, and gives back the zero value of the first result where
a call has failed.
-/

namespace NamedQuery

open Code

namespace Mongo

/-! ## Names in documents -/

@[simp]
theorem names_arg (slot : Nat) : (arg slot).names = [argName slot] := rfl

@[simp]
theorem names_operand (key : String) (value : Expr) :
    (operand key value).names = value.names := by
  simp [operand]

/-- What is collected from the values of items is collected from the items. -/
theorem flatMap_eq_of_mapM {ε α β γ : Type} {step : α → Except ε β} {items : List α}
    {values : List β} (mapped : items.mapM step = .ok values) {left : α → List γ}
    {right : β → List γ} (same : ∀ item value, step item = .ok value → right value = left item) :
    values.flatMap right = items.flatMap left := by
  rw [List.flatMap_def, List.flatMap_def]
  exact congrArg List.flatten (Entity.map_eq_map_of_forall₂ (mapM_eq_ok_iff.mp mapped)
    fun item value made => (same item value made).symm).symm

theorem names_conditionValue (comparator : Comparator) (slot : Nat) :
    (conditionValue comparator slot).names =
      (List.range' slot comparator.arity).map argName := by
  cases comparator <;> simp [conditionValue, Comparator.arity, List.range'_succ]

theorem names_condition {predicate : Predicate} {entry : Expr × Expr}
    (built : condition predicate = .ok entry) :
    entry.1.names ++ entry.2.names = predicate.slots.map argName := by
  obtain ⟨path, -, rfl⟩ := map_eq_ok_iff.mp built
  exact names_conditionValue predicate.comparator predicate.slot

theorem names_combine (connective : Option Connective) (conditions : List (Expr × Expr)) :
    (combine connective conditions).names =
      conditions.flatMap fun entry => entry.1.names ++ entry.2.names := by
  unfold combine
  split <;> simp [List.flatMap_map]

/-- The filter of a query mentions the parameters of its predicates, in order. -/
theorem names_filter {query : Query} {document : Expr} (built : filter query = .ok document) :
    document.names = (query.predicates.flatMap Predicate.slots).map argName := by
  obtain ⟨conditions, each, rfl⟩ := map_eq_ok_iff.mp built
  rw [names_combine, List.map_flatMap]
  exact flatMap_eq_of_mapM each fun _ _ made => names_condition made

theorem perm_names_filter {query : Query} {document : Expr} (built : filter query = .ok document) :
    ([document].flatMap Expr.names).Perm
      ((query.predicates.flatMap Predicate.slots).map argName) := by
  rw [List.flatMap_singleton, names_filter built]

theorem names_sortEntry {key : SortKey} {entry : Expr} (built : sortEntry key = .ok entry) :
    entry.names = [] := by
  obtain ⟨path, -, rfl⟩ := map_eq_ok_iff.mp built
  simp

theorem names_sortDocument {keys : List SortKey} {document : Expr}
    (built : sortDocument keys = .ok document) : document.names = [] := by
  obtain ⟨entries, each, rfl⟩ := map_eq_ok_iff.mp built
  rw [Expr.names_slice, flatMap_eq_of_mapM each fun _ _ made => names_sortEntry made]
  simp

/-- The function that makes the options of a find. -/
def optionsName : Mode → String
  | .one => "options.FindOne"
  | .many => "options.Find"

/-- The options of a find: none where there are no sort keys and no limit, and otherwise
one chain of calls that set what there is. -/
inductive FindOptions (mode : Mode) : List SortKey → Option Nat → List Expr → Prop where
  | absent : FindOptions mode [] none []
  | limited (count : Nat) :
      FindOptions mode [] (some count)
        [.chain [.call (optionsName mode) [], .call "SetLimit" [.raw (toString count)]]]
  | sorted {sorts : List SortKey} {limit : Option Nat} {document : Expr} (nonempty : sorts ≠ [])
      (built : sortDocument sorts = .ok document) :
      FindOptions mode sorts limit
        [.chain (.call (optionsName mode) [] :: .call "SetSort" [document] ::
          limit.toList.map fun count => .call "SetLimit" [.raw (toString count)])]

theorem findOptions_cases {mode : Mode} {sorts : List SortKey} {limit : Option Nat}
    {options : List Expr} (built : findOptions mode sorts limit = .ok options) :
    FindOptions mode sorts limit options := by
  cases sorts with
  | nil =>
      cases limit with
      | none =>
          cases built
          exact .absent
      | some count =>
          cases mode <;> cases built <;> exact .limited count
  | cons key rest =>
      obtain ⟨calls, sorted, done⟩ := bind_eq_ok_iff.mp built
      obtain ⟨document, made, rfl⟩ := map_eq_ok_iff.mp sorted
      have chained : FindOptions mode (key :: rest) limit _ :=
        .sorted (List.cons_ne_nil key rest) made
      cases mode <;> cases limit <;> cases done <;> exact chained

theorem names_findOptions {mode : Mode} {sorts : List SortKey} {limit : Option Nat}
    {options : List Expr} (built : findOptions mode sorts limit = .ok options) :
    options.flatMap Expr.names = [] := by
  cases findOptions_cases built with
  | absent => rfl
  | limited count => rfl
  | sorted nonempty made => cases limit <;> simp [names_sortDocument made]

/-! ## Names in update documents -/

/-- The update document of a change mentions the parameters of the change, grouped
by their operators. -/
theorem names_updateDocument {change : Change} {document : Expr}
    (built : updateDocument change = .ok document) :
    document.names.Perm (change.slots.map argName) := by
  cases change with
  | model slot =>
      cases built
      simp [Change.slots]
  | fields assignments =>
      obtain ⟨entries, each, rfl⟩ := map_eq_ok_iff.mp built
      have groups : ((grouped entries).map Group.entry).flatMap
          (fun entry => entry.1.names ++ entry.2.names) =
            ((grouped entries).flatMap Group.entries).flatMap
              fun entry => entry.1.names ++ entry.2.names := by
        simp [List.flatMap_map, Group.entry, List.flatMap_assoc]
      have assigned : (entries.map Prod.snd).flatMap
          (fun entry => entry.1.names ++ entry.2.names) =
            (Change.fields assignments).slots.map argName := by
        rw [List.flatMap_map, Change.slots, List.map_map, ← List.flatMap_pure_eq_map]
        refine flatMap_eq_of_mapM each ?_
        intro assignment entry made
        obtain ⟨path, -, rfl⟩ := map_eq_ok_iff.mp made
        rfl
      rw [Expr.names_mapping, groups, ← assigned]
      exact (entries_grouped entries).flatMap_right _

/-! ## Names in bodies -/

/-- The names of a body that stand for no parameter. -/
def ownNames : List String :=
  [receiverName, collectionName, "err", "nil", "entities", "model"]

/-- Names that mention the context, each of the given positions once, and beside
these no parameter. -/
def Passes (slots : List Nat) (names : List String) : Prop :=
  ∃ others, argName 0 ∈ others ∧ (∀ name ∈ others, name = argName 0 ∨ name ∈ ownNames) ∧
    names.Perm (others ++ slots.map argName)

theorem Passes.intro {slots : List Nat} (before after : List String) {passed : List String}
    (mentioned : passed.Perm (slots.map argName)) (context : argName 0 ∈ before ++ after)
    (known : ∀ name ∈ before ++ after, name = argName 0 ∨ name ∈ ownNames) :
    Passes slots (before ++ passed ++ after) := by
  refine ⟨before ++ after, context, known, ?_⟩
  rw [List.append_assoc, List.append_assoc]
  exact (List.perm_append_comm.trans (mentioned.append_left after)).append_left before

theorem names_collectionCall (method : String) (args : List Expr) :
    (collectionCall method args).names =
      receiverName :: collectionName :: args.flatMap Expr.names := by
  simp [collectionCall]

theorem names_callBody (result : String) (call : Expr) (zero value : String) :
    (callBody result call zero value).flatMap Stmt.names = call.names ++ ["err", "nil"] := by
  simp [callBody, returnOnError, failure, success]

/-- A body that calls the collection with the context and further arguments. -/
theorem passes_callBody {slots : List Nat} (result method : String) (args : List Expr)
    (zero value : String) (mentioned : (args.flatMap Expr.names).Perm (slots.map argName)) :
    Passes slots ((callBody result (collectionCall method (arg 0 :: args)) zero value).flatMap
      Stmt.names) := by
  rw [names_callBody, names_collectionCall]
  exact .intro [receiverName, collectionName, argName 0] ["err", "nil"] mentioned (by simp)
    (by simp [ownNames])

theorem passes_insertBody (mode : Mode) : Passes [1] ((insertBody mode).flatMap Stmt.names) := by
  cases mode with
  | one => exact passes_callBody _ _ [arg 1] _ _ (.refl _)
  | many =>
      rw [insertBody, List.flatMap_append, names_callBody, names_collectionCall]
      have passed : [argName 1].Perm ([1].map argName) := .refl _
      exact .intro [] ["entities", "model", receiverName, collectionName, argName 0, "entities",
        "err", "nil"] passed (by simp) (by simp [ownNames])

theorem passes_findStatements {slots : List Nat} {args : List Expr} (entity : String)
    (mode : Mode) (mentioned : (args.flatMap Expr.names).Perm (slots.map argName)) :
    Passes slots ((findStatements entity mode (arg 0 :: args)).flatMap Stmt.names) := by
  cases mode with
  | one =>
      have names : (findStatements entity .one (arg 0 :: args)).flatMap Stmt.names =
          [receiverName, collectionName, argName 0] ++ args.flatMap Expr.names ++
            ["err", "nil"] := by
        simp [findStatements, checkCall, failure, success, names_collectionCall]
      rw [names]
      exact .intro _ _ mentioned (by simp) (by simp [ownNames])
  | many =>
      have names : (findStatements entity .many (arg 0 :: args)).flatMap Stmt.names =
          [receiverName, collectionName, argName 0] ++ args.flatMap Expr.names ++
            ["err", argName 0, "err", "nil"] := by
        simp [findStatements, checkCall, returnOnError, failure, success, names_collectionCall]
      rw [names]
      exact .intro _ _ mentioned (by simp) (by simp [ownNames])

/-- The body of an operation passes the parameters that the operation refers to. -/
theorem passes_body {entity : String} {operation : Operation} {statements : List Stmt}
    (translated : body entity operation = .ok statements) :
    Passes operation.slots (statements.flatMap Stmt.names) := by
  cases operation with
  | insert mode =>
      cases translated
      exact passes_insertBody mode
  | find mode query sorts limit =>
      obtain ⟨document, filtered, afterFilter⟩ := bind_eq_ok_iff.mp translated
      obtain ⟨options, chosen, done⟩ := bind_eq_ok_iff.mp afterFilter
      cases done
      refine passes_findStatements entity mode ?_
      rw [List.flatMap_cons, names_findOptions chosen, names_filter filtered, List.append_nil]
      exact .refl _
  | update change mode query =>
      obtain ⟨document, filtered, afterFilter⟩ := bind_eq_ok_iff.mp translated
      obtain ⟨update, changed, done⟩ := bind_eq_ok_iff.mp afterFilter
      -- The filter is passed before the update, but its parameters come after it.
      have mentioned : ([document, update].flatMap Expr.names).Perm
          ((Operation.update change mode query).slots.map argName) := by
        rw [List.flatMap_cons, List.flatMap_singleton, names_filter filtered]
        refine ((names_updateDocument changed).append_left _).trans ?_
        rw [Operation.slots, List.map_append]
        exact List.perm_append_comm
      cases mode <;> cases done <;> exact passes_callBody _ _ _ _ _ mentioned
  | delete mode query =>
      obtain ⟨document, filtered, done⟩ := bind_eq_ok_iff.mp translated
      have mentioned := perm_names_filter filtered
      cases mode <;> cases done <;> exact passes_callBody _ _ _ _ _ mentioned
  | count query =>
      obtain ⟨document, filtered, done⟩ := bind_eq_ok_iff.mp translated
      have mentioned := perm_names_filter filtered
      cases done
      exact passes_callBody _ _ _ _ _ mentioned

/-! ## Occurrences of parameters -/

theorem argName_not_mem_ownNames (slot : Nat) : argName slot ∉ ownNames := by
  intro member
  have start : "arg".toList <+: (argName slot).toList := by
    rw [argName, String.toList_append]
    exact List.prefix_append _ _
  have other : ∀ name ∈ ownNames, ¬ "arg".toList <+: name.toList := by decide
  exact other _ member start

namespace Passes

variable {slots : List Nat} {names : List String}

theorem context_mem (passes : Passes slots names) : argName 0 ∈ names := by
  obtain ⟨others, context, -, order⟩ := passes
  exact order.mem_iff.mpr (List.mem_append_left _ context)

/-- A parameter after the context is mentioned as often as its position is given. -/
theorem count_eq (passes : Passes slots names) {position : Nat} (later : position ≠ 0) :
    names.count (argName position) = slots.count position := by
  obtain ⟨others, -, known, order⟩ := passes
  have absent : argName position ∉ others := by
    intro member
    rcases known _ member with context | own
    · exact later (argName_injective context)
    · exact argName_not_mem_ownNames position own
  rw [order.count_eq, List.count_append, List.count_eq_zero_of_not_mem absent, Nat.zero_add]
  exact List.count_map_of_injective slots argName (fun _ _ same => argName_injective same) position

end Passes

end Mongo

/-! ## Results -/

/-- The literal of the zero value of a type that a method may give back first. -/
def GoType.zero? : GoType → Option String
  | .pointer _ | .slice _ | .emptyInterface => some "nil"
  | .named name =>
      if name = "bool" then some "false" else if name = "int" then some "0" else none
  | .qualified .. | .map .. | .func .. => none

namespace OperationKind

/-- What a method gives back first when a call has failed. -/
def failureValue : OperationKind → Mode → String
  | .insert, _ | .find, _ => "nil"
  | .update, .one | .delete, .one => "false"
  | .update, .many | .delete, .many | .count, _ => "0"

theorem results_of_resultMode {kind : OperationKind} {struct : Struct} {results : List GoType}
    {mode : Mode} (fits : kind.resultMode struct results = .ok mode) :
    ∃ value, results = [value, .error] ∧ kind.valueMode? struct value = some mode := by
  rw [resultMode] at fits
  split at fits
  · next found =>
      cases fits
      unfold resultMode? at found
      split at found
      · next value last =>
          split at found
          · next error => exact ⟨value, by rw [error], found⟩
          · cases found
      · cases found
  · cases fits

theorem mode_cases {value single several : GoType} {mode : Mode}
    (fits : (if value = single then some .one else if value = several then some .many else none) =
      some mode) :
    (mode = .one ∧ value = single) ∨ (mode = .many ∧ value = several) := by
  split at fits
  · next one =>
      cases fits
      exact .inl ⟨rfl, one⟩
  · split at fits
    · next many =>
        cases fits
        exact .inr ⟨rfl, many⟩
    · cases fits

/-- The value that is given back on failure is the zero value of its type. -/
theorem zero?_eq_failureValue {kind : OperationKind} {struct : Struct} {value : GoType}
    {mode : Mode} (fits : kind.valueMode? struct value = some mode) :
    value.zero? = some (kind.failureValue mode) := by
  cases kind with
  | insert | find | update | delete =>
      obtain ⟨rfl, rfl⟩ | ⟨rfl, rfl⟩ := mode_cases fits <;> rfl
  | count =>
      rw [valueMode?] at fits
      split at fits
      · next int =>
          rw [int]
          rfl
      · cases fits

end OperationKind

/-- What the body of an operation gives back first when a call has failed. -/
def Operation.failureValue (operation : Operation) : String :=
  operation.kind.failureValue (operation.mode?.getD .many)

/-- A method that is read as an operation has two results, and the operation gives
back the zero value of the first one on failure. -/
theorem Entity.Reading.results_eq {entity : Entity} {params results : List GoType}
    {words : List String} {operation : Operation}
    (reading : entity.Reading params results words operation) :
    ∃ value, results = [value, .error] ∧ value.zero? = some operation.failureValue := by
  have shape {kind : OperationKind} {mode : Mode}
      (fits : kind.resultMode entity.struct results = .ok mode) :
      ∃ value, results = [value, .error] ∧ value.zero? = some (kind.failureValue mode) := by
    obtain ⟨value, pair, first⟩ := OperationKind.results_of_resultMode fits
    exact ⟨value, pair, OperationKind.zero?_eq_failureValue first⟩
  cases reading with
  | insert fits agrees => exact shape fits
  | find fits single limited queried sorted => exact shape fits
  | update fits changed queried => exact shape fits
  | delete fits queried => exact shape fits
  | count fits queried =>
      obtain ⟨value, pair, zero⟩ := shape fits
      exact ⟨value, pair, zero⟩

namespace Mongo

/-! ## Returns -/

/-- The return in a branch that runs when a call has failed. -/
def failureReturn (zero : String) : Return := ⟨[.raw "err != nil"], [.raw zero, .ident "err"]⟩

/-- The return at the end of a body. -/
def successReturn (value : String) : Return := ⟨[], [.raw value, .ident "nil"]⟩

/-- The returns of a body: for each call that can fail the failure value and the error,
and at the end the result. -/
def Returns (zero : String) (returns : List Return) : Prop :=
  ∃ calls value,
    returns = List.replicate (calls + 1) (failureReturn zero) ++ [successReturn value]

namespace Returns

variable {zero : String} {returns : List Return}

theorem failure_mem (shape : Returns zero returns) : failureReturn zero ∈ returns := by
  obtain ⟨calls, value, rfl⟩ := shape
  rw [List.replicate_succ]
  exact List.mem_cons_self

theorem cases_of_mem (shape : Returns zero returns) {found : Return} (member : found ∈ returns) :
    found = failureReturn zero ∨ ∃ value, found = successReturn value := by
  obtain ⟨calls, value, rfl⟩ := shape
  rcases List.mem_append.mp member with failing | last
  · exact .inl (List.eq_of_mem_replicate failing)
  · exact .inr ⟨value, List.mem_singleton.mp last⟩

theorem pair (shape : Returns zero returns) {found : Return} (member : found ∈ returns) :
    found.values.length = 2 := by
  rcases shape.cases_of_mem member with rfl | ⟨value, rfl⟩
  · rfl
  · rfl

theorem failing (shape : Returns zero returns) {found : Return} (member : found ∈ returns)
    (failed : Expr.raw "err != nil" ∈ found.conditions) :
    found.values.head? = some (.raw zero) := by
  rcases shape.cases_of_mem member with rfl | ⟨value, rfl⟩
  · rfl
  · cases failed

end Returns

theorem returns_findStatements (entity : String) (mode : Mode) (args : List Expr) :
    Returns "nil" (Stmt.returnsOfAll [] (findStatements entity mode args)) := by
  cases mode with
  | one => exact ⟨0, "&entity", rfl⟩
  | many =>
      -- The cursor is checked once more when its documents are read.
      exact ⟨1, "entities", rfl⟩

/-- Every body returns where a call has failed, and at its end. -/
theorem returns_body {entity : String} {operation : Operation} {statements : List Stmt}
    (translated : body entity operation = .ok statements) :
    Returns operation.failureValue (Stmt.returnsOfAll [] statements) := by
  cases operation with
  | insert mode =>
      cases translated
      cases mode <;> exact ⟨0, _, rfl⟩
  | find mode query sorts limit =>
      obtain ⟨document, -, afterFilter⟩ := bind_eq_ok_iff.mp translated
      obtain ⟨options, -, done⟩ := bind_eq_ok_iff.mp afterFilter
      cases done
      exact returns_findStatements entity mode _
  | update change mode query =>
      obtain ⟨document, -, afterFilter⟩ := bind_eq_ok_iff.mp translated
      obtain ⟨update, -, done⟩ := bind_eq_ok_iff.mp afterFilter
      cases mode <;> cases done <;> exact ⟨0, _, rfl⟩
  | delete mode query =>
      obtain ⟨document, -, done⟩ := bind_eq_ok_iff.mp translated
      cases mode <;> cases done <;> exact ⟨0, _, rfl⟩
  | count query =>
      obtain ⟨document, -, done⟩ := bind_eq_ok_iff.mp translated
      cases done
      exact ⟨0, _, rfl⟩

end Mongo

/-! ## Planned methods -/

theorem Query.length_slots (query : Query) :
    (query.predicates.flatMap Predicate.slots).length = query.arity := by
  unfold Query.arity
  induction query.predicates with
  | nil => rfl
  | cons predicate rest ih =>
      rw [List.flatMap_cons, List.length_append, ih, Predicate.slots, List.length_range']
      rfl

theorem Operation.length_slots (operation : Operation) :
    operation.slots.length = operation.arity := by
  rw [Operation.slots, List.length_append]
  cases operation with
  | insert mode => rfl
  | find mode query sorts limit => exact (Nat.zero_add _).trans query.length_slots
  | update change mode query => exact congrArg₂ (· + ·) change.length_slots query.length_slots
  | delete mode query => exact (Nat.zero_add _).trans query.length_slots
  | count query => exact (Nat.zero_add _).trans query.length_slots

/-- The positions that a planned operation refers to are those of the parameters
after the context. -/
theorem Entity.slots_of_plan {entity : Entity} {method : Signature} {plan : Plan}
    (planned : entity.plan method = .ok plan) :
    plan.operation.slots = List.range' 1 (method.params.length - 1) := by
  obtain ⟨rfl, read, checked⟩ := Entity.read_of_plan planned
  obtain ⟨-, count, -⟩ := Plan.check_eq_ok_iff_steps.mp checked
  rw [(reading_of_readOperation read).numbered.slots_eq, Operation.length_slots, ← count,
    Nat.add_sub_cancel_left]

namespace Mongo

/-- The body of a planned method mentions each parameter after the context once,
the context, and no parameter that is not declared.  Each return gives back as
many values as the method has results, and first the zero value of the first
result where a call has failed.  There is a return of this zero value and the
error. -/
theorem body_agrees_with_signature {entity : Entity} {method : Signature} {plan : Plan}
    {name : String} {statements : List Stmt} (planned : entity.plan method = .ok plan)
    (translated : body name plan.operation = .ok statements) :
    (∀ position, 1 ≤ position → position < method.params.length →
      (statements.flatMap Stmt.names).count (argName position) = 1) ∧
    argName 0 ∈ statements.flatMap Stmt.names ∧
    (∀ position, method.params.length ≤ position →
      argName position ∉ statements.flatMap Stmt.names) ∧
    (∀ found ∈ Stmt.returnsOfAll [] statements,
      found.values.length = method.results.length) ∧
    ∃ type zero, method.results.head? = some type ∧ type.zero? = some zero ∧
      (∀ found ∈ Stmt.returnsOfAll [] statements,
        Expr.raw "err != nil" ∈ found.conditions → found.values.head? = some (.raw zero)) ∧
      ⟨[.raw "err != nil"], [.raw zero, .ident "err"]⟩ ∈ Stmt.returnsOfAll [] statements := by
  have passes := passes_body translated
  have returned := returns_body translated
  rw [Entity.slots_of_plan planned] at passes
  obtain ⟨rfl, read, checked⟩ := Entity.read_of_plan planned
  obtain ⟨type, results, zero⟩ := (Entity.reading_of_readOperation read).results_eq
  obtain ⟨-, count, -⟩ := Plan.check_eq_ok_iff_steps.mp checked
  refine ⟨?_, passes.context_mem, ?_, ?_, ?_⟩
  · intro position first last
    rw [passes.count_eq (by omega)]
    refine List.count_eq_one_of_mem List.nodup_range' ?_
    rw [List.mem_range'_1]
    omega
  · intro position beyond
    rw [← List.count_eq_zero, passes.count_eq (by omega), List.count_eq_zero, List.mem_range'_1]
    omega
  · intro found member
    rw [results]
    exact returned.pair member
  · refine ⟨type, plan.operation.failureValue, by rw [results]; rfl, zero, ?_,
      returned.failure_mem⟩
    intro found member
    exact returned.failing member

end Mongo

namespace Users

theorem plan_update : entity.plan update = .ok ⟨update, updateOperation⟩ := by
  have cut : words update.name = ["Update", "Age", "Inc", "And", "Tags", "Push", "By",
      "Active", "True", "And", "Age", "Between"] := by decide +kernel
  rw [Entity.plan, cut]
  rfl

theorem update_body_names :
    entity.plan update = .ok ⟨update, updateOperation⟩ ∧
    ∃ statements, Mongo.body "User" updateOperation = .ok statements ∧
      (∀ position, 1 ≤ position → position < 5 →
        (statements.flatMap Stmt.names).count (Mongo.argName position) = 1) ∧
      Mongo.argName 5 ∉ statements.flatMap Stmt.names ∧
      (∀ found ∈ Stmt.returnsOfAll [] statements, found.values.length = 2 ∧
        (Expr.raw "err != nil" ∈ found.conditions →
          found.values.head? = some (.raw "false"))) ∧
      ⟨[.raw "err != nil"], [.raw "false", .ident "err"]⟩ ∈
        Stmt.returnsOfAll [] statements := by
  have translated : ∃ statements, Mongo.body "User" updateOperation = .ok statements :=
    ⟨_, rfl⟩
  obtain ⟨statements, made⟩ := translated
  obtain ⟨each, -, beyond, pairs, type, zero, first, literal, failing, returned⟩ :=
    Mongo.body_agrees_with_signature plan_update made
  cases first
  cases literal
  exact ⟨plan_update, statements, made, each, beyond 5 (Nat.le_refl 5),
    fun found member => ⟨pairs found member, failing found member⟩, returned⟩

end Users

end NamedQuery
