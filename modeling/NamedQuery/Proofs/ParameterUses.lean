import NamedQuery.Proofs.Places
import NamedQuery.Proofs.Update

/-!
# What the parameters of a body are used for

The body of an operation takes parameters: the context, the values that are stored, and
the arguments of the conditions.  Each is taken at a place of the body and has to be of
a type there.  A plan that passes the check declares every parameter that its body takes
with that type, whatever positions the operation refers to.
-/

namespace NamedQuery

open Code

namespace Mongo

/-! ## Uses -/

/-- The value of a key that is a text. -/
def under (key : String) : Step := .value (.string key)

/-- The arguments that the condition of a comparator reads: how far each stands behind
the first, and the operator that it is under. -/
def argumentsRead : Comparator → List (Nat × List Step)
  | .equal => [(0, [])]
  | .notEqual => [(0, [under "$ne"])]
  | .lessThan => [(0, [under "$lt"])]
  | .lessThanOrEqual => [(0, [under "$lte"])]
  | .greaterThan => [(0, [under "$gt"])]
  | .greaterThanOrEqual => [(0, [under "$gte"])]
  | .between => [(0, [under "$gte"]), (1, [under "$lte"])]
  | .oneOf => [(0, [under "$in"])]
  | .noneOf => [(0, [under "$nin"])]
  | .isTrue | .isFalse | .present | .absent => []

/-- What the conditions of a query stand under: the connective of two or more. -/
def connectiveSteps (query : Query) : List Step :=
  if query.predicates.length < 2 then []
  else (query.connective.map fun connective => under (connectiveKey connective)).toList

/-- The call of the collection that carries out an operation. -/
def callName : Operation → String
  | .insert .one => "InsertOne"
  | .insert .many => "InsertMany"
  | .find .one .. => "FindOne"
  | .find .many .. => "Find"
  | .update _ .one _ => "UpdateOne"
  | .update _ .many _ => "UpdateMany"
  | .delete .one _ => "DeleteOne"
  | .delete .many _ => "DeleteMany"
  | .count _ => "CountDocuments"

/-- A filter takes the argument at a position, at a place, for a use that asks for a type. -/
inductive FilterTakes (query : Query) : Nat → List Step → Option GoType → Prop where
  | compared {predicate : Predicate} {offset : Nat} {steps : List Step}
      (listed : predicate ∈ query.predicates)
      (read : (offset, steps) ∈ argumentsRead predicate.comparator) :
      FilterTakes query (predicate.slot + offset)
        (connectiveSteps query ++ under predicate.field.storedPath :: steps)
        predicate.expectedTypes[offset]?

/-- An update document takes the value at a position. -/
inductive UpdateTakes (entity : Entity) : Change → Nat → List Step → Option GoType → Prop where
  | model (slot : Nat) :
      UpdateTakes entity (.model slot) slot [under "$set"] (some entity.struct.pointerType)
  | assigned {assignments : List Assignment} {assignment : Assignment}
      (listed : assignment ∈ assignments) :
      UpdateTakes entity (.fields assignments) assignment.slot
        [under (operatorKey assignment.operator), under assignment.field.storedPath]
        (assignment.expectedType? entity.schema)

/-- The body of an operation takes the parameter at a position, at a place of the body, for
a use that asks for a type. -/
inductive BodyTakes (entity : Entity) : Operation → Nat → List Step → Option GoType → Prop where
  | context (operation : Operation) :
      BodyTakes entity operation 0 [.argument (callName operation) 0] (some .context)
  | cursor {query : Query} {sorts : List SortKey} {limit : Option Nat} :
      BodyTakes entity (.find .many query sorts limit) 0 [.argument "cursor.All" 0]
        (some .context)
  | insertedOne :
      BodyTakes entity (.insert .one) 1 [.argument "InsertOne" 1]
        (some entity.struct.pointerType)
  | insertedMany :
      BodyTakes entity (.insert .many) 1 [.range] (some (.slice entity.struct.pointerType))
  | filtered {operation : Operation} {query : Query} {position : Nat} {place : List Step}
      {type? : Option GoType} (queried : operation.query? = some query)
      (taken : FilterTakes query position place type?) :
      BodyTakes entity operation position (.argument (callName operation) 1 :: place) type?
  | updated {change : Change} {mode : Mode} {query : Query} {position : Nat}
      {place : List Step} {type? : Option GoType}
      (taken : UpdateTakes entity change position place type?) :
      BodyTakes entity (.update change mode query) position
        (.argument (callName (.update change mode query)) 2 :: place) type?

/-! ## Documents -/

variable {name : String} {place : List Step}

@[simp]
theorem occurs_arg_iff {slot : Nat} :
    (arg slot).Occurs name place ↔ name = argName slot ∧ place = [] :=
  Expr.occurs_ident_iff

@[simp]
theorem occurs_operand_iff {key : String} {value : Expr} :
    (operand key value).Occurs name place ↔
      ∃ inner, value.Occurs name inner ∧ place = under key :: inner := by
  rw [operand, Expr.occurs_mapping_iff (by simp)]
  simp [under]

theorem occurs_conditionValue_iff {comparator : Comparator} {slot : Nat} :
    (conditionValue comparator slot).Occurs name place ↔
      ∃ offset, name = argName (slot + offset) ∧ (offset, place) ∈ argumentsRead comparator := by
  cases comparator with
  | between =>
      rw [conditionValue, Expr.occurs_mapping_iff (by simp)]
      simp [argumentsRead, under, and_or_left, exists_or]
  | _ => simp [conditionValue, argumentsRead]

/-- A name in the entries of predicates stands under the path of one of them. -/
theorem occurs_entries_iff (type : String) (predicates : List Predicate) :
    (Expr.mapping type (predicates.map entryOf)).Occurs name place ↔
      ∃ predicate ∈ predicates, ∃ inner,
        (conditionValue predicate.comparator predicate.slot).Occurs name inner ∧
          place = under predicate.field.storedPath :: inner := by
  rw [Expr.occurs_mapping_iff (by simp [entryOf])]
  simp only [List.mem_map, exists_exists_and_eq_and]
  rfl

theorem occurs_joined_iff (key : String) (predicates : List Predicate) :
    (operand key (.slice ("[]" ++ mapType)
        ((predicates.map entryOf).map fun entry => .mapping "" [entry]))).Occurs name place ↔
      ∃ predicate ∈ predicates, ∃ inner,
        (conditionValue predicate.comparator predicate.slot).Occurs name inner ∧
          place = under key :: under predicate.field.storedPath :: inner := by
  have alone (predicate : Predicate) {inner : List Step} :
      (Expr.mapping "" [entryOf predicate]).Occurs name inner ↔
        ∃ rest, (conditionValue predicate.comparator predicate.slot).Occurs name rest ∧
          inner = under predicate.field.storedPath :: rest := by
    rw [← List.map_singleton, occurs_entries_iff]
    simp
  rw [occurs_operand_iff]
  simp only [Expr.occurs_slice_iff, List.mem_map, exists_exists_and_eq_and, alone]
  constructor
  · rintro ⟨_, ⟨predicate, listed, rest, occurs, rfl⟩, rfl⟩
    exact ⟨predicate, listed, rest, occurs, rfl⟩
  · rintro ⟨predicate, listed, rest, occurs, rfl⟩
    exact ⟨_, ⟨predicate, listed, rest, occurs, rfl⟩, rfl⟩

/-- A name in the filter of a query stands in the condition of a predicate. -/
theorem occurs_combine_iff {query : Query} :
    (combine query.connective (query.predicates.map entryOf)).Occurs name place ↔
      ∃ predicate ∈ query.predicates, ∃ inner,
        (conditionValue predicate.comparator predicate.slot).Occurs name inner ∧
          place = connectiveSteps query ++ under predicate.field.storedPath :: inner := by
  rcases query with ⟨connective, predicates⟩
  match predicates, connective with
  | [], _ => exact occurs_entries_iff mapType []
  | [only], _ => exact occurs_entries_iff mapType [only]
  | first :: second :: rest, none =>
      exact occurs_entries_iff mapType (first :: second :: rest)
  | first :: second :: rest, some connective =>
      exact occurs_joined_iff (connectiveKey connective) (first :: second :: rest)

theorem conditions_of_mapM {predicates : List Predicate} {conditions : List (Expr × Expr)}
    (built : predicates.mapM condition = .ok conditions) :
    conditions = predicates.map entryOf := by
  refine eq_map_of_mapM built ?_
  intro predicate entry made
  obtain ⟨path, located, rfl⟩ := map_eq_ok_iff.mp made
  rw [storedPath_of_bsonPath located]
  rfl

/-- The parameters in a filter are those that it takes. -/
theorem occurs_filter_iff {query : Query} {document : Expr} {position : Nat}
    (built : filter query = .ok document) :
    document.Occurs (argName position) place ↔ ∃ type?, FilterTakes query position place type? := by
  obtain ⟨conditions, each, rfl⟩ := map_eq_ok_iff.mp built
  rw [conditions_of_mapM each, occurs_combine_iff]
  simp only [occurs_conditionValue_iff]
  constructor
  · rintro ⟨predicate, listed, steps, ⟨offset, same, read⟩, rfl⟩
    rw [argName_injective same]
    exact ⟨_, .compared listed read⟩
  · rintro ⟨type?, taken⟩
    cases taken with
    | compared listed read => exact ⟨_, listed, _, ⟨_, rfl, read⟩, rfl⟩

theorem occurs_assigned_iff (type : String) (assignments : List Assignment) :
    (Expr.mapping type (assignments.map assignedEntry)).Occurs name place ↔
      ∃ assignment ∈ assignments,
        name = argName assignment.slot ∧ place = [under assignment.field.storedPath] := by
  rw [Expr.occurs_mapping_iff (by simp [assignedEntry])]
  simp [assignedEntry, under]

/-- A parameter in the document of assignments stands under the operator and the path of
one of them. -/
theorem occurs_groups_iff (assignments : List Assignment) :
    (Expr.mapping mapType ((grouped (assignments.map fun assignment =>
        (assignment.operator, assignedEntry assignment))).map Group.entry)).Occurs name place ↔
      ∃ assignment ∈ assignments, name = argName assignment.slot ∧
        place = [under (operatorKey assignment.operator), under assignment.field.storedPath] := by
  rw [Expr.occurs_mapping_iff (by simp [Group.entry]), grouped_eq]
  simp only [List.map_map, List.mem_map, exists_exists_and_eq_and, Function.comp_apply,
    entry_groupOf, occurs_assigned_iff, mem_appendMissing_id]
  constructor
  · rintro ⟨operator, -, _, ⟨assignment, chosen, rfl, rfl⟩, rfl⟩
    obtain ⟨listed, same⟩ := List.mem_filter.mp chosen
    rw [decide_eq_true_eq] at same
    exact ⟨assignment, listed, rfl, by rw [same]; rfl⟩
  · rintro ⟨assignment, listed, rfl, rfl⟩
    have chosen : assignment ∈ assignments.filter fun other =>
        other.operator = assignment.operator :=
      List.mem_filter.mpr ⟨listed, decide_eq_true rfl⟩
    exact ⟨assignment.operator, .inr ⟨assignment, listed, rfl⟩, _, ⟨assignment, chosen, rfl, rfl⟩,
      rfl⟩

/-- The parameters in an update document are those that it takes. -/
theorem occurs_updateDocument_iff (entity : Entity) {change : Change} {document : Expr}
    {position : Nat} (built : updateDocument change = .ok document) :
    document.Occurs (argName position) place ↔
      ∃ type?, UpdateTakes entity change position place type? := by
  cases change with
  | model slot =>
      cases built
      rw [occurs_operand_iff]
      simp only [occurs_arg_iff]
      constructor
      · rintro ⟨_, ⟨same, rfl⟩, rfl⟩
        rw [argName_injective same]
        exact ⟨_, .model slot⟩
      · rintro ⟨type?, taken⟩
        cases taken
        exact ⟨[], ⟨rfl, rfl⟩, rfl⟩
  | fields assignments =>
      obtain ⟨entries, each, rfl⟩ := map_eq_ok_iff.mp built
      rw [entries_of_mapM each, occurs_groups_iff]
      constructor
      · rintro ⟨assignment, listed, same, rfl⟩
        rw [argName_injective same]
        exact ⟨_, .assigned listed⟩
      · rintro ⟨type?, taken⟩
        cases taken with
        | assigned listed => exact ⟨_, listed, rfl, rfl⟩

/-! ## Bodies -/

theorem argName_ne {other : String} (own : other ∈ ownNames) (position : Nat) :
    argName position ≠ other :=
  fun same => argName_not_mem_ownNames position (same ▸ own)

theorem argName_eq_iff {position slot : Nat} :
    argName position = argName slot ↔ position = slot :=
  ⟨argName_injective, congrArg argName⟩

/-- The parameters in a call of the collection stand in its arguments. -/
theorem occurs_collectionCall_iff {method : String} {args : List Expr} {position : Nat} :
    (collectionCall method args).Occurs (argName position) place ↔
      Expr.OccursInArgs (argName position) method 0 args place := by
  have receiver : argName position ≠ receiverName := argName_ne (by decide) position
  have collection : argName position ≠ collectionName := argName_ne (by decide) position
  simp [collectionCall, receiver, collection]

theorem occursIn_callBody_iff {result : String} {call : Expr} {zero value : String}
    {position : Nat} :
    Stmt.OccursIn (argName position) (callBody result call zero value) place ↔
      call.Occurs (argName position) place := by
  have error : argName position ≠ "err" := argName_ne (by decide) position
  have nothing : argName position ≠ "nil" := argName_ne (by decide) position
  simp [callBody, returnOnError, failure, success, error, nothing]

/-- The parameters in the body of a find stand in the call of the collection; where there
are many documents, the context is also passed to the cursor. -/
theorem occursIn_findStatements_iff {entity : String} {mode : Mode} {args : List Expr}
    {position : Nat} (query : Query) (sorts : List SortKey) (limit : Option Nat) :
    Stmt.OccursIn (argName position) (findStatements entity mode args) place ↔
      Expr.OccursInArgs (argName position) (callName (.find mode query sorts limit)) 0 args place ∨
        (mode = .many ∧ position = 0 ∧ place = [.argument "cursor.All" 0]) := by
  have error : argName position ≠ "err" := argName_ne (by decide) position
  have nothing : argName position ≠ "nil" := argName_ne (by decide) position
  cases mode with
  | one =>
      simp [findStatements, checkCall, failure, success, error, nothing, callName,
        occurs_collectionCall_iff]
  | many =>
      simp [findStatements, checkCall, returnOnError, failure, success, error, nothing, callName,
        occurs_collectionCall_iff, argName_eq_iff, and_assoc]

theorem occursIn_insertBody_iff {mode : Mode} {position : Nat} (entity : Entity) :
    Stmt.OccursIn (argName position) (insertBody mode) place ↔
      ∃ type?, BodyTakes entity (.insert mode) position place type? := by
  cases mode with
  | one =>
      rw [insertBody, occursIn_callBody_iff, occurs_collectionCall_iff]
      simp only [Expr.occursInArgs_cons_iff, Expr.not_occursInArgs_nil, or_false, occurs_arg_iff,
        argName_eq_iff]
      constructor
      · rintro (⟨_, ⟨rfl, rfl⟩, rfl⟩ | ⟨_, ⟨rfl, rfl⟩, rfl⟩)
        · exact ⟨_, .context (.insert .one)⟩
        · exact ⟨_, .insertedOne⟩
      · rintro ⟨type?, taken⟩
        cases taken with
        | context => exact .inl ⟨[], ⟨rfl, rfl⟩, rfl⟩
        | insertedOne => exact .inr ⟨[], ⟨rfl, rfl⟩, rfl⟩
        | filtered queried => cases queried
  | many =>
      have entities : argName position ≠ "entities" := argName_ne (by decide) position
      have model : argName position ≠ "model" := argName_ne (by decide) position
      have ranged : Stmt.OccursIn (argName position)
          [.declare "entities" (GoType.slice .emptyInterface).text,
            .forEach "_" "model" (arg 1)
              [.assign ["entities"] (.call "append" [.ident "entities", .ident "model"])]]
          place ↔ position = 1 ∧ place = [.range] := by
        simp [argName_eq_iff, entities, model, and_assoc]
      have passed : Expr.OccursInArgs (argName position) "InsertMany" 0 [arg 0, .ident "entities"]
          place ↔ position = 0 ∧ place = [.argument "InsertMany" 0] := by
        simp [argName_eq_iff, entities, and_assoc]
      rw [insertBody, Stmt.occursIn_append_iff, occursIn_callBody_iff, occurs_collectionCall_iff,
        ranged, passed]
      constructor
      · rintro (⟨rfl, rfl⟩ | ⟨rfl, rfl⟩)
        · exact ⟨_, .insertedMany⟩
        · exact ⟨_, .context (.insert .many)⟩
      · rintro ⟨type?, taken⟩
        cases taken with
        | context => exact .inr ⟨rfl, rfl⟩
        | insertedMany => exact .inl ⟨rfl, rfl⟩
        | filtered queried => cases queried

/-! ## Operations with a query -/

theorem occursInArgs_filter_iff {method : String} {query : Query} {document : Expr}
    {others : List Expr} {position : Nat} (filtered : filter query = .ok document) :
    Expr.OccursInArgs (argName position) method 0 (arg 0 :: document :: others) place ↔
      (position = 0 ∧ place = [.argument method 0]) ∨
        (∃ inner type?, FilterTakes query position inner type? ∧
          place = .argument method 1 :: inner) ∨
        Expr.OccursInArgs (argName position) method 2 others place := by
  simp [occurs_filter_iff filtered, argName_eq_iff, and_assoc]

theorem occursIn_filterBody_iff {result method zero value : String} {query : Query}
    {document : Expr} {others : List Expr} {position : Nat}
    (filtered : filter query = .ok document) :
    Stmt.OccursIn (argName position)
        (callBody result (collectionCall method (arg 0 :: document :: others)) zero value) place ↔
      (position = 0 ∧ place = [.argument method 0]) ∨
        (∃ inner type?, FilterTakes query position inner type? ∧
          place = .argument method 1 :: inner) ∨
        Expr.OccursInArgs (argName position) method 2 others place := by
  rw [occursIn_callBody_iff, occurs_collectionCall_iff, occursInArgs_filter_iff filtered]

/-- What the body of an operation with a query takes. -/
theorem exists_bodyTakes_iff {entity : Entity} {operation : Operation} {query : Query}
    {position : Nat} (queried : operation.query? = some query) :
    (∃ type?, BodyTakes entity operation position place type?) ↔
      ((position = 0 ∧ place = [.argument (callName operation) 0]) ∨
        (∃ inner type?, FilterTakes query position inner type? ∧
          place = .argument (callName operation) 1 :: inner) ∨
        (∃ change mode inner type?, operation = .update change mode query ∧
          UpdateTakes entity change position inner type? ∧
          place = .argument (callName operation) 2 :: inner)) ∨
      ∃ sorts limit, operation = .find .many query sorts limit ∧
        position = 0 ∧ place = [.argument "cursor.All" 0] := by
  constructor
  · rintro ⟨type?, taken⟩
    cases taken with
    | context => exact .inl (.inl ⟨rfl, rfl⟩)
    | cursor =>
        cases queried
        exact .inr ⟨_, _, rfl, rfl, rfl⟩
    | insertedOne => cases queried
    | insertedMany => cases queried
    | filtered found taken =>
        cases queried.symm.trans found
        exact .inl (.inr (.inl ⟨_, _, taken, rfl⟩))
    | updated taken =>
        cases queried
        exact .inl (.inr (.inr ⟨_, _, _, _, rfl, taken, rfl⟩))
  · rintro ((⟨rfl, rfl⟩ | ⟨inner, type?, taken, rfl⟩ |
      ⟨change, mode, inner, type?, rfl, taken, rfl⟩) | ⟨sorts, limit, rfl, rfl, rfl⟩)
    · exact ⟨_, .context operation⟩
    · exact ⟨type?, .filtered queried taken⟩
    · exact ⟨type?, .updated taken⟩
    · exact ⟨_, .cursor⟩

/-- The options of a find take no parameter. -/
theorem not_occursInArgs_findOptions {mode : Mode} {sorts : List SortKey} {limit : Option Nat}
    {options : List Expr} (chosen : findOptions mode sorts limit = .ok options)
    {method : String} {start : Nat} : ¬ Expr.OccursInArgs name method start options place := by
  rintro ⟨option, index, inner, passed, inside, -⟩
  have member : name ∈ options.flatMap Expr.names :=
    List.mem_flatMap.mpr ⟨option, List.fst_mem_of_mem_zipIdx passed, inside.mem_names⟩
  rw [names_findOptions chosen] at member
  cases member

/-- The parameters in the body of an operation stand at the places where it takes them. -/
theorem occursIn_body_iff {entity : Entity} {operation : Operation} {target : String}
    {statements : List Stmt} (translated : body target operation = .ok statements)
    {position : Nat} :
    Stmt.OccursIn (argName position) statements place ↔
      ∃ type?, BodyTakes entity operation position place type? := by
  cases operation with
  | insert mode =>
      cases translated
      exact occursIn_insertBody_iff entity
  | find mode query sorts limit =>
      obtain ⟨document, filtered, afterFilter⟩ := bind_eq_ok_iff.mp translated
      obtain ⟨options, chosen, done⟩ := bind_eq_ok_iff.mp afterFilter
      cases done
      rw [occursIn_findStatements_iff query sorts limit, occursInArgs_filter_iff filtered,
        exists_bodyTakes_iff rfl]
      simp [not_occursInArgs_findOptions chosen]
  | update change mode query =>
      obtain ⟨document, filtered, afterFilter⟩ := bind_eq_ok_iff.mp translated
      obtain ⟨update, changed, done⟩ := bind_eq_ok_iff.mp afterFilter
      rw [exists_bodyTakes_iff rfl]
      -- the modes differ in the call of the collection and in the value that is given back
      cases mode <;> cases done <;> rw [occursIn_filterBody_iff filtered] <;>
        simp [occurs_updateDocument_iff entity changed, callName]
  | delete mode query =>
      obtain ⟨document, filtered, done⟩ := bind_eq_ok_iff.mp translated
      rw [exists_bodyTakes_iff rfl]
      cases mode <;> cases done <;> rw [occursIn_filterBody_iff filtered] <;> simp [callName]
  | count query =>
      obtain ⟨document, filtered, done⟩ := bind_eq_ok_iff.mp translated
      cases done
      rw [exists_bodyTakes_iff rfl, occursIn_filterBody_iff filtered]
      simp [callName]

end Mongo

/-! ## Declared types -/

/-- A condition reads no more arguments than its comparator has. -/
theorem Mongo.lt_arity_of_mem_argumentsRead (comparator : Comparator) :
    ∀ read ∈ argumentsRead comparator, read.1 < comparator.arity := by
  cases comparator <;> simp [argumentsRead, Comparator.arity]

namespace Plan

variable {entity : Entity} {plan : Plan} {position : Nat} {place : List Step}
  {type? : Option GoType}

theorem checkChange_of_check {signature : Signature} {change : Change} {mode : Mode}
    {query : Query}
    (checked : Plan.check entity ⟨signature, .update change mode query⟩ = .ok ()) :
    checkChange entity signature.params change = .ok () := by
  obtain ⟨-, -, passed⟩ := check_eq_ok_iff_steps.mp checked
  simp only [checkOperation] at passed
  split at passed
  · next changed => exact changed
  · cases passed

theorem declared_of_filterTakes {schema : Schema} {params : List GoType} {query : Query}
    (checked : checkQuery schema params query = .ok ())
    (taken : Mongo.FilterTakes query position place type?) :
    ∃ type, type? = some type ∧ params[position]? = some type := by
  cases taken with
  | @compared predicate offset steps listed read =>
      have each := checkAll_eq_ok_iff.mp checked predicate listed
      obtain ⟨-, row⟩ := checkPredicate_eq_ok_iff.mp each
      -- what the condition reads is counted apart from what the check asks for
      have within : offset < predicate.expectedTypes.length := by
        rw [predicate.length_expectedTypes]
        exact Mongo.lt_arity_of_mem_argumentsRead _ _ read
      refine ⟨predicate.expectedTypes[offset], List.getElem?_eq_getElem within, ?_⟩
      rw [← List.getElem?_drop]
      exact List.prefix_iff_getElem?.mp row offset within

theorem declared_of_updateTakes {params : List GoType} {change : Change}
    (checked : checkChange entity params change = .ok ())
    (taken : Mongo.UpdateTakes entity change position place type?) :
    ∃ type, type? = some type ∧ params[position]? = some type := by
  cases taken with
  | model slot => exact ⟨_, rfl, checkParam_eq_ok_iff.mp checked⟩
  | assigned listed =>
      have each := checkAll_eq_ok_iff.mp checked _ listed
      obtain ⟨-, type, expected, found⟩ := checkAssignment_eq_ok_iff.mp each
      exact ⟨type, expected, found⟩

/-- A plan that passes the check declares every parameter that its body takes with the type
that it is used at. -/
theorem declared_of_bodyTakes (checked : plan.check entity = .ok ())
    (taken : Mongo.BodyTakes entity plan.operation position place type?) :
    ∃ type, type? = some type ∧ plan.signature.params[position]? = some type := by
  obtain ⟨context, -, passed⟩ := check_eq_ok_iff_steps.mp checked
  rw [List.head?_eq_getElem?] at context
  rcases plan with ⟨signature, operation⟩
  cases taken with
  | context => exact ⟨_, rfl, context⟩
  | cursor => exact ⟨_, rfl, context⟩
  | insertedOne => exact ⟨_, rfl, checkParam_eq_ok_iff.mp passed⟩
  | insertedMany => exact ⟨_, rfl, checkParam_eq_ok_iff.mp passed⟩
  | filtered queried taken =>
      exact declared_of_filterTakes (checkQuery_of_check checked queried) taken
  | updated taken => exact declared_of_updateTakes (checkChange_of_check checked) taken

end Plan

namespace Mongo

/-- The parameters in the body of a plan that passes the check, whether a name spells its
operation or not, are declared.  They stand exactly at the places where the body takes
them, and each is declared with the type that it is used at. -/
theorem body_parameters_declared {entity : Entity} {plan : Plan} {target : String}
    {statements : List Stmt} (checked : plan.check entity = .ok ())
    (translated : body target plan.operation = .ok statements) :
    (∀ position, argName position ∈ statements.flatMap Stmt.names →
      position < plan.signature.params.length) ∧
    (∀ position place, Stmt.OccursIn (argName position) statements place ↔
      ∃ type?, BodyTakes entity plan.operation position place type?) ∧
    ∀ position place type?, BodyTakes entity plan.operation position place type? →
      ∃ type, type? = some type ∧ plan.signature.params[position]? = some type := by
  refine ⟨?_, fun _ _ => occursIn_body_iff translated,
    fun _ _ _ => Plan.declared_of_bodyTakes checked⟩
  intro position member
  obtain ⟨place, occurs⟩ := Stmt.exists_occursIn statements member
  obtain ⟨type?, taken⟩ := (occursIn_body_iff translated).mp occurs
  obtain ⟨type, -, declared⟩ := Plan.declared_of_bodyTakes checked taken
  exact (List.getElem?_eq_some_iff.mp declared).1

end Mongo

namespace Users

def betweenAges : Predicate := ⟨⟨age, []⟩, .between, 1⟩

def otherAge : Predicate := ⟨⟨age, []⟩, .notEqual, 2⟩

def raisedAge : Assignment := ⟨⟨age, []⟩, .increment, 2⟩

/-- Two predicates that share a parameter, and one without arguments that refers far beyond
the signature. -/
def sharingQuery : Query :=
  ⟨some .or, [betweenAges, otherAge, ⟨⟨active, []⟩, .isTrue, 99⟩]⟩

/-- A plan that no name spells.  An assignment shares the parameter of the predicates, and
nothing refers to the last two parameters. -/
def sharing : Plan where
  signature :=
    ⟨"Share", [.context, .named "int", .named "int", .named "string", .error, .error],
      [.named "int", .error]⟩
  operation := .update (.fields [raisedAge, ⟨⟨tags, []⟩, .push, 3⟩]) .many sharingQuery

theorem sharing_parameters :
    sharing.check entity = .ok () ∧
      ∃ statements, Mongo.body "User" sharing.operation = .ok statements ∧
        Mongo.argName 99 ∉ statements.flatMap Stmt.names ∧
        Stmt.OccursIn (Mongo.argName 2) statements
          [.argument "UpdateMany" 1, Mongo.under "$or", Mongo.under "age", Mongo.under "$lte"] ∧
        Stmt.OccursIn (Mongo.argName 2) statements
          [.argument "UpdateMany" 1, Mongo.under "$or", Mongo.under "age", Mongo.under "$ne"] ∧
        Stmt.OccursIn (Mongo.argName 2) statements
          [.argument "UpdateMany" 2, Mongo.under "$inc", Mongo.under "age"] ∧
        sharing.signature.params[2]? = some age.type := by
  have checked : sharing.check entity = .ok () := rfl
  have translated : ∃ statements, Mongo.body "User" sharing.operation = .ok statements :=
    ⟨_, rfl⟩
  obtain ⟨statements, made⟩ := translated
  obtain ⟨declared, stand, typed⟩ := Mongo.body_parameters_declared checked made
  have path : FieldPath.storedPath ⟨age, []⟩ = "age" := by decide
  have between : betweenAges ∈ sharingQuery.predicates := .head _
  have upper : (1, [Mongo.under "$lte"]) ∈ Mongo.argumentsRead betweenAges.comparator :=
    .tail _ (.head _)
  have other : otherAge ∈ sharingQuery.predicates := .tail _ (.head _)
  have refused : (0, [Mongo.under "$ne"]) ∈ Mongo.argumentsRead otherAge.comparator := .head _
  have raised : Mongo.UpdateTakes entity (.fields [raisedAge, ⟨⟨tags, []⟩, .push, 3⟩]) 2
      [Mongo.under "$inc", Mongo.under raisedAge.field.storedPath] (some age.type) :=
    .assigned (.head _)
  rw [← path]
  -- one parameter for three uses, all at the type of the field
  refine ⟨checked, statements, made, ?_,
    (stand 2 _).mpr ⟨_, .filtered rfl (Mongo.FilterTakes.compared between upper)⟩,
    (stand 2 _).mpr ⟨_, .filtered rfl (Mongo.FilterTakes.compared other refused)⟩,
    (stand 2 _).mpr ⟨_, .updated raised⟩, ?_⟩
  · intro member
    exact absurd (declared 99 member) (by decide)
  · obtain ⟨type, same, found⟩ := typed 2 _ _ (.updated raised)
    exact found.trans same.symm

end Users

end NamedQuery
