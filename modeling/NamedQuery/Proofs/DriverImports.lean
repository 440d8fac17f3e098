import NamedQuery.Proofs.Imports
import NamedQuery.Proofs.Limit
import NamedQuery.Proofs.Update

/-!
# What a body uses of the driver

The packages of the driver that an operation needs are chosen without a look at its body.
They are still the ones that the body uses: the options are imported exactly when the body
calls one of their functions, and the documents exactly when it has a literal of one of
their types.
-/

namespace NamedQuery

open Code

/-! ## Types of literals -/

namespace Code

namespace Expr

/-- The type of a literal of a mapping or a slice. -/
def literalType? : Expr → Option String
  | .slice type _ | .mapping type _ => some type
  | .ident _ | .raw _ | .call .. | .chain _ | .struct .. => none

/-- The types of the literals in an expression, however deep. -/
def literalTypes (expr : Expr) : List String := expr.picked literalType?

theorem literalTypes_mapping (type : String) (entries : List (Expr × Expr)) :
    (Expr.mapping type entries).literalTypes =
      type :: entries.flatMap fun entry => entry.1.literalTypes ++ entry.2.literalTypes :=
  picked_mapping literalType? type entries

@[simp]
theorem literalTypes_ident (name : String) : (Expr.ident name).literalTypes = [] := rfl

@[simp]
theorem literalTypes_call (function : String) (args : List Expr) :
    (Expr.call function args).literalTypes = args.flatMap literalTypes :=
  picked_call literalType? function args

@[simp]
theorem literalTypes_chain (parts : List Expr) :
    (Expr.chain parts).literalTypes = parts.flatMap literalTypes :=
  picked_chain literalType? parts

end Expr

/-- The types of the literals in a statement, however deep. -/
def Stmt.literalTypes (stmt : Stmt) : List String := stmt.picked Expr.literalType?

end Code

namespace Mongo

/-! ## Calls -/

theorem calls_collectionCall (method : String) (args : List Expr) :
    (collectionCall method args).calls = (method, args) :: args.flatMap Expr.calls := by
  simp [collectionCall]

theorem calls_callBody (result : String) (call : Expr) (zero value : String) :
    (callBody result call zero value).flatMap Stmt.calls = call.calls := by
  simp [callBody, returnOnError, failure, success]

/-- An update document calls nothing. -/
theorem calls_updateDocument {change : Change} {document : Expr}
    (built : updateDocument change = .ok document) : document.calls = [] := by
  cases change with
  | model slot =>
      cases built
      simp
  | fields assignments =>
      obtain ⟨entries, each, rfl⟩ := map_eq_ok_iff.mp built
      rw [entries_of_mapM each, Expr.calls_mapping, List.flatMap_eq_nil_iff]
      intro entry member
      obtain ⟨group, listed, rfl⟩ := List.mem_map.mp member
      have inside : ∀ pair ∈ group.entries, pair.1.calls ++ pair.2.calls = [] := by
        intro pair there
        have kept := (entries_grouped _).mem_iff.mp (List.mem_flatMap.mpr ⟨group, listed, there⟩)
        rw [List.map_map, List.mem_map] at kept
        obtain ⟨assignment, -, rfl⟩ := kept
        rfl
      rw [Group.entry, Expr.calls_mapping, List.flatMap_eq_nil_iff.mpr inside]
      rfl

/-- The call that reads the documents of a find after it was made. -/
def readingCall : Mode → String × List Expr
  | .one => ("Decode", [.raw "&entity"])
  | .many => ("cursor.All", [arg 0, .raw "&entities"])

theorem calls_findStatements (entity : String) (mode : Mode) (args : List Expr) :
    ∃ method ∈ ["FindOne", "Find"], (findStatements entity mode args).flatMap Stmt.calls =
      (method, args) :: (args.flatMap Expr.calls ++ [readingCall mode]) := by
  cases mode with
  | one =>
      refine ⟨"FindOne", by simp, ?_⟩
      simp [findStatements, checkCall, failure, success, calls_collectionCall, readingCall]
  | many =>
      refine ⟨"Find", by simp, ?_⟩
      simp [findStatements, checkCall, returnOnError, failure, success, calls_collectionCall,
        readingCall]

/-- Whether a function is one of the options package. -/
def OfOptions (function : String) : Prop := "options.".toList <+: function.toList

instance (function : String) : Decidable (OfOptions function) :=
  inferInstanceAs (Decidable ("options.".toList <+: function.toList))

/-- The options of a find are made by a function of the package, where there are any. -/
theorem exists_ofOptions_findOptions_iff {mode : Mode} {sorts : List SortKey}
    {limit : Option Nat} {options : List Expr} (query : Query)
    (built : findOptions mode sorts limit = .ok options) :
    (∃ call ∈ options.flatMap Expr.calls, OfOptions call.1) ↔
      (Operation.find mode query sorts limit).Refined := by
  have made : OfOptions (optionsName mode) := by cases mode <;> decide
  cases findOptions_cases built with
  | absent => simp [Operation.Refined]
  | limited count => simp [Operation.Refined, made]
  | sorted nonempty _ => simp [Operation.Refined, nonempty, made]

/-- A single call of the collection, with arguments that call nothing. -/
theorem not_ofOptions_callBody {method : String} {args : List Expr} (result zero value : String)
    (own : ¬ OfOptions method) (silent : args.flatMap Expr.calls = []) :
    ¬ ∃ call ∈ (callBody result (collectionCall method args) zero value).flatMap Stmt.calls,
      OfOptions call.1 := by
  rw [calls_callBody, calls_collectionCall, silent]
  simpa using own

theorem exists_ofOptions_findStatements_iff (entity : String) (mode : Mode) (args : List Expr) :
    (∃ call ∈ (findStatements entity mode args).flatMap Stmt.calls, OfOptions call.1) ↔
      ∃ call ∈ args.flatMap Expr.calls, OfOptions call.1 := by
  obtain ⟨method, listed, calls⟩ := calls_findStatements entity mode args
  have own : ¬ OfOptions method := by
    simp only [List.mem_cons, List.not_mem_nil, or_false] at listed
    rcases listed with rfl | rfl <;> decide
  have last : ¬ OfOptions (readingCall mode).1 := by cases mode <;> decide
  rw [calls]
  simp only [List.mem_cons, List.mem_append, List.not_mem_nil, or_false, exists_eq_or_imp, own,
    false_or]
  constructor
  · rintro ⟨call, inside | rfl, found⟩
    · exact ⟨call, inside, found⟩
    · exact absurd found last
  · rintro ⟨call, inside, found⟩
    exact ⟨call, .inl inside, found⟩

theorem not_ofOptions_insertBody (mode : Mode) :
    ¬ ∃ call ∈ (insertBody mode).flatMap Stmt.calls, OfOptions call.1 := by
  cases mode with
  | one => exact not_ofOptions_callBody "result" "nil" "result.InsertedID" (by decide) rfl
  | many =>
      have calls : (insertBody .many).flatMap Stmt.calls =
          [("append", [.ident "entities", .ident "model"]),
            ("InsertMany", [arg 0, .ident "entities"])] := rfl
      rw [calls]
      rintro ⟨call, listed, found⟩
      simp only [List.mem_cons, List.not_mem_nil, or_false] at listed
      rcases listed with rfl | rfl <;> exact absurd found (by decide)

/-- A body calls a function of the options package exactly when it is that of a find which
sorts or limits its documents. -/
theorem exists_ofOptions_body_iff {entity : String} {operation : Operation}
    {statements : List Stmt} (translated : body entity operation = .ok statements) :
    (∃ call ∈ statements.flatMap Stmt.calls, OfOptions call.1) ↔ operation.Refined := by
  cases operation with
  | insert mode =>
      cases translated
      exact iff_of_false (not_ofOptions_insertBody mode) id
  | find mode query sorts limit =>
      obtain ⟨document, filtered, afterFilter⟩ := bind_eq_ok_iff.mp translated
      obtain ⟨options, chosen, done⟩ := bind_eq_ok_iff.mp afterFilter
      cases done
      rw [exists_ofOptions_findStatements_iff, List.flatMap_cons, List.flatMap_cons, calls_arg,
        calls_filter filtered, List.nil_append, List.nil_append]
      exact exists_ofOptions_findOptions_iff query chosen
  | update change mode query =>
      obtain ⟨document, filtered, afterFilter⟩ := bind_eq_ok_iff.mp translated
      obtain ⟨update, changed, done⟩ := bind_eq_ok_iff.mp afterFilter
      have silent : [arg 0, document, update].flatMap Expr.calls = [] := by
        simp [calls_filter filtered, calls_updateDocument changed]
      refine iff_of_false ?_ id
      cases mode <;> cases done <;> exact not_ofOptions_callBody _ _ _ (by decide) silent
  | delete mode query =>
      obtain ⟨document, filtered, done⟩ := bind_eq_ok_iff.mp translated
      have silent : [arg 0, document].flatMap Expr.calls = [] := by simp [calls_filter filtered]
      refine iff_of_false ?_ id
      cases mode <;> cases done <;> exact not_ofOptions_callBody _ _ _ (by decide) silent
  | count query =>
      obtain ⟨document, filtered, done⟩ := bind_eq_ok_iff.mp translated
      have silent : [arg 0, document].flatMap Expr.calls = [] := by simp [calls_filter filtered]
      refine iff_of_false ?_ id
      cases done
      exact not_ofOptions_callBody _ _ _ (by decide) silent

/-! ## Literals -/

theorem exists_mapping_of_filter {query : Query} {document : Expr}
    (built : filter query = .ok document) : ∃ entries, document = .mapping mapType entries := by
  obtain ⟨conditions, -, rfl⟩ := map_eq_ok_iff.mp built
  unfold combine
  split <;> exact ⟨_, rfl⟩

/-- A filter is a literal of a document. -/
theorem mapType_mem_filter {query : Query} {document : Expr}
    (built : filter query = .ok document) : mapType ∈ document.literalTypes := by
  obtain ⟨entries, rfl⟩ := exists_mapping_of_filter built
  rw [Expr.literalTypes_mapping]
  exact List.mem_cons_self

theorem literalTypes_collectionCall (method : String) (args : List Expr) :
    (collectionCall method args).literalTypes = args.flatMap Expr.literalTypes := by
  simp [collectionCall]

theorem literalTypes_checkCall (call : Expr) (zero : String) :
    (checkCall call zero).literalTypes = call.literalTypes := by
  rw [checkCall, Stmt.literalTypes, Stmt.picked_when_some]
  exact (List.append_assoc ..).trans (List.append_nil _)

/-- The literals in the arguments of a call of the collection are literals of the body. -/
theorem literalTypes_callBody (result method : String) (args : List Expr) (zero value : String) :
    (callBody result (collectionCall method args) zero value).flatMap Stmt.literalTypes =
      args.flatMap Expr.literalTypes := by
  rw [callBody, List.flatMap_cons]
  exact (List.append_nil _).trans (literalTypes_collectionCall method args)

theorem mem_literalTypes_findStatements {entity : String} {mode : Mode} {args : List Expr}
    {type : String} (member : type ∈ args.flatMap Expr.literalTypes) :
    type ∈ (findStatements entity mode args).flatMap Stmt.literalTypes := by
  rw [← literalTypes_collectionCall] at member
  cases mode with
  | one =>
      refine List.mem_flatMap.mpr ⟨_, List.mem_cons_of_mem _ List.mem_cons_self, ?_⟩
      rw [literalTypes_checkCall, Expr.literalTypes_chain, List.flatMap_cons]
      exact List.mem_append_left _ member
  | many => exact List.mem_flatMap.mpr ⟨_, List.mem_cons_self, member⟩

/-- The body of an operation with a query has the filter of the query in it. -/
theorem mapType_mem_body {entity : String} {operation : Operation} {statements : List Stmt}
    {query : Query} (translated : body entity operation = .ok statements)
    (queried : operation.query? = some query) :
    mapType ∈ statements.flatMap Stmt.literalTypes := by
  have passed {document : Expr} (filtered : filter query = .ok document) (later : List Expr) :
      mapType ∈ (arg 0 :: document :: later).flatMap Expr.literalTypes :=
    List.mem_flatMap.mpr
      ⟨document, List.mem_cons_of_mem _ List.mem_cons_self, mapType_mem_filter filtered⟩
  cases operation with
  | insert mode => cases queried
  | find mode other sorts limit =>
      cases queried
      obtain ⟨document, filtered, afterFilter⟩ := bind_eq_ok_iff.mp translated
      obtain ⟨options, -, done⟩ := bind_eq_ok_iff.mp afterFilter
      cases done
      exact mem_literalTypes_findStatements (passed filtered options)
  | update change mode other =>
      cases queried
      obtain ⟨document, filtered, afterFilter⟩ := bind_eq_ok_iff.mp translated
      obtain ⟨update, -, done⟩ := bind_eq_ok_iff.mp afterFilter
      cases mode <;> cases done <;> rw [literalTypes_callBody] <;> exact passed filtered [update]
  | delete mode other =>
      cases queried
      obtain ⟨document, filtered, done⟩ := bind_eq_ok_iff.mp translated
      cases mode <;> cases done <;> rw [literalTypes_callBody] <;> exact passed filtered []
  | count other =>
      cases queried
      obtain ⟨document, filtered, done⟩ := bind_eq_ok_iff.mp translated
      cases done
      rw [literalTypes_callBody]
      exact passed filtered []

theorem literalTypes_insertBody (mode : Mode) :
    (insertBody mode).flatMap Stmt.literalTypes = [] := by
  cases mode <;> rfl

/-- The options package is imported for an operation exactly when its body calls, at any
depth, a function of the package, and the package of documents exactly when the body has,
at any depth, a literal of one of its types. -/
theorem imports_iff_used {entity : String} {operation : Operation} {statements : List Stmt}
    (translated : body entity operation = .ok statements) :
    (Import.plain "go.mongodb.org/mongo-driver/mongo/options" ∈ importsOf operation ↔
      ∃ call ∈ statements.flatMap Stmt.calls, "options.".toList <+: call.1.toList) ∧
    (Import.plain "go.mongodb.org/mongo-driver/bson" ∈ importsOf operation ↔
      ∃ type ∈ statements.flatMap Stmt.literalTypes, type ∈ ["bson.M", "[]bson.M", "bson.D"]) := by
  constructor
  · have apart : optionsImport ≠ bsonImport := by decide
    refine Iff.trans ?_ (exists_ofOptions_body_iff translated).symm
    change optionsImport ∈ importsOf operation ↔ _
    simp [mem_importsOf_iff, apart]
  · have apart : bsonImport ≠ optionsImport := by decide
    change bsonImport ∈ importsOf operation ↔ _
    rw [mem_importsOf_iff]
    constructor
    · rintro (⟨-, query, queried⟩ | ⟨same, -⟩)
      · exact ⟨mapType, mapType_mem_body translated queried, List.mem_cons_self⟩
      · exact absurd same apart
    · rintro ⟨type, there, -⟩
      cases operation with
      | insert mode =>
          cases translated
          rw [literalTypes_insertBody] at there
          cases there
      | _ => exact .inl ⟨rfl, _, rfl⟩

end Mongo

namespace Users

/-- A find of the oldest user, sorted but without a limit. -/
def findOldest : Operation := .find .one .everything [⟨⟨age, []⟩, .descending⟩] none

theorem oldest_uses_both :
    ∃ statements, Mongo.body "User" findOldest = .ok statements ∧
      (∃ call ∈ statements.flatMap Stmt.calls, "options.".toList <+: call.1.toList) ∧
      ∃ type ∈ statements.flatMap Stmt.literalTypes, type ∈ ["bson.M", "[]bson.M", "bson.D"] := by
  have translated : ∃ statements, Mongo.body "User" findOldest = .ok statements := ⟨_, rfl⟩
  obtain ⟨statements, made⟩ := translated
  obtain ⟨options, documents⟩ := Mongo.imports_iff_used made
  refine ⟨statements, made, options.mp ?_, documents.mp ?_⟩
  · exact List.mem_cons_of_mem _ List.mem_cons_self
  · exact List.mem_cons_self

end Users

end NamedQuery
