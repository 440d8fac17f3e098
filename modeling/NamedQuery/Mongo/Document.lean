import NamedQuery.Code.Expr
import NamedQuery.Diagnostic
import NamedQuery.Operation

/-!
# Query, sort and update documents

A query becomes a filter document, sort keys an ordered list, and changed fields
an update document with an entry for each operator.  Fields are referred to by
their names in the stored documents, which every field on a path has to have.
-/

namespace NamedQuery

/-- Why an operation has no document. -/
inductive DocumentError where
  | missingTag (field : String)
  deriving Repr, DecidableEq

namespace DocumentError

def message : DocumentError → String
  | .missingTag field => "bson tag of struct field '" ++ field ++ "' not found"

def code : DocumentError → String
  | .missingTag _ => "repogen::backend::bson_tag_not_found"

def help : DocumentError → Option String
  | .missingTag _ =>
      some ("Every field used in a query, sort, or update needs a `bson:\"name\"` struct " ++
        "tag.")

def diagnostic (fault : DocumentError) : Diagnostic :=
  ⟨fault.message, fault.code, fault.help, none⟩

end DocumentError

namespace Mongo

open Code

/-- The type of an unordered document. -/
def mapType : String := "bson.M"

/-- The type of an ordered document. -/
def listType : String := "bson.D"

/-- The name of the parameter at a position. -/
def argName (slot : Nat) : String := "arg" ++ toString slot

def arg (slot : Nat) : Expr := .ident (argName slot)

/-! ## Paths -/

/-- The names of fields in a stored document, up to the first without one. -/
def bsonNames : List Field → Except DocumentError (List String)
  | [] => .ok []
  | field :: rest =>
      match field.bsonName? with
      | none => .error (.missingTag field.name)
      | some name =>
          match bsonNames rest with
          | .ok names => .ok (name :: names)
          | .error fault => .error fault

/-- The path of a field in a stored document. -/
def bsonPath (field : FieldPath) : Except DocumentError String :=
  (bsonNames field.fields).map (Text.joined ".")

/-! ## Filters -/

/-- A document with one entry. -/
def operand (key : String) (value : Expr) : Expr := .mapping mapType [(.string key, value)]

/-- What a predicate asks of its field. -/
def conditionValue (comparator : Comparator) (slot : Nat) : Expr :=
  match comparator with
  | .equal => arg slot
  | .notEqual => operand "$ne" (arg slot)
  | .lessThan => operand "$lt" (arg slot)
  | .lessThanOrEqual => operand "$lte" (arg slot)
  | .greaterThan => operand "$gt" (arg slot)
  | .greaterThanOrEqual => operand "$gte" (arg slot)
  | .between =>
      .mapping mapType [(.string "$gte", arg slot), (.string "$lte", arg (slot + 1))]
  | .oneOf => operand "$in" (arg slot)
  | .noneOf => operand "$nin" (arg slot)
  | .isTrue => .raw "true"
  | .isFalse => .raw "false"
  | .present => operand "$exists" (.raw "1")
  | .absent => operand "$exists" (.raw "0")

/-- The entry of a predicate in a filter. -/
def condition (predicate : Predicate) : Except DocumentError (Expr × Expr) :=
  (bsonPath predicate.field).map fun path =>
    (.string path, conditionValue predicate.comparator predicate.slot)

def connectiveKey : Connective → String
  | .and => "$and"
  | .or => "$or"

/-- The filter of conditions under a connective.  Without one, or with a single
condition, the conditions are entries of one document. -/
def combine (connective : Option Connective) (conditions : List (Expr × Expr)) : Expr :=
  match conditions, connective with
  | [], _ => .mapping mapType []
  | [only], _ => .mapping mapType [only]
  | conditions, none => .mapping mapType conditions
  | conditions, some connective =>
      operand (connectiveKey connective)
        (.slice ("[]" ++ mapType) (conditions.map fun entry => .mapping "" [entry]))

/-- The filter of a query. -/
def filter (query : Query) : Except DocumentError Expr :=
  (query.predicates.mapM condition).map (combine query.connective)

/-! ## Sort documents -/

def directionText : Direction → String
  | .ascending => "1"
  | .descending => "-1"

def sortEntry (key : SortKey) : Except DocumentError Expr :=
  (bsonPath key.field).map fun path =>
    .struct "" [("Key", .string path), ("Value", .raw (directionText key.direction))]

def sortDocument (keys : List SortKey) : Except DocumentError Expr :=
  (keys.mapM sortEntry).map (.slice listType)

/-! ## Update documents -/

def operatorKey : UpdateOperator → String
  | .set => "$set"
  | .push => "$push"
  | .increment => "$inc"

/-- The entries of one update operator. -/
structure Group where
  operator : UpdateOperator
  entries : List (Expr × Expr)
  deriving Repr

/-- Adds an entry to the group of its operator, or to a new last one. -/
def addEntry (operator : UpdateOperator) (entry : Expr × Expr) : List Group → List Group
  | [] => [⟨operator, [entry]⟩]
  | group :: rest =>
      if group.operator = operator then
        { group with entries := group.entries ++ [entry] } :: rest
      else
        group :: addEntry operator entry rest

/-- Groups by operator, in the order in which the operators appear. -/
def grouped (entries : List (UpdateOperator × (Expr × Expr))) : List Group :=
  entries.foldl (fun groups item => addEntry item.1 item.2 groups) []

def Group.entry (group : Group) : Expr × Expr :=
  (.string (operatorKey group.operator), .mapping mapType group.entries)

def assignmentEntry (assignment : Assignment) :
    Except DocumentError (UpdateOperator × (Expr × Expr)) :=
  (bsonPath assignment.field).map fun path =>
    (assignment.operator, (.string path, arg assignment.slot))

def updateDocument : Change → Except DocumentError Expr
  | .model slot => .ok (operand (operatorKey .set) (arg slot))
  | .fields assignments =>
      (assignments.mapM assignmentEntry).map fun entries =>
        .mapping mapType ((grouped entries).map Group.entry)

end Mongo

end NamedQuery
