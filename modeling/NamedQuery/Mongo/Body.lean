import NamedQuery.Code.Stmt
import NamedQuery.Mongo.Document

/-!
# Method bodies

A body calls the collection, returns a zero value and the error when the call
fails, and the result otherwise.
-/

namespace NamedQuery.Mongo

open Code

/-- The receiver of the methods. -/
def receiverName : String := "r"

/-- The field of the receiver that holds the collection. -/
def collectionName : String := "collection"

/-- A call of a method of the collection. -/
def collectionCall (method : String) (args : List Expr) : Expr :=
  .chain [.ident receiverName, .ident collectionName, .call method args]

def failure (zero : String) : List Stmt := [.giveBack [.raw zero, .ident "err"]]

/-- Returns when the last call failed. -/
def returnOnError (zero : String) : Stmt := .when none (.raw "err != nil") (failure zero)

/-- Makes a call whose only result is an error, and returns when it fails. -/
def checkCall (call : Expr) (zero : String) : Stmt :=
  .when (some (.define ["err"] call)) (.raw "err != nil") (failure zero)

def success (value : String) : Stmt := .giveBack [.raw value, .ident "nil"]

/-- A call with a result, and what is returned when it fails or succeeds. -/
def callBody (result : String) (call : Expr) (zero value : String) : List Stmt :=
  [.define [result, "err"] call, returnOnError zero, success value]

def insertBody : Mode → List Stmt
  | .one =>
      callBody "result" (collectionCall "InsertOne" [arg 0, arg 1]) "nil" "result.InsertedID"
  | .many =>
      [.declare "entities" (GoType.slice .emptyInterface).text,
        .forEach "_" "model" (arg 1)
          [.assign ["entities"] (.call "append" [.ident "entities", .ident "model"])]] ++
      callBody "result" (collectionCall "InsertMany" [arg 0, .ident "entities"]) "nil"
        "result.InsertedIDs"

/-- The options of a find, where there are sort keys or a limit. -/
def findOptions (mode : Mode) (sorts : List SortKey) (limit : Option Nat) :
    Except DocumentError (List Expr) :=
  if sorts.isEmpty && limit.isNone then
    .ok []
  else do
    let make : Expr := match mode with
      | .one => .call "options.FindOne" []
      | .many => .call "options.Find" []
    let sortCalls ←
      if sorts.isEmpty then .ok []
      else (sortDocument sorts).map fun document => [Expr.call "SetSort" [document]]
    let limitCalls := match limit with
      | none => []
      | some count => [Expr.call "SetLimit" [.raw (toString count)]]
    .ok [.chain (make :: (sortCalls ++ limitCalls))]

/-- The body of a find once its arguments are known. -/
def findStatements (entity : String) (mode : Mode) (args : List Expr) : List Stmt :=
  match mode with
  | .one =>
      [.declare "entity" (GoType.named entity).text,
        checkCall (.chain [collectionCall "FindOne" args, .call "Decode" [.raw "&entity"]]) "nil",
        success "&entity"]
  | .many =>
      [.define ["cursor", "err"] (collectionCall "Find" args),
        returnOnError "nil",
        .define ["entities"] (.slice (GoType.slice (.pointer (.named entity))).text []),
        checkCall (.call "cursor.All" [arg 0, .raw "&entities"]) "nil",
        success "entities"]

def findBody (entity : String) (mode : Mode) (query : Query) (sorts : List SortKey)
    (limit : Option Nat) : Except DocumentError (List Stmt) := do
  let document ← filter query
  let options ← findOptions mode sorts limit
  .ok (findStatements entity mode (arg 0 :: document :: options))

def updateBody (change : Change) (mode : Mode) (query : Query) :
    Except DocumentError (List Stmt) := do
  let document ← filter query
  let update ← updateDocument change
  .ok (match mode with
    | .one =>
        callBody "result" (collectionCall "UpdateOne" [arg 0, document, update]) "false"
          "result.MatchedCount > 0"
    | .many =>
        callBody "result" (collectionCall "UpdateMany" [arg 0, document, update]) "0"
          "int(result.MatchedCount)")

def deleteBody (mode : Mode) (query : Query) : Except DocumentError (List Stmt) := do
  let document ← filter query
  .ok (match mode with
    | .one =>
        callBody "result" (collectionCall "DeleteOne" [arg 0, document]) "false"
          "result.DeletedCount > 0"
    | .many =>
        callBody "result" (collectionCall "DeleteMany" [arg 0, document]) "0"
          "int(result.DeletedCount)")

def countBody (query : Query) : Except DocumentError (List Stmt) := do
  let document ← filter query
  .ok (callBody "count" (collectionCall "CountDocuments" [arg 0, document]) "0" "int(count)")

/-- The body of a method that carries out an operation on documents of an
entity. -/
def body (entity : String) : Operation → Except DocumentError (List Stmt)
  | .insert mode => .ok (insertBody mode)
  | .find mode query sorts limit => findBody entity mode query sorts limit
  | .update change mode query => updateBody change mode query
  | .delete mode query => deleteBody mode query
  | .count query => countBody query

end NamedQuery.Mongo
