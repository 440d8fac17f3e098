import NamedQuery.Code.Decl
import NamedQuery.Mongo.Body

/-!
# The implementation of a repository

A struct that wraps a collection, its constructor, and the packages of the
database driver that its methods need.
-/

namespace NamedQuery.Mongo

open Code

/-- The stored struct and the interface to implement. -/
structure Implementation where
  entity : String
  interface : String
  deriving Repr, DecidableEq

def bsonImport : Import := .plain "go.mongodb.org/mongo-driver/bson"

def mongoImport : Import := .plain "go.mongodb.org/mongo-driver/mongo"

def optionsImport : Import := .plain "go.mongodb.org/mongo-driver/mongo/options"

/-- What every file imports of the database driver. -/
def baseImports : List Import := [mongoImport]

/-- What the body of an operation refers to. -/
def importsOf : Operation → List Import
  | .insert _ => []
  | .find _ _ sorts limit =>
      if sorts.isEmpty && limit.isNone then [bsonImport] else [bsonImport, optionsImport]
  | .update .. | .delete .. | .count .. => [bsonImport]

def collectionType : GoType := .pointer (.qualified "mongo" "Collection")

namespace Implementation

def name (implementation : Implementation) : String := implementation.interface ++ "Mongo"

def constructorName (implementation : Implementation) : String :=
  "New" ++ implementation.interface

def receiver (implementation : Implementation) : Param :=
  ⟨receiverName, .pointer (.named implementation.name)⟩

/-- The constructor and the struct. -/
def declarations (implementation : Implementation) : List Decl :=
  [.function implementation.constructorName [⟨collectionName, collectionType⟩]
      [.named implementation.interface]
      [.giveBack
        [.struct ("&" ++ implementation.name) [(collectionName, .ident collectionName)]]],
    .struct implementation.name [⟨collectionName, collectionType⟩]]

/-- Parameters named by their positions, from `slot` on. -/
def paramsFrom (slot : Nat) : List GoType → List Param
  | [] => []
  | type :: rest => ⟨argName slot, type⟩ :: paramsFrom (slot + 1) rest

/-- The method of a plan. -/
def methodDecl (implementation : Implementation) (plan : Plan) : Except DocumentError Decl :=
  (body implementation.entity plan.operation).map fun statements =>
    .method implementation.receiver plan.signature.name (paramsFrom 0 plan.signature.params)
      plan.signature.results statements

end Implementation

end NamedQuery.Mongo
