import NamedQuery.FieldPath
import NamedQuery.Vocabulary.Comparator
import NamedQuery.Vocabulary.Keyword
import NamedQuery.Vocabulary.UpdateOperator

/-!
# Operations

What a repository method does: it inserts, finds, updates, deletes or counts
documents.  Parameters of the method are referred to by their position; the
first one, at position 0, is the context.
-/

namespace NamedQuery

/-- Whether a method deals with one document or with many. -/
inductive Mode where
  | one
  | many
  deriving Repr, DecidableEq

/-! ## Queries -/

inductive Connective where
  | and
  | or
  deriving Repr, DecidableEq

namespace Connective

def keyword : Connective → Keyword
  | .and => .and
  | .or => .or

/-- The connective that a word spells. -/
def ofWord? (word : String) : Option Connective :=
  match Keyword.ofWord? word with
  | some .and => some .and
  | some .or => some .or
  | _ => none

end Connective

/-- A condition on a field.  It takes as many parameters as its comparator has
arguments, from position `slot` on. -/
structure Predicate where
  field : FieldPath
  comparator : Comparator
  slot : Nat
  deriving Repr, DecidableEq

namespace Predicate

def arity (predicate : Predicate) : Nat := predicate.comparator.arity

/-- The type of an argument of a comparator for a field of the given type. -/
def argumentType (comparator : Comparator) (type : GoType) : GoType :=
  match comparator.argumentRule with
  | .identity => type
  | .sequence => .slice type

/-- The types of the parameters that the predicate takes. -/
def argumentTypes (predicate : Predicate) : List GoType :=
  List.replicate predicate.arity (argumentType predicate.comparator predicate.field.leafType)

end Predicate

/-- Predicates and what joins them.  Without predicates, every document
matches. -/
structure Query where
  connective : Option Connective
  predicates : List Predicate
  deriving Repr, DecidableEq

namespace Query

def everything : Query := ⟨none, []⟩

def matchesAll (query : Query) : Bool := query.predicates.isEmpty

/-- How many parameters the predicates take. -/
def arity (query : Query) : Nat :=
  query.predicates.foldr (fun predicate total => predicate.arity + total) 0

end Query

/-! ## Sorting -/

inductive Direction where
  | ascending
  | descending
  deriving Repr, DecidableEq

structure SortKey where
  field : FieldPath
  direction : Direction
  deriving Repr, DecidableEq

/-! ## Updates -/

/-- A field that an update changes, with the parameter at position `slot`. -/
structure Assignment where
  field : FieldPath
  operator : UpdateOperator
  slot : Nat
  deriving Repr, DecidableEq

/-- The type of the parameter of an assignment, where its operator has one. -/
def Assignment.argumentType? (assignment : Assignment) (schema : Schema) : Option GoType :=
  match assignment.operator.operandRule with
  | .sequence => schema.elementType? assignment.field.leafType
  | .any | .numeric => some assignment.field.leafType

/-- What an update writes. -/
inductive Change where
  /-- The whole model that is passed at a position. -/
  | model (slot : Nat)
  | fields (assignments : List Assignment)
  deriving Repr, DecidableEq

/-- How many parameters a change takes. -/
def Change.arity : Change → Nat
  | .model _ => 1
  | .fields assignments => assignments.length

/-! ## Operations -/

inductive OperationKind where
  | insert
  | find
  | update
  | delete
  | count
  deriving Repr, DecidableEq

namespace OperationKind

def keyword : OperationKind → Keyword
  | .insert => .insert
  | .find => .find
  | .update => .update
  | .delete => .delete
  | .count => .count

def name (kind : OperationKind) : String := kind.keyword.spelling

/-- The operation that a word spells. -/
def ofWord? (word : String) : Option OperationKind :=
  match Keyword.ofWord? word with
  | some .insert => some .insert
  | some .find => some .find
  | some .update => some .update
  | some .delete => some .delete
  | some .count => some .count
  | _ => none

end OperationKind

inductive Operation where
  | insert (mode : Mode)
  | find (mode : Mode) (query : Query) (sorts : List SortKey) (limit : Option Nat)
  | update (change : Change) (mode : Mode) (query : Query)
  | delete (mode : Mode) (query : Query)
  | count (query : Query)
  deriving Repr, DecidableEq

namespace Operation

def kind : Operation → OperationKind
  | .insert .. => .insert
  | .find .. => .find
  | .update .. => .update
  | .delete .. => .delete
  | .count .. => .count

def mode? : Operation → Option Mode
  | .insert mode | .find mode .. | .update _ mode _ | .delete mode _ => some mode
  | .count _ => none

def query? : Operation → Option Query
  | .insert _ => none
  | .find _ query .. | .update _ _ query | .delete _ query | .count query => some query

/-- How many parameters the operation takes beside the context. -/
def arity : Operation → Nat
  | .insert _ => 1
  | .find _ query .. | .delete _ query | .count query => query.arity
  | .update change _ query => change.arity + query.arity

end Operation

/-- A method together with the operation it stands for. -/
structure Plan where
  signature : Signature
  operation : Operation
  deriving Repr, DecidableEq

end NamedQuery
