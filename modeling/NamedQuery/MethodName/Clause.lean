import NamedQuery.MethodError

/-!
# Clauses of method names

The parts of a name after its operation: the query, the sort keys and the
updated fields.  Each clause takes the words that belong to it.  Clauses that
take parameters number them from a given position on, from left to right.
-/

namespace NamedQuery

/-- The struct that a repository stores, in its schema. -/
structure Entity where
  schema : Schema
  struct : Struct

namespace Entity

/-- The field that a run of words names. -/
def resolve (entity : Entity) (run : List String) : Except MethodError FieldPath :=
  match entity.schema.path? entity.struct run with
  | some path => .ok path
  | none => .error (.fieldNotFound (spell run))

/-! ## Queries -/

/-- A run of words up to a connective, or up to the end. -/
structure Segment where
  run : List String
  next : Option Connective
  deriving Repr, DecidableEq

/-- The segments of a list of words: one more than it has connectives. -/
def segments : List String → List Segment
  | [] => [⟨[], none⟩]
  | word :: rest =>
      match Connective.ofWord? word with
      | some connective => ⟨[], some connective⟩ :: segments rest
      | none =>
          match segments rest with
          | [] => [⟨[word], none⟩]
          | segment :: others => { segment with run := word :: segment.run } :: others

/-- The predicate of a run of words, with its parameters from `slot` on. -/
def readPredicate (entity : Entity) (slot : Nat) (run : List String) :
    Except MethodError Predicate :=
  match entity.resolve (Comparator.fieldWords run) with
  | .ok field => .ok ⟨field, Comparator.atEnd run, slot⟩
  | .error fault => .error fault

/-- Whether a connective follows that is not the one seen before. -/
def mixes (seen next : Option Connective) : Bool :=
  match seen, next with
  | some earlier, some later => earlier ≠ later
  | _, _ => false

/-- The query of the segments that are left.  `clause` is the text to complain
about. -/
def readSegments (entity : Entity) (clause : String) :
    Option Connective → Nat → List Segment → Except MethodError Query
  | seen, _, [] => .ok ⟨seen, []⟩
  | seen, slot, segment :: rest =>
      if mixes seen segment.next || segment.run.isEmpty then
        .error (.invalidQuery clause)
      else
        match entity.readPredicate slot segment.run with
        | .error fault => .error fault
        | .ok predicate =>
            match readSegments entity clause (segment.next.or seen) (slot + predicate.arity)
              rest with
            | .error fault => .error fault
            | .ok query => .ok { query with predicates := predicate :: query.predicates }

/-- The predicates of a list of words. -/
def readPredicates (entity : Entity) (slot : Nat) (words : List String) :
    Except MethodError Query :=
  entity.readSegments (spell words) none slot (segments words)

/-- A query clause: `All`, or `By` and predicates. -/
def readQuery (entity : Entity) (slot : Nat) : List String → Except MethodError Query
  | [] => .error .queryRequired
  | head :: rest =>
      if head = Keyword.allClause.spelling then
        if rest.isEmpty then .ok .everything else .error (.invalidQuery (spell (head :: rest)))
      else if head = Keyword.byClause.spelling ∧ rest ≠ [] then
        entity.readPredicates slot rest
      else
        .error .queryRequired

/-! ## Sort keys -/

/-- The field words of a sort key, and its direction. -/
def sortParts (run : List String) : List String × Direction :=
  match run.getLast? with
  | some last =>
      if last = Keyword.ascending.spelling then (run.dropLast, .ascending)
      else if last = Keyword.descending.spelling then (run.dropLast, .descending)
      else (run, .ascending)
  | none => (run, .ascending)

def readSortKeys (entity : Entity) (clause : String) :
    List (List String) → Except MethodError (List SortKey)
  | [] => .ok []
  | run :: rest =>
      let (fieldRun, direction) := sortParts run
      if fieldRun.isEmpty then
        .error (.invalidSort clause)
      else
        match entity.resolve fieldRun with
        | .error fault => .error fault
        | .ok field =>
            match readSortKeys entity clause rest with
            | .error fault => .error fault
            | .ok keys => .ok (⟨field, direction⟩ :: keys)

/-- The sort keys of the words after `OrderBy`. -/
def readSorts (entity : Entity) (words : List String) : Except MethodError (List SortKey) :=
  entity.readSortKeys (spell words) (runs Keyword.and.spelling words)

/-! ## Updated fields -/

/-- The field words of an updated field, and its operator. -/
def assignmentParts (run : List String) : List String × UpdateOperator :=
  match run.getLast?.bind UpdateOperator.ofWord? with
  | some operator => (run.dropLast, operator)
  | none => (run, .set)

def readAssignments (entity : Entity) (clause : String) :
    Nat → List (List String) → Except MethodError (List Assignment)
  | _, [] => .ok []
  | slot, run :: rest =>
      let (fieldRun, operator) := assignmentParts run
      if fieldRun.isEmpty then
        .error (.invalidUpdateFields clause)
      else
        match entity.resolve fieldRun with
        | .error fault => .error fault
        | .ok field =>
            match readAssignments entity clause (slot + 1) rest with
            | .error fault => .error fault
            | .ok assignments => .ok (⟨field, operator, slot⟩ :: assignments)

/-- What the words between `Update` and the query change.  Without words it is
the whole model, and the parameter has to be one. -/
def readChange (entity : Entity) (params : List GoType) (slot : Nat) (words : List String) :
    Except MethodError Change :=
  if words.isEmpty then
    if params[slot]? = some entity.struct.pointerType then
      .ok (.model slot)
    else
      .error (.invalidUpdateFields "")
  else
    match entity.readAssignments (spell words) slot (runs Keyword.and.spelling words) with
    | .error fault => .error fault
    | .ok assignments => .ok (.fields assignments)

end Entity

end NamedQuery
