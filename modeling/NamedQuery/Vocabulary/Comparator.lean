import NamedQuery.Word

/-!
# Comparators

A predicate of a query is a field followed by a comparator: in
`AgeLessThanEqual` the field is `Age`.  The comparator is found by its last
words, longest first, and at least one word is left for the field.  A predicate
that ends in no comparator compares for equality.
-/

namespace NamedQuery

inductive Comparator where
  | equal
  | notEqual
  | lessThan
  | lessThanOrEqual
  | greaterThan
  | greaterThanOrEqual
  | between
  | oneOf
  | noneOf
  | isTrue
  | isFalse
  | present
  | absent
  deriving Repr, DecidableEq

/-- How the arguments of a comparator follow from the type of the field. -/
inductive ArgumentRule where
  /-- Each argument has the type of the field. -/
  | identity
  /-- The argument is a slice of the type of the field. -/
  | sequence
  deriving Repr, DecidableEq

/-- Which fields a comparator applies to. -/
inductive FieldRule where
  | any
  | boolean
  deriving Repr, DecidableEq

namespace Comparator

def all : List Comparator :=
  [.equal, .notEqual, .lessThan, .lessThanOrEqual, .greaterThan, .greaterThanOrEqual, .between,
    .oneOf, .noneOf, .isTrue, .isFalse, .present, .absent]

/-- The words that end a predicate with this comparator. -/
def suffix : Comparator → List String
  | .equal => []
  | .notEqual => ["Not"]
  | .lessThan => ["Less", "Than"]
  | .lessThanOrEqual => ["Less", "Than", "Equal"]
  | .greaterThan => ["Greater", "Than"]
  | .greaterThanOrEqual => ["Greater", "Than", "Equal"]
  | .between => ["Between"]
  | .oneOf => ["In"]
  | .noneOf => ["Not", "In"]
  | .isTrue => ["True"]
  | .isFalse => ["False"]
  | .present => ["Exists"]
  | .absent => ["Not", "Exists"]

/-- The name of the comparator: its words, or `Equal` for the one without any. -/
def spelling : Comparator → String
  | .equal => "Equal"
  | comparator => spell comparator.suffix

/-- How many parameters of the method a predicate takes. -/
def arity : Comparator → Nat
  | .between => 2
  | .isTrue | .isFalse | .present | .absent => 0
  | _ => 1

def argumentRule : Comparator → ArgumentRule
  | .oneOf | .noneOf => .sequence
  | _ => .identity

def fieldRule : Comparator → FieldRule
  | .isTrue | .isFalse => .boolean
  | _ => .any

def ofSpelling? (text : String) : Option Comparator :=
  all.find? fun comparator => comparator.spelling = text

/-- The order in which comparators are tried: one that ends in the words of
another comes before it. -/
def matchOrder : List Comparator :=
  [.noneOf, .absent, .lessThanOrEqual, .greaterThanOrEqual, .lessThan, .greaterThan, .present,
    .oneOf, .between, .isTrue, .isFalse, .notEqual]

/-- Whether a run of words is a field, of at least one word, and the words of
the comparator. -/
def closes (comparator : Comparator) (run : List String) : Bool :=
  comparator.suffix.length < run.length && comparator.suffix.isSuffixOf run

/-- The comparator at the end of a run of words. -/
def atEnd (run : List String) : Comparator :=
  (matchOrder.find? fun comparator => comparator.closes run).getD .equal

/-- The words of a run that name the field, before its comparator. -/
def fieldWords (run : List String) : List String :=
  run.take (run.length - (atEnd run).suffix.length)

end Comparator

end NamedQuery
