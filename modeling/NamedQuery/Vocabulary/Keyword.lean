import NamedQuery.Text.CharSet

/-!
# Keywords of method names

The reserved words of a method name, with the part of the name each belongs to
and the text that explains it.  A keyword is a whole word, in its exact case;
only `Top` is written together with the digits of a limit, as in `Top5`.
-/

namespace NamedQuery

open Text

/-- The part of a method name that a keyword belongs to. -/
inductive KeywordRole where
  | operation
  | modifier
  | clause
  | connective
  | sort
  | limit
  deriving Repr, DecidableEq

def KeywordRole.label : KeywordRole → String
  | .operation => "operation"
  | .modifier => "modifier"
  | .clause => "clause"
  | .connective => "connective"
  | .sort => "sort"
  | .limit => "limit"

/-- A signature that shows a keyword in use. -/
structure KeywordExample where
  code : String
  note : Option String
  deriving Repr, DecidableEq

inductive Keyword where
  | insert
  | find
  | update
  | delete
  | count
  | one
  | many
  | byClause
  | allClause
  | and
  | or
  | order
  | ascending
  | descending
  | top
  deriving Repr, DecidableEq

namespace Keyword

def all : List Keyword :=
  [.insert, .find, .update, .delete, .count, .one, .many, .byClause, .allClause,
    .and, .or, .order, .ascending, .descending, .top]

def spelling : Keyword → String
  | .insert => "Insert"
  | .find => "Find"
  | .update => "Update"
  | .delete => "Delete"
  | .count => "Count"
  | .one => "One"
  | .many => "Many"
  | .byClause => "By"
  | .allClause => "All"
  | .and => "And"
  | .or => "Or"
  | .order => "Order"
  | .ascending => "Asc"
  | .descending => "Desc"
  | .top => "Top"

def role : Keyword → KeywordRole
  | .insert | .find | .update | .delete | .count => .operation
  | .one | .many => .modifier
  | .byClause | .allClause => .clause
  | .and | .or => .connective
  | .order | .ascending | .descending => .sort
  | .top => .limit

def description : Keyword → String
  | .insert => "Insert one model or a batch of models."
  | .find => "Look up one model or a list of models matching a query."
  | .update =>
      "Modify matching documents, either field by field or by replacing with a model."
  | .delete => "Remove one or many matching documents."
  | .count => "Count documents matching a query."
  | .one => "Force single-result mode (`FindOneBy...`, `InsertOne`)."
  | .many => "Mark a batch insert (`InsertMany`)."
  | .byClause => "Introduce the query clause."
  | .allClause => "Match every document (empty query)."
  | .and => "Join predicates, update fields, or sort keys."
  | .or => "Join predicates disjunctively. Cannot be mixed with `And` in one query."
  | .order => "First half of `OrderBy`, which introduces the sort clause."
  | .ascending => "Sort a key in ascending order (the default)."
  | .descending => "Sort a key in descending order."
  | .top => "Limit the number of results; fused with its digits (`Top5`)."

def examples : Keyword → List KeywordExample
  | .insert =>
      [⟨"InsertOne(ctx context.Context, model *UserModel) (interface{}, error)", none⟩]
  | .find => [⟨"FindByEmail(ctx context.Context, email string) (*UserModel, error)", none⟩]
  | .update =>
      [⟨"UpdateAgeIncByID(ctx context.Context, age int, id primitive.ObjectID) (bool, error)",
        some "Increments `age` on the document whose id matches."⟩]
  | .allClause => [⟨"FindAll(ctx context.Context) ([]*UserModel, error)", none⟩]
  | .order => [⟨"FindAllOrderByAgeDesc(ctx context.Context) ([]*UserModel, error)", none⟩]
  | .top => [⟨"FindTop5AllOrderByAgeDesc(ctx context.Context) ([]*UserModel, error)", none⟩]
  | _ => []

/-- The keyword that a word spells. -/
def ofWord? (word : String) : Option Keyword :=
  all.find? fun keyword => keyword.spelling = word

/-- What follows `Top` at the start of a word, whatever it is. -/
def afterTop? (word : String) : Option String :=
  (Keyword.top.spelling.toList.isPrefixOf? word.toList).map String.ofList

/-- The keyword behind a word, also when it is `Top` with its digits. -/
def behind? (word : String) : Option Keyword :=
  match ofWord? word with
  | some keyword => some keyword
  | none =>
      match afterTop? word with
      | some digits =>
          if !digits.isEmpty && digits.toList.all isDigit then some .top else none
      | none => none

end Keyword

end NamedQuery
