import NamedQuery.Operation

/-!
# Descriptions

What the commands print of words and of plans.
-/

namespace NamedQuery.Command

/-! ## Words -/

def exampleText (shown : KeywordExample) : String :=
  "\n\te.g. " ++ shown.code ++
    (match shown.note with
      | none => ""
      | some note => " (" ++ note ++ ")")

def keywordText (keyword : Keyword) : String :=
  "\t" ++ keyword.role.label ++ " keyword: " ++ keyword.description ++
    spell (keyword.examples.map exampleText)

/-- A word with what it means in a method name. -/
def explainWord (word : String) : String :=
  word ++
    (match Keyword.behind? word with
      | some keyword => keywordText keyword
      | none =>
          match UpdateOperator.ofWord? word with
          | some operator => "\tupdate operator: " ++ operator.description
          | none => "") ++
    "\n"

/-! ## Plans -/

def modeText : Option Mode → String
  | some .one => " one"
  | some .many => " many"
  | none => ""

def changeText : Change → String
  | .model slot => "  update: model @" ++ toString slot ++ "\n"
  | .fields assignments =>
      spell (assignments.map fun assignment =>
        "  update: " ++ assignment.field.name ++ " " ++ assignment.operator.spelling ++ " @" ++
          toString assignment.slot ++ "\n")

def predicateText (label : String) (predicate : Predicate) : String :=
  "  " ++ label ++ " " ++ predicate.field.name ++ " " ++ predicate.comparator.spelling ++
    (if predicate.arity > 0 then " @" ++ toString predicate.slot else "") ++ "\n"

/-- The label of the predicates after the first. -/
def connectiveLabel : Option Connective → String
  | none => "query:"
  | some .and => "  and:"
  | some .or => "   or:"

def queryText (query : Query) : String :=
  match query.predicates with
  | [] => "  query: all\n"
  | first :: rest =>
      predicateText "query:" first ++
        spell (rest.map (predicateText (connectiveLabel query.connective)))

def directionName : Direction → String
  | .ascending => "asc"
  | .descending => "desc"

def sortText (key : SortKey) : String :=
  "  sort: " ++ key.field.name ++ " " ++ directionName key.direction ++ "\n"

def limitText : Option Nat → String
  | none => ""
  | some limit => "  limit: " ++ toString limit ++ "\n"

def operationText : Operation → String
  | .insert _ => ""
  | .find _ query sorts limit =>
      queryText query ++ spell (sorts.map sortText) ++ limitText limit
  | .update change _ query => changeText change ++ queryText query
  | .delete _ query | .count query => queryText query

/-- A plan in a few lines. -/
def describePlan (plan : Plan) : String :=
  plan.signature.name ++ ": " ++ plan.operation.kind.name ++ modeText plan.operation.mode? ++
    "\n" ++ operationText plan.operation

end NamedQuery.Command
