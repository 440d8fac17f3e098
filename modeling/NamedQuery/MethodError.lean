import NamedQuery.Diagnostic
import NamedQuery.Operation

/-!
# Faults of methods

Why a method stands for no operation.  Some faults are of the name alone: it
does not follow the naming grammar.  The others are between the name, the
signature and the schema.
-/

namespace NamedQuery

open Text

/-- What is wrong with the parameters of a method. -/
inductive ParamFault where
  | wrongType (position : Nat) (expected found : GoType)
  | wrongCount (expected found : Nat)
  deriving Repr, DecidableEq

def ParamFault.message : ParamFault → String
  | .wrongType position expected found =>
      "parameter " ++ toString position ++ " should be " ++ expected.text ++ ", found " ++
        found.text
  | .wrongCount expected found =>
      "method name requires " ++ toString expected ++ " parameters, found " ++ toString found

inductive MethodError where
  | unknownOperation (word : String)
  | queryRequired
  | invalidQuery (clause : String)
  | invalidSort (clause : String)
  | invalidLimit (word : String)
  | invalidUpdateFields (clause : String)
  | unsupportedReturn (kind : OperationKind) (results : List GoType)
  | contextRequired
  | invalidParam (fault : ParamFault)
  | fieldNotFound (name : String)
  | incompatibleComparator (comparator : Comparator) (field : String) (type : GoType)
  | incompatibleUpdateOperator (operator : UpdateOperator) (field : String) (type : GoType)
  deriving Repr, DecidableEq

namespace MethodError

/-- Whether the name alone is at fault. -/
def isGrammar : MethodError → Bool
  | .unknownOperation .. | .queryRequired | .invalidQuery .. | .invalidSort ..
  | .invalidLimit .. | .invalidUpdateFields .. => true
  | _ => false

def message : MethodError → String
  | .unknownOperation word => "unknown operation '" ++ word ++ "'"
  | .queryRequired => "query is required"
  | .invalidQuery clause => "invalid query '" ++ clause ++ "'"
  | .invalidSort clause => "invalid sort '" ++ clause ++ "'"
  | .invalidLimit word => "invalid limit '" ++ word ++ "'"
  | .invalidUpdateFields clause => "invalid update fields '" ++ clause ++ "'"
  | .unsupportedReturn kind results =>
      kind.name ++ " operation does not support return types (" ++
        joined ", " (GoType.texts results) ++ ")"
  | .contextRequired => "context parameter is required"
  | .invalidParam fault => "invalid parameter: " ++ fault.message
  | .fieldNotFound name => "struct field '" ++ name ++ "' not found"
  | .incompatibleComparator comparator field type =>
      "cannot use comparator " ++ comparator.spelling ++ " with field '" ++ field ++
        "' of type " ++ type.text
  | .incompatibleUpdateOperator operator field type =>
      "cannot use update operator " ++ operator.spelling ++ " with field '" ++ field ++
        "' of type " ++ type.text

def code : MethodError → String
  | .unknownOperation .. => "repogen::grammar::unknown_operation"
  | .queryRequired => "repogen::grammar::query_required"
  | .invalidQuery .. => "repogen::grammar::invalid_query"
  | .invalidSort .. => "repogen::grammar::invalid_sort"
  | .invalidLimit .. => "repogen::grammar::invalid_limit"
  | .invalidUpdateFields .. => "repogen::grammar::invalid_update_fields"
  | .unsupportedReturn .. => "repogen::semantic::unsupported_return"
  | .contextRequired => "repogen::semantic::context_param_required"
  | .invalidParam .. => "repogen::semantic::invalid_param"
  | .fieldNotFound .. => "repogen::semantic::struct_field_not_found"
  | .incompatibleComparator .. => "repogen::semantic::incompatible_comparator"
  | .incompatibleUpdateOperator .. => "repogen::semantic::incompatible_update_operator"

def help : MethodError → Option String
  | .unknownOperation .. =>
      some "Method names must start with Insert, Find, Update, Delete, or Count."
  | .queryRequired =>
      some "Add a query after 'By' (e.g. FindByEmail), or use 'All' to match every document."
  | .invalidQuery .. =>
      some ("Each 'And'/'Or' must join two predicates, and 'And' and 'Or' cannot be mixed in " ++
        "one query.")
  | .invalidSort .. =>
      some ("Sort keys follow 'OrderBy', are joined by 'And', and may end with 'Asc' or " ++
        "'Desc'.")
  | .invalidLimit .. => some "Use Top<N> with N a positive integer, e.g. FindTop5..."
  | .invalidUpdateFields .. =>
      some ("Name the fields to update joined by 'And', or pass the whole model as a single " ++
        "*Model parameter.")
  | .contextRequired =>
      some "The first parameter of every repository method must be context.Context."
  | .incompatibleComparator .. => some "True and False can only be applied to bool fields."
  | .incompatibleUpdateOperator .. =>
      some "Push requires a slice field; Inc requires a numeric field."
  | _ => none

def diagnostic (fault : MethodError) : Diagnostic :=
  ⟨fault.message, fault.code, fault.help, none⟩

end MethodError

end NamedQuery
