import NamedQuery.Code.Stmt
import NamedQuery.GoType

/-!
# Declarations
-/

namespace NamedQuery.Code

open Text

/-- A parameter, a receiver or a field: a name with its type. -/
structure Param where
  name : String
  type : GoType
  deriving Repr, DecidableEq

def Param.text (param : Param) : String := param.name ++ " " ++ param.type.text

inductive Decl where
  | function (name : String) (params : List Param) (results : List GoType) (body : List Stmt)
  | method (receiver : Param) (name : String) (params : List Param) (results : List GoType)
      (body : List Stmt)
  | struct (name : String) (fields : List Param)
  deriving Repr, Inhabited

namespace Decl

def name : Decl → String
  | .function name .. | .method _ name .. | .struct name _ => name

/-- Parameters and results as they follow the name of a function. -/
def signatureText (params : List Param) (results : List GoType) : String :=
  "(" ++ joined ", " (params.map Param.text) ++ ")" ++
    GoType.resultText (GoType.texts results)

def lines : Decl → Block
  | .function name params results body =>
      withBody (single ("func " ++ name ++ signatureText params results)) (Stmt.linesOfAll body)
  | .method receiver name params results body =>
      withBody
        (single ("func (" ++ receiver.text ++ ") " ++ name ++ signatureText params results))
        (Stmt.linesOfAll body)
  | .struct name fields =>
      single ("type " ++ name ++ " struct " ++ openBrace) ++
        fields.flatMap (fun field => nest 1 (single field.text)) ++ single closeBrace

end Decl

end NamedQuery.Code
