import NamedQuery.Code.Expr

/-!
# Statements
-/

namespace NamedQuery.Code

open Text

inductive Stmt where
  /-- The statement `var name type`. -/
  | declare (name type : String)
  /-- The statement `a, b := value`. -/
  | define (names : List String) (value : Expr)
  /-- The statement `a, b = value`. -/
  | assign (names : List String) (value : Expr)
  | giveBack (values : List Expr)
  /-- A body that runs under a condition, perhaps after a statement before it. -/
  | when (init : Option Stmt) (condition : Expr) (body : List Stmt)
  /-- A body that runs for each item of a range. -/
  | forEach (key value : String) (range : Expr) (body : List Stmt)
  deriving Repr, Inhabited

/-- A header with the opening brace, the body a level deeper, and the closing
brace. -/
def withBody (header : Block) (body : List Block) : Block :=
  glue " " header (single openBrace) ++ body.flatMap (nest 1) ++ single closeBrace

namespace Stmt

mutual

def lines : Stmt → Block
  | .declare name type => single ("var " ++ name ++ " " ++ type)
  | .define names value => glue " := " (single (joined ", " names)) value.lines
  | .assign names value => glue " = " (single (joined ", " names)) value.lines
  | .giveBack values => glue " " (single "return") (glueAll ", " (Expr.linesOfAll values))
  | .when none condition body =>
      withBody (glue " " (single "if") condition.lines) (linesOfAll body)
  | .when (some init) condition body =>
      withBody (glue "; " (glue " " (single "if") init.lines) condition.lines) (linesOfAll body)
  | .forEach key value range body =>
      withBody (glue " " (single ("for " ++ key ++ ", " ++ value ++ " := range")) range.lines)
        (linesOfAll body)

def linesOfAll : List Stmt → List Block
  | [] => []
  | stmt :: rest => stmt.lines :: linesOfAll rest

end

end Stmt

end NamedQuery.Code
