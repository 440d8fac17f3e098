import NamedQuery.Code.Block
import NamedQuery.Text.Basic

/-!
# Expressions

The expressions of generated code and their layout.  A mapping or a struct
literal stands on one line when each of its values does and when it has a single
entry or holds no other literal; a slice literal has an element on each line.
-/

namespace NamedQuery.Code

open Text

inductive Expr where
  | ident (name : String)
  /-- A piece of code that is written as it is. -/
  | raw (text : String)
  | call (function : String) (args : List Expr)
  /-- Parts with dots between them. -/
  | chain (parts : List Expr)
  | slice (type : String) (elements : List Expr)
  | mapping (type : String) (entries : List (Expr × Expr))
  /-- A struct literal.  Its type may be empty where it is known. -/
  | struct (type : String) (fields : List (String × Expr))
  deriving Repr, Inhabited

namespace Expr

/-- A string literal. -/
def string (text : String) : Expr := .raw (literal text)

/-- Whether the expression is a literal with braces. -/
def isComposite : Expr → Bool
  | .slice .. | .mapping .. | .struct .. => true
  | _ => false

/-! ## Layout of literals -/

/-- An entry of a literal, laid out. -/
structure Entry where
  key : Block
  value : Block
  isComposite : Bool
  deriving Repr

def Entry.block (entry : Entry) : Block := glue ": " entry.key entry.value

/-- Whether the entries may stand on one line. -/
def fitOneLine (entries : List Entry) : Bool :=
  entries.all (fun entry => entry.value.length ≤ 1) &&
    (entries.length = 1 || entries.all fun entry => !entry.isComposite)

/-- The entries one below the other, a level deeper and each with a comma. -/
def stacked (entries : List Block) : Block :=
  entries.flatMap fun entry => nest 1 (glue "" entry (single ","))

/-- A literal of laid out entries. -/
def braced (type : String) (entries : List Block) (onOneLine : Bool) : Block :=
  if entries.isEmpty then
    single (type ++ "{}")
  else if onOneLine && entries.all fun entry => entry.length = 1 then
    glue "" (glue "" (single (type ++ openBrace)) (glueAll ", " entries)) (single closeBrace)
  else
    single (type ++ openBrace) ++ stacked entries ++ single closeBrace

def bracedEntries (type : String) (entries : List Entry) : Block :=
  braced type (entries.map Entry.block) (fitOneLine entries)

/-! ## Layout of expressions -/

mutual

def lines : Expr → Block
  | .ident name => single name
  | .raw text => single text
  | .call function args =>
      glue "" (glue "" (single (function ++ "(")) (glueAll ", " (linesOfAll args))) (single ")")
  | .chain parts => glueAll "." (linesOfAll parts)
  | .slice type elements => braced type (linesOfAll elements) false
  | .mapping type entries => bracedEntries type (layoutOfEntries entries)
  | .struct type fields => bracedEntries type (layoutOfFields fields)

def linesOfAll : List Expr → List Block
  | [] => []
  | expr :: rest => expr.lines :: linesOfAll rest

def layoutOfEntries : List (Expr × Expr) → List Entry
  | [] => []
  | (key, value) :: rest =>
      ⟨key.lines, value.lines, value.isComposite⟩ :: layoutOfEntries rest

def layoutOfFields : List (String × Expr) → List Entry
  | [] => []
  | (name, value) :: rest =>
      ⟨single name, value.lines, value.isComposite⟩ :: layoutOfFields rest

end

end Expr

end NamedQuery.Code
