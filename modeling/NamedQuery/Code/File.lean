import NamedQuery.Code.Decl
import NamedQuery.Code.Writer
import NamedQuery.Schema.Basic

/-!
# Generated files

A file has a header, a package, imports in groups, and declarations.
-/

namespace NamedQuery.Code

/-- How a file is laid out: the text of one level of indentation, and the number
of empty lines before a declaration. -/
structure Layout where
  indent : String
  blankLines : Nat
  deriving Repr, DecidableEq

def Layout.standard : Layout := ⟨"\t", 1⟩

structure GoFile where
  header : String
  package : String
  imports : List (List Import)
  decls : List Decl
  deriving Repr, Inhabited

namespace GoFile

def importText (entry : Import) : String :=
  match entry.localName with
  | some name => name ++ " " ++ Text.literal entry.path
  | none => Text.literal entry.path

def writeHeader (header : String) (writer : Writer) : Writer :=
  if header = "" then writer else (writer.writeLine header).newline

def writeGroup (writer : Writer) (group : List Import) : Writer :=
  group.foldl (fun writer entry => writer.writeLine (importText entry)) writer

/-- Writes groups with an empty line between neighbours. -/
def writeGroups (writer : Writer) : List (List Import) → Writer
  | [] => writer
  | [group] => writeGroup writer group
  | group :: next :: rest => writeGroups (writeGroup writer group).newline (next :: rest)

/-- Writes the groups that have imports, if there are any. -/
def writeImports (writer : Writer) (groups : List (List Import)) : Writer :=
  let groups := groups.filter fun group => !group.isEmpty
  if groups.isEmpty then
    writer
  else
    (writeGroups (writer.newline.writeLine "import (").deeper groups).shallower.writeLine ")"

def writeDecls (blankLines : Nat) (writer : Writer) (decls : List Decl) : Writer :=
  decls.foldl (fun writer decl => (writer.newlines blankLines).writeBlock decl.lines) writer

/-- The text of a file. -/
def render (file : GoFile) (layout : Layout) : String :=
  let writer := writeHeader file.header (Writer.start layout.indent)
  let writer := writer.writeLine ("package " ++ file.package)
  let writer := writeImports writer file.imports
  (writeDecls layout.blankLines writer file.decls).output

end GoFile

end NamedQuery.Code
