import NamedQuery.Code.Block

/-!
# Writing indented text

A writer keeps the text so far, the level of indentation, and whether a line
starts here.  Indentation is written with the first text of a line, so an empty
line has none.
-/

namespace NamedQuery.Code

structure Writer where
  indent : String
  level : Nat
  output : String
  atLineStart : Bool
  deriving Repr, DecidableEq

namespace Writer

def start (indent : String) : Writer := ⟨indent, 0, "", true⟩

def deeper (writer : Writer) : Writer := { writer with level := writer.level + 1 }

/-- One level up; the outermost level stays. -/
def shallower (writer : Writer) : Writer := { writer with level := writer.level - 1 }

/-- Writes the indentation of a line that starts here, with further levels. -/
def beginLine (writer : Writer) (extra : Nat) : Writer :=
  if writer.atLineStart then
    { writer with
      output := writer.output ++ repeated writer.indent (writer.level + extra)
      atLineStart := false }
  else
    writer

def append (writer : Writer) (text : String) : Writer :=
  { writer with output := writer.output ++ text }

/-- Writes a text after the indentation it needs.  The empty text needs none. -/
def writeAt (writer : Writer) (extra : Nat) (text : String) : Writer :=
  if text = "" then writer else (writer.beginLine extra).append text

def write (writer : Writer) (text : String) : Writer := writer.writeAt 0 text

def newline (writer : Writer) : Writer :=
  { writer with output := writer.output ++ "\n", atLineStart := true }

def writeLine (writer : Writer) (text : String) : Writer := (writer.write text).newline

def newlines (writer : Writer) : Nat → Writer
  | 0 => writer
  | count + 1 => writer.newline.newlines count

/-- Writes the lines of a block, each on a line of its own. -/
def writeBlock (writer : Writer) : Block → Writer
  | [] => writer
  | line :: rest => (writer.writeAt line.depth line.text).newline.writeBlock rest

end Writer

end NamedQuery.Code
