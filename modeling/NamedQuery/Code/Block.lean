/-!
# Blocks of lines

A block is a list of lines, each with its indentation relative to the place
where the block starts.  Blocks are glued together: the last line of one goes on
with the first line of the next.
-/

namespace NamedQuery.Code

structure Line where
  depth : Nat
  text : String
  deriving Repr, DecidableEq

abbrev Block := List Line

def single (text : String) : Block := [⟨0, text⟩]

/-- Goes on after the last line of the first block with the separator and the
first line of the second.  A block without lines changes nothing. -/
def glue (separator : String) : Block → Block → Block
  | [], tail => tail
  | [last], [] => [last]
  | [last], first :: rest => ⟨last.depth, last.text ++ separator ++ first.text⟩ :: rest
  | line :: next :: rest, tail => line :: glue separator (next :: rest) tail

/-- The blocks glued from left to right. -/
def glueAll (separator : String) : List Block → Block
  | [] => []
  | block :: rest => rest.foldl (glue separator) block

/-- The block with every line that many levels deeper. -/
def nest (levels : Nat) (block : Block) : Block :=
  block.map fun line => { line with depth := line.depth + levels }

/-- A text so many times in a row. -/
def repeated (text : String) : Nat → String
  | 0 => ""
  | count + 1 => repeated text count ++ text

/-- The text of a block, with `indent` for each level. -/
def render (indent : String) : Block → String
  | [] => ""
  | line :: rest => repeated indent line.depth ++ line.text ++ "\n" ++ render indent rest

end NamedQuery.Code
