import NamedQuery.Text.CharSet

/-!
# Words of an identifier

An identifier in mixed case is read as a list of words: `FindByUserID` has the
words `Find`, `By`, `User` and `ID`.  A new word starts at a capital that follows
a small letter or a digit, and at the last capital of a run of capitals when a
small letter comes after it, so `HTTPServer` has the words `HTTP` and `Server`.
-/

namespace NamedQuery

open Text

/-- Whether a word starts at `c`, which stands between `before` and `after`. -/
def startsWord (before c : Char) (after : Option Char) : Bool :=
  isUpper c &&
    (isLower before || isDigit before || (isUpper before && after.any isLower))

/-- The words of a text, by their characters. -/
def pieces : List Char → List (List Char)
  | [] => []
  | [c] => [[c]]
  | c :: d :: rest =>
      if startsWord c d rest.head? then
        [c] :: pieces (d :: rest)
      else
        match pieces (d :: rest) with
        | [] => [[c]]
        | word :: words => (c :: word) :: words

/-- The words of an identifier, in order. -/
def words (identifier : String) : List String :=
  (pieces identifier.toList).map String.ofList

/-- The text that a run of words spells. -/
def spell : List String → String
  | [] => ""
  | word :: rest => word ++ spell rest

/-- The runs between the words equal to `separator`: one more than there are
separators, and possibly empty. -/
def runs (separator : String) : List String → List (List String)
  | [] => [[]]
  | word :: rest =>
      if word = separator then
        [] :: runs separator rest
      else
        match runs separator rest with
        | [] => [[word]]
        | run :: others => (word :: run) :: others

end NamedQuery
