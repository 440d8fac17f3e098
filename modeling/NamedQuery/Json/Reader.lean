import NamedQuery.Json.Basic
import NamedQuery.Json.Number

/-!
# Reading JSON text

A strict reader: blanks are the four that the format names, a string holds no
raw control character and no half of a surrogate pair, and at most 127 arrays
and objects are open at once.
-/

namespace NamedQuery.JsonText

/-- A reader takes a value from the start of a text and leaves the rest. -/
abbrev Reader (α : Type) := List Char → Option (α × List Char)

def isSpace (c : Char) : Bool := c = ' ' || c = '\t' || c = '\n' || c = '\r'

def skipSpace (text : List Char) : List Char := text.dropWhile isSpace

/-! ## Strings -/

def hexValue? (c : Char) : Option Nat :=
  if '0' ≤ c ∧ c ≤ '9' then some (c.toNat - '0'.toNat)
  else if 'a' ≤ c ∧ c ≤ 'f' then some (c.toNat - 'a'.toNat + 10)
  else if 'A' ≤ c ∧ c ≤ 'F' then some (c.toNat - 'A'.toNat + 10)
  else none

/-- The number that four hexadecimal digits stand for. -/
def unit? (a b c d : Char) : Option Nat :=
  match hexValue? a, hexValue? b, hexValue? c, hexValue? d with
  | some a, some b, some c, some d => some (((a * 16 + b) * 16 + c) * 16 + d)
  | _, _, _, _ => none

def isHighSurrogate (unit : Nat) : Bool := 0xd800 ≤ unit && unit ≤ 0xdbff

def isLowSurrogate (unit : Nat) : Bool := 0xdc00 ≤ unit && unit ≤ 0xdfff

/-- The character that a pair of surrogates stands for. -/
def pairChar (high low : Nat) : Char :=
  Char.ofNat (0x10000 + (high - 0xd800) * 0x400 + (low - 0xdc00))

/-- The character that a letter stands for after a backslash. -/
def escape? : Char → Option Char
  | '"' => some '"'
  | '\\' => some '\\'
  | '/' => some '/'
  | 'b' => some '\x08'
  | 'f' => some '\x0c'
  | 'n' => some '\n'
  | 'r' => some '\r'
  | 't' => some '\t'
  | _ => none

def prepend (c : Char) (found : List Char × List Char) : List Char × List Char :=
  (c :: found.1, found.2)

/-- What a string holds, after its opening quote and up to its closing one. -/
def stringBody : Reader (List Char)
  | [] => none
  | '"' :: rest => some ([], rest)
  | '\\' :: 'u' :: a :: b :: c :: d :: rest =>
      match unit? a b c d with
      | none => none
      | some unit =>
          if isLowSurrogate unit then none
          else if isHighSurrogate unit then
            match rest with
            | '\\' :: 'u' :: e :: f :: g :: h :: rest =>
                match unit? e f g h with
                | none => none
                | some low =>
                    if isLowSurrogate low then
                      (stringBody rest).map (prepend (pairChar unit low))
                    else
                      none
            | _ => none
          else
            (stringBody rest).map (prepend (Char.ofNat unit))
  | '\\' :: letter :: rest =>
      match escape? letter with
      | none => none
      | some c => (stringBody rest).map (prepend c)
  | c :: rest =>
      if c.toNat < 0x20 then none else (stringBody rest).map (prepend c)

/-! ## Values -/

/-- One or more items with commas between them, up to a closing bracket.  The
number bounds the items. -/
def items {α : Type} (item : Reader α) (close : Char) : Nat → Reader (List α)
  | 0, _ => none
  | count + 1, text =>
      match item text with
      | none => none
      | some (first, text) =>
          match skipSpace text with
          | [] => none
          | c :: text =>
              if c = ',' then
                (items item close count text).map fun found => (first :: found.1, found.2)
              else if c = close then
                some ([first], text)
              else
                none

/-- Items after an opening bracket.  Each takes a character at least, so there
are no more of them than characters. -/
def enclosed {α : Type} (item : Reader α) (close : Char) (text : List Char) :
    Option (List α × List Char) :=
  match skipSpace text with
  | [] => none
  | c :: rest =>
      if c = close then some ([], rest) else items item close text.length (c :: rest)

/-- A name, a colon and a value. -/
def member (value : Reader JsonValue) (text : List Char) :
    Option ((String × JsonValue) × List Char) :=
  match skipSpace text with
  | '"' :: text =>
      match stringBody text with
      | none => none
      | some (name, text) =>
          match skipSpace text with
          | ':' :: text =>
              (value text).map fun found => ((String.ofList name, found.1), found.2)
          | _ => none
  | _ => none

/-- A value in which at most `depth` arrays and objects are open at once. -/
def value (depth : Nat) (text : List Char) : Option (JsonValue × List Char) :=
  match skipSpace text with
  | 'n' :: 'u' :: 'l' :: 'l' :: rest => some (.null, rest)
  | 't' :: 'r' :: 'u' :: 'e' :: rest => some (.bool true, rest)
  | 'f' :: 'a' :: 'l' :: 's' :: 'e' :: rest => some (.bool false, rest)
  | '"' :: rest =>
      (stringBody rest).map fun found => (.string (String.ofList found.1), found.2)
  | '[' :: rest =>
      match depth with
      | 0 => none
      | depth + 1 =>
          (enclosed (value depth) ']' rest).map fun found => (.array found.1, found.2)
  | '{' :: rest =>
      match depth with
      | 0 => none
      | depth + 1 =>
          (enclosed (member (value depth)) '}' rest).map fun found =>
            (.object found.1, found.2)
  | text => (JsonNumber.read text).map fun found => (.number found.1, found.2)

/-- How many arrays and objects a text may have open at once. -/
def maxDepth : Nat := 127

/-- The value that a text starts with, and the text after it. -/
def first? (text : String) : Option (JsonValue × List Char) := value maxDepth text.toList

/-- Whether nothing but space is left of a text. -/
def isDone (rest : List Char) : Bool := rest.all isSpace

end NamedQuery.JsonText
