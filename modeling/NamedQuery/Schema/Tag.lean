import NamedQuery.Text.CharSet

/-!
# Struct tags

A struct tag holds pairs of a key and a quoted value, as in
`bson:"age,omitempty" json:"age"`.  Reading stops where the text is no longer of
that form, and keeps the pairs before.  A value is kept as it is written: a
backslash only protects the character after it.
-/

namespace NamedQuery.Tag

open Text

/-- How far the reading of a tag has come.  Characters that were read are kept
with the last one first. -/
inductive Progress where
  /-- Before a key, where blanks are skipped. -/
  | gap
  /-- Inside a key. -/
  | key (read : List Char)
  /-- After the colon, where the value has to open. -/
  | opening (key : List Char)
  /-- Inside a value. -/
  | value (key read : List Char)
  /-- Inside a value, after a backslash. -/
  | shielded (key read : List Char)

/-- The pairs that the rest of a tag adds. -/
def scan : Progress → List Char → List (String × String)
  | _, [] => []
  | .gap, c :: rest =>
      if isBlank c then scan .gap rest
      else if c = ':' then scan (.opening []) rest
      else scan (.key [c]) rest
  | .key read, c :: rest =>
      if c = ':' then scan (.opening read) rest else scan (.key (c :: read)) rest
  | .opening key, c :: rest => if c = '"' then scan (.value key []) rest else []
  | .value key read, c :: rest =>
      if c = '"' then
        (String.ofList key.reverse, String.ofList read.reverse) :: scan .gap rest
      else if c = '\\' then scan (.shielded key (c :: read)) rest
      else scan (.value key (c :: read)) rest
  | .shielded key read, c :: rest => scan (.value key (c :: read)) rest

/-- The pairs of a tag, in order. -/
def pairs (tag : String) : List (String × String) := scan .gap tag.toList

/-- The value of the first pair with a key. -/
def value? (tag key : String) : Option String :=
  ((pairs tag).find? fun pair => pair.1 = key).map Prod.snd

end NamedQuery.Tag
