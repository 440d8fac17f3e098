import NamedQuery.Schema.Basic

/-!
# Paths of fields

A run of words names a field of a struct, or a field of a struct that a field
holds, and so on: `ContactPhone` is the field `ContactPhone`, or the field
`Phone` of the struct of `Contact`.  Where a run can be read in several ways,
the first field takes as many words as it can, then the second, and so on.
-/

namespace NamedQuery

open Text

/-- The fields from a struct down to a leaf: at least one. -/
structure FieldPath where
  root : Field
  below : List Field
  deriving Repr, DecidableEq

namespace FieldPath

def fields (path : FieldPath) : List Field := path.root :: path.below

def ofFields? : List Field → Option FieldPath
  | [] => none
  | root :: below => some ⟨root, below⟩

/-- The field that the path leads to. -/
def leaf (path : FieldPath) : Field :=
  path.fields.getLast (List.cons_ne_nil path.root path.below)

/-- The type that is compared or updated. -/
def leafType (path : FieldPath) : GoType := path.leaf.type

/-- The names of the fields with dots between them. -/
def name (path : FieldPath) : String := joined "." (path.fields.map Field.name)

end FieldPath

namespace Schema

/-- The path from a struct whose first field starts with the name `start`, and
whose other words are given. -/
def pathAfter (schema : Schema) : Struct → String → List String → Option FieldPath
  | struct, start, [] => (struct.field? start).map fun field => ⟨field, []⟩
  | struct, start, word :: rest =>
      match schema.pathAfter struct (start ++ word) rest with
      | some path => some path
      | none =>
          match struct.field? start with
          | none => none
          | some field =>
              match schema.structOf? field.type with
              | none => none
              | some inner =>
                  (schema.pathAfter inner word rest).map fun path => ⟨field, path.fields⟩

/-- The path that a run of words names. -/
def path? (schema : Schema) (struct : Struct) : List String → Option FieldPath
  | [] => none
  | word :: rest => schema.pathAfter struct word rest

end Schema

end NamedQuery
