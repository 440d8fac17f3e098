import NamedQuery.Json.Reader
import NamedQuery.Schema.Merge

/-!
# Reading declarations from JSON

A record is an object with its members by name, or an array of them in a fixed
order from which members at the end may be missing.  A type is tagged by its
kind: the member `kind` of an object, or the first item of an array.  Inside
another type a kind is named or given by its number; for the types of
declarations a reader may ask for names.  A text holds one file of a package or
a list of files, and a file is tried first.
-/

namespace NamedQuery

namespace JsonValue

def text? : JsonValue → Option String
  | .string value => some value
  | _ => none

/-- A text that may be missing or null. -/
def optionalText? : Option JsonValue → Option (Option String)
  | none | some .null => some none
  | some (.string value) => some (some value)
  | some _ => none

/-- A list that is empty when missing. -/
def list? {α : Type} (read : JsonValue → Option α) : Option JsonValue → Option (List α)
  | none => some []
  | some (.array items) => items.mapM read
  | some _ => none

/-- The value of a name among the members of an object; nothing to return if
the name is there twice. -/
def unique? (members : List (String × JsonValue)) (name : String) :
    Option (Option JsonValue) :=
  match members.filter fun entry => entry.1 = name with
  | [] => some none
  | [entry] => some (some entry.2)
  | _ => none

/-- Items in their places, with nothing for those that are missing; nothing to
return if there are too many. -/
def positional? : List String → List JsonValue → Option (List (Option JsonValue))
  | [], [] => some []
  | [], _ :: _ => none
  | _ :: names, [] => (positional? names []).map (none :: ·)
  | _ :: names, item :: items => (positional? names items).map (some item :: ·)

/-- The members of a record, in the order of `names`. -/
def record? (names : List String) : JsonValue → Option (List (Option JsonValue))
  | .object members => names.mapM (unique? members)
  | .array items => positional? names items
  | _ => none

end JsonValue

open JsonValue

/-! ## Types -/

inductive TypeKind where
  | simple
  | qualified
  | pointer
  | sequence
  | mapping
  | emptyInterface
  | func
  deriving Repr, DecidableEq

namespace TypeKind

/-- The kinds in the order of their numbers. -/
def all : List TypeKind :=
  [.simple, .qualified, .pointer, .sequence, .mapping, .emptyInterface, .func]

def name : TypeKind → String
  | .simple => "simple"
  | .qualified => "qualified"
  | .pointer => "pointer"
  | .sequence => "sequence"
  | .mapping => "mapping"
  | .emptyInterface => "empty_interface"
  | .func => "func"

/-- The members of a type beside its kind. -/
def members : TypeKind → List String
  | .simple => ["name"]
  | .qualified => ["package", "name"]
  | .pointer => ["inner"]
  | .sequence => ["inner"]
  | .mapping => ["key", "value"]
  | .emptyInterface => []
  | .func => ["params", "returns"]

/-- How the kind of a type may be given. -/
inductive Form where
  | name
  | nameOrNumber
  deriving Repr, DecidableEq

def ofJson? : Form → JsonValue → Option TypeKind
  | _, .string text => all.find? fun kind => kind.name = text
  | .nameOrNumber, .number (some index) => all[index]?
  | _, _ => none

/-- The kind of a type and the value that holds its members. -/
def split? (form : Form) : JsonValue → Option (TypeKind × JsonValue)
  | .object members =>
      match unique? members "kind" with
      | some (some tag) => (ofJson? form tag).map fun kind => (kind, .object members)
      | _ => none
  | .array (tag :: items) => (ofJson? form tag).map fun kind => (kind, .array items)
  | _ => none

end TypeKind

namespace GoType

/-- Reads a type whose JSON nests at most `depth` arrays and objects.  The form
is that of its own kind; the types inside it may use either. -/
def readWithin : TypeKind.Form → Nat → JsonValue → Option GoType
  | _, 0, _ => none
  | form, depth + 1, json =>
      let inside := readWithin .nameOrNumber depth
      match TypeKind.split? form json with
      | none => none
      | some (kind, json) =>
          match kind, record? kind.members json with
          | .simple, some [some name] => (text? name).map .named
          | .qualified, some [some package, some name] =>
              match text? package, text? name with
              | some package, some name => some (.qualified package name)
              | _, _ => none
          | .pointer, some [some inner] => (inside inner).map .pointer
          | .sequence, some [some inner] => (inside inner).map .slice
          | .mapping, some [some key, some value] =>
              match inside key, inside value with
              | some key, some value => some (.map key value)
              | _, _ => none
          | .emptyInterface, some [] => some .emptyInterface
          | .func, some [params, results] =>
              match list? inside params, list? inside results with
              | some params, some results => some (.func params results)
              | _, _ => none
          | _, _ => none

def ofJson? (form : TypeKind.Form) (json : JsonValue) : Option GoType :=
  readWithin form json.depth json

end GoType

/-! ## Declarations -/

def Import.ofJson? (json : JsonValue) : Option Import :=
  match record? ["alias", "path"] json with
  | some [localName, some path] => do
      return ⟨← optionalText? localName, ← text? path⟩
  | _ => none

def Field.ofJson? (form : TypeKind.Form) (json : JsonValue) : Option Field :=
  match record? ["name", "type", "tag"] json with
  | some [some name, some type, tag] => do
      return ⟨← text? name, ← GoType.ofJson? form type, ← optionalText? tag⟩
  | _ => none

def Struct.ofJson? (form : TypeKind.Form) (json : JsonValue) : Option Struct :=
  match record? ["name", "fields"] json with
  | some [some name, fields] => do
      return ⟨← text? name, ← list? (Field.ofJson? form) fields⟩
  | _ => none

def Signature.ofJson? (form : TypeKind.Form) (json : JsonValue) : Option Signature :=
  match record? ["name", "params", "returns"] json with
  | some [some name, params, results] => do
      return ⟨← text? name, ← list? (GoType.ofJson? form) params,
        ← list? (GoType.ofJson? form) results⟩
  | _ => none

def Interface.ofJson? (form : TypeKind.Form) (json : JsonValue) : Option Interface :=
  match record? ["name", "methods"] json with
  | some [some name, methods] => do
      return ⟨← text? name, ← list? (Signature.ofJson? form) methods⟩
  | _ => none

def NamedType.ofJson? (form : TypeKind.Form) (json : JsonValue) : Option NamedType :=
  match record? ["name", "underlying"] json with
  | some [some name, some underlying] => do
      return ⟨← text? name, ← GoType.ofJson? form underlying⟩
  | _ => none

def SourceFile.ofJson? (form : TypeKind.Form) (json : JsonValue) : Option SourceFile :=
  match record? ["package", "imports", "structs", "interfaces", "named_types"] json with
  | some [some package, imports, structs, interfaces, namedTypes] => do
      return ⟨← text? package, ← list? Import.ofJson? imports,
        ← list? (Struct.ofJson? form) structs, ← list? (Interface.ofJson? form) interfaces,
        ← list? (NamedType.ofJson? form) namedTypes⟩
  | _ => none

/-- A file by itself, or the files of a list. -/
def SourceFile.listOfJson? (json : JsonValue) : Option (List SourceFile) :=
  match SourceFile.ofJson? .nameOrNumber json with
  | some file => some [file]
  | none =>
      match json with
      | .array items => items.mapM (SourceFile.ofJson? .nameOrNumber)
      | _ => none

/-! ## Texts -/

/-- Why a text holds no schema. -/
inductive LoadError where
  /-- The text is not JSON. -/
  | malformed
  /-- The value is neither a file nor a list of files. -/
  | misshapen
  | conflict (fault : SchemaError)
  deriving Repr, DecidableEq

def LoadError.message : LoadError → String
  | .malformed => "invalid model JSON: <syntax>"
  | .misshapen =>
      "invalid model JSON: data did not match any variant of untagged enum ModelFile"
  | .conflict fault => fault.message

/-- The schema that a text describes.  The shape of a value is looked at before
the text after it. -/
def Schema.ofText (text : String) : Except LoadError Schema :=
  match JsonText.first? text with
  | none => .error .malformed
  | some (json, rest) =>
      match SourceFile.listOfJson? json with
      | none => .error .misshapen
      | some files =>
          if JsonText.isDone rest then (Schema.ofFiles files).mapError .conflict
          else .error .malformed

end NamedQuery
