import NamedQuery.GoType
import NamedQuery.Schema.Tag

/-!
# Declarations of a package

Structs with their fields, interfaces with their methods, named types and
imports, as they are taken from the files of one Go package.  `SourceFile` is
one file, `Schema` the package.
-/

namespace NamedQuery

structure Field where
  name : String
  type : GoType
  tag : Option String
  deriving Repr, DecidableEq

namespace Field

/-- The value of a key in the tag of the field. -/
def tagValue? (field : Field) (key : String) : Option String :=
  field.tag.bind fun tag => Tag.value? tag key

/-- The name of the field in a stored document: its `bson` value up to the first
comma.  The empty name and `-` are no names. -/
def bsonName? (field : Field) : Option String :=
  match field.tagValue? "bson" with
  | none => none
  | some value =>
      let name := String.ofList (value.toList.takeWhile fun c => c ≠ ',')
      if name = "" ∨ name = "-" then none else some name

end Field

structure Struct where
  name : String
  fields : List Field
  deriving Repr, DecidableEq

namespace Struct

/-- The first field of a name. -/
def field? (struct : Struct) (name : String) : Option Field :=
  struct.fields.find? fun field => field.name = name

/-- The type of a pointer to the struct, as models are passed. -/
def pointerType (struct : Struct) : GoType := .pointer (.named struct.name)

end Struct

/-- A method of an interface.  Its parameters have no names. -/
structure Signature where
  name : String
  params : List GoType
  results : List GoType
  deriving Repr, DecidableEq

structure Interface where
  name : String
  methods : List Signature
  deriving Repr, DecidableEq

/-- A declaration such as `type Gender string`. -/
structure NamedType where
  name : String
  underlying : GoType
  deriving Repr, DecidableEq

structure Import where
  localName : Option String
  path : String
  deriving Repr, DecidableEq

namespace Import

/-- An import under its own name. -/
def plain (path : String) : Import := ⟨none, path⟩

/-- What stands after the last slash of a path. -/
def lastSegment (path : List Char) : List Char :=
  (path.reverse.takeWhile fun c => c ≠ '/').reverse

/-- The name that the file refers to the imported package by. -/
def qualifier (entry : Import) : String :=
  match entry.localName with
  | some name => name
  | none => String.ofList (lastSegment entry.path.toList)

end Import

structure SourceFile where
  package : String
  imports : List Import
  structs : List Struct
  interfaces : List Interface
  namedTypes : List NamedType
  deriving Repr, DecidableEq

/-- The declarations of all files of a package. -/
structure Schema where
  package : String
  imports : List Import
  structs : List Struct
  interfaces : List Interface
  namedTypes : List NamedType
  deriving Repr, DecidableEq

namespace Schema

def empty : Schema := ⟨"", [], [], [], []⟩

def struct? (schema : Schema) (name : String) : Option Struct :=
  schema.structs.find? fun struct => struct.name = name

def interface? (schema : Schema) (name : String) : Option Interface :=
  schema.interfaces.find? fun interface => interface.name = name

def namedType? (schema : Schema) (name : String) : Option NamedType :=
  schema.namedTypes.find? fun declared => declared.name = name

/-- The struct that a type is, or points to. -/
def structOf? (schema : Schema) (type : GoType) : Option Struct :=
  type.stripPointers.plainName?.bind schema.struct?

/-! ## What a declared type stands for -/

/-- The type that a declared name stands for, without its pointers. -/
def declared? (schema : Schema) (type : GoType) : Option GoType :=
  (type.plainName?.bind schema.namedType?).map fun declared => declared.underlying.stripPointers

/-- Replaces a declared name by what it stands for, at most `count` times. -/
def unfoldNames (schema : Schema) : Nat → GoType → GoType
  | 0, type => type
  | count + 1, type =>
      match schema.declared? type with
      | none => type
      | some next => schema.unfoldNames count next

/-- The type behind pointers and declared names.  A chain of declarations that
does not repeat has at most as many steps as there are declarations, so one step
more is enough for every chain that ends. -/
def underlying (schema : Schema) (type : GoType) : GoType :=
  schema.unfoldNames (schema.namedTypes.length + 1) type.stripPointers

def isNumeric (schema : Schema) (type : GoType) : Bool :=
  (schema.underlying type).plainName?.any fun name => GoType.numericNames.contains name

def isBoolean (schema : Schema) (type : GoType) : Bool :=
  (schema.underlying type).plainName? = some "bool"

/-- The type of the elements, when the type is a slice. -/
def elementType? (schema : Schema) (type : GoType) : Option GoType :=
  match schema.underlying type with
  | .slice element => some element
  | _ => none

end Schema

end NamedQuery
