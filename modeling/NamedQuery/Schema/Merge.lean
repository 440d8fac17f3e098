import NamedQuery.Diagnostic
import NamedQuery.Schema.Basic

/-!
# Merging the files of a package

Files are added one at a time.  They have to agree on the package, and no struct
or interface may be declared twice.  Of named types the first declaration counts,
and an import is kept once.  A file that is refused leaves what was merged before
its fault.
-/

namespace NamedQuery

/-- Why a package has no schema, or a schema not what is asked of it. -/
inductive SchemaError where
  | ambiguousPackage (first second : String)
  | duplicateStruct (name : String)
  | duplicateInterface (name : String)
  | structNotFound (name : String)
  | interfaceNotFound (name : String)
  deriving Repr, DecidableEq

namespace SchemaError

def message : SchemaError → String
  | .ambiguousPackage first second =>
      "ambiguous package name: source files declare both '" ++ first ++ "' and '" ++ second ++ "'"
  | .duplicateStruct name => "struct '" ++ name ++ "' is declared more than once"
  | .duplicateInterface name => "interface '" ++ name ++ "' is declared more than once"
  | .structNotFound name => "struct '" ++ name ++ "' not found"
  | .interfaceNotFound name => "interface '" ++ name ++ "' not found"

def code : SchemaError → String
  | .ambiguousPackage .. => "repogen::model::ambiguous_package_name"
  | .duplicateStruct .. => "repogen::model::duplicate_struct"
  | .duplicateInterface .. => "repogen::model::duplicate_interface"
  | .structNotFound .. => "repogen::model::struct_not_found"
  | .interfaceNotFound .. => "repogen::model::interface_not_found"

def help : SchemaError → Option String
  | .ambiguousPackage .. => some "All files passed in one run must belong to the same package."
  | _ => none

def diagnostic (fault : SchemaError) : Diagnostic :=
  ⟨fault.message, fault.code, fault.help, none⟩

end SchemaError

/-- Appends items up to the first whose name is taken, which is given back. -/
def appendDistinct {α : Type} (name : α → String) (known : List α) :
    List α → List α × Option String
  | [] => (known, none)
  | item :: rest =>
      if known.any fun other => name other = name item then
        (known, some (name item))
      else
        appendDistinct name (known ++ [item]) rest

/-- Appends the items whose key is not there yet. -/
def appendMissing {α κ : Type} [DecidableEq κ] (key : α → κ) (known : List α) :
    List α → List α
  | [] => known
  | item :: rest =>
      if known.any fun other => key other = key item then
        appendMissing key known rest
      else
        appendMissing key (known ++ [item]) rest

/-- The files merged so far.  The first file fixes the package. -/
structure Merge where
  package : Option String
  imports : List Import
  structs : List Struct
  interfaces : List Interface
  namedTypes : List NamedType
  deriving Repr, DecidableEq

namespace Merge

def start : Merge := ⟨none, [], [], [], []⟩

def schema (merge : Merge) : Schema :=
  ⟨merge.package.getD "", merge.imports, merge.structs, merge.interfaces, merge.namedTypes⟩

/-- Adds the declarations of a file of the same package. -/
def addDeclarations (merge : Merge) (file : SourceFile) : Merge × Option SchemaError :=
  match appendDistinct Struct.name merge.structs file.structs with
  | (structs, some name) => ({ merge with structs }, some (.duplicateStruct name))
  | (structs, none) =>
      match appendDistinct Interface.name merge.interfaces file.interfaces with
      | (interfaces, some name) =>
          ({ merge with structs, interfaces }, some (.duplicateInterface name))
      | (interfaces, none) =>
          ({ merge with
              structs, interfaces
              namedTypes := appendMissing NamedType.name merge.namedTypes file.namedTypes
              imports := appendMissing id merge.imports file.imports },
            none)

/-- Adds a file, and says what is wrong with it. -/
def add (merge : Merge) (file : SourceFile) : Merge × Option SchemaError :=
  match merge.package with
  | none => { merge with package := some file.package }.addDeclarations file
  | some first =>
      if first = file.package then
        merge.addDeclarations file
      else
        (merge, some (.ambiguousPackage first file.package))

/-- Adds files up to the first that is refused. -/
def addAll (merge : Merge) : List SourceFile → Except SchemaError Merge
  | [] => .ok merge
  | file :: rest =>
      match merge.add file with
      | (next, none) => next.addAll rest
      | (_, some fault) => .error fault

end Merge

/-- The schema of the package that the files make up. -/
def Schema.ofFiles (files : List SourceFile) : Except SchemaError Schema :=
  (Merge.start.addAll files).map Merge.schema

end NamedQuery
