import NamedQuery.Text.Basic

/-!
# Go types

The types that fields, parameters and results are declared with, and their text
in Go.  Two types are equal when they are written alike; no declaration is
consulted.
-/

namespace NamedQuery

open Text

inductive GoType where
  /-- A builtin type, or one that the package declares: `int`, `UserModel`. -/
  | named (name : String)
  /-- A type of another package: `context.Context`. -/
  | qualified (package name : String)
  /-- The type `*T`. -/
  | pointer (target : GoType)
  /-- The type `[]T`. -/
  | slice (element : GoType)
  /-- The type `map[K]V`. -/
  | map (key value : GoType)
  /-- The type that every value has. -/
  | emptyInterface
  /-- The type `func(P) R`. -/
  | func (params results : List GoType)
  deriving Repr, Inhabited

namespace GoType

/-- The first parameter of every repository method. -/
def context : GoType := .qualified "context" "Context"

def error : GoType := .named "error"

/-! ## Equality -/

mutual

def same : GoType → GoType → Bool
  | .named name, .named other => name = other
  | .qualified package name, .qualified otherPackage other =>
      package = otherPackage && name = other
  | .pointer target, .pointer other => target.same other
  | .slice element, .slice other => element.same other
  | .map key value, .map otherKey other => key.same otherKey && value.same other
  | .emptyInterface, .emptyInterface => true
  | .func params results, .func otherParams other =>
      sameAll params otherParams && sameAll results other
  | _, _ => false

def sameAll : List GoType → List GoType → Bool
  | [], [] => true
  | type :: rest, other :: others => type.same other && sameAll rest others
  | _, _ => false

end

mutual

theorem same_iff : ∀ left right : GoType, left.same right = true ↔ left = right
  | .named _, right => by cases right <;> simp [same]
  | .qualified _ _, right => by cases right <;> simp [same]
  | .pointer target, right => by cases right <;> simp [same, same_iff target]
  | .slice element, right => by cases right <;> simp [same, same_iff element]
  | .map key value, right => by cases right <;> simp [same, same_iff key, same_iff value]
  | .emptyInterface, right => by cases right <;> simp [same]
  | .func params results, right => by
      cases right <;> simp [same, sameAll_iff params, sameAll_iff results]

theorem sameAll_iff : ∀ left right : List GoType, sameAll left right = true ↔ left = right
  | [], right => by cases right <;> simp [sameAll]
  | type :: rest, right => by cases right <;> simp [sameAll, same_iff type, sameAll_iff rest]

end

instance : DecidableEq GoType := fun left right =>
  decidable_of_iff (left.same right = true) (same_iff left right)

/-! ## Text -/

/-- The text of the results of a function type. -/
def resultText : List String → String
  | [] => ""
  | [only] => " " ++ only
  | results => " (" ++ joined ", " results ++ ")"

mutual

/-- The type in Go. -/
def text : GoType → String
  | .named name => name
  | .qualified package name => package ++ "." ++ name
  | .pointer target => "*" ++ target.text
  | .slice element => "[]" ++ element.text
  | .map key value => "map[" ++ key.text ++ "]" ++ value.text
  | .emptyInterface => "interface{}"
  | .func params results =>
      "func(" ++ joined ", " (texts params) ++ ")" ++ resultText (texts results)

def texts : List GoType → List String
  | [] => []
  | type :: rest => type.text :: texts rest

end

/-! ## Parts -/

/-- The name of a type that is a plain name. -/
def plainName? : GoType → Option String
  | .named name => some name
  | _ => none

/-- The type behind any number of pointers. -/
def stripPointers : GoType → GoType
  | .pointer target => target.stripPointers
  | type => type

mutual

/-- The packages that the type mentions, in order and with repetitions. -/
def packages : GoType → List String
  | .named _ => []
  | .qualified package _ => [package]
  | .pointer target => target.packages
  | .slice element => element.packages
  | .map key value => key.packages ++ value.packages
  | .emptyInterface => []
  | .func params results => packagesOfAll params ++ packagesOfAll results

def packagesOfAll : List GoType → List String
  | [] => []
  | type :: rest => type.packages ++ packagesOfAll rest

end

/-- The builtin types of numbers. -/
def numericNames : List String :=
  ["int", "int8", "int16", "int32", "int64", "uint", "uint8", "uint16", "uint32", "uint64",
    "float32", "float64", "byte", "rune"]

end GoType

end NamedQuery
