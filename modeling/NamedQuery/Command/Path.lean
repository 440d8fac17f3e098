/-!
# Paths

A path is a text of names with slashes between them.  It starts at the top of
the file tree when it starts with a slash, and in the working folder otherwise.
-/

namespace NamedQuery.Command

/-- Why a file is not read or written. -/
inductive FileError where
  | notFound
  | denied
  | alreadyExists
  | notFolder
  | isFolder
  | nameTooLong
  | nullCharacter
  | notText
  deriving Repr, DecidableEq

def FileError.message : FileError → String
  | .notFound => "No such file or directory (os error 2)"
  | .denied => "Permission denied (os error 13)"
  | .alreadyExists => "File exists (os error 17)"
  | .notFolder => "Not a directory (os error 20)"
  | .isFolder => "Is a directory (os error 21)"
  | .nameTooLong => "File name too long (os error 36)"
  | .nullCharacter => "file name contained an unexpected NUL byte"
  | .notText => "stream did not contain valid UTF-8"

/-! ## Limits -/

/-- The size of the longest name, in bytes. -/
def maxNameSize : Nat := 255

/-- The size of the longest path, in bytes. -/
def maxPathSize : Nat := 4095

/-- What is wrong with a path, wherever it leads. -/
def pathFault? (path : String) : Option FileError :=
  if path.toList.any fun c => c = '\x00' then some .nullCharacter
  else if path.utf8ByteSize > maxPathSize then some .nameTooLong
  else none

/-! ## Parts -/

/-- The texts between slashes. -/
def splitPath : List Char → List (List Char)
  | [] => [[]]
  | c :: rest =>
      match splitPath rest with
      | [] => [[c]]
      | name :: names => if c = '/' then [] :: name :: names else (c :: name) :: names

/-- The names on a path, with its dots. -/
def stepsOf (path : String) : List String :=
  ((splitPath path.toList).map String.ofList).filter fun name => name ≠ ""

/-- Whether a path starts at the top of the file tree. -/
def isAbsolute (path : String) : Bool := path.toList.head? = some '/'

/-- Whether a path ends in a slash, and so is to be a folder. -/
def endsInSlash (path : String) : Bool := path.toList.getLast? = some '/'

/-- A reversed path without the slashes and dots that it ends in. -/
def trimEnd : List Char → List Char
  | '/' :: rest => trimEnd rest
  | '.' :: '/' :: rest => trimEnd rest
  | path => path

/-- The path of the folder that a path is in; empty when the path is a name. -/
def parentOf (path : String) : String :=
  let reversed := trimEnd path.toList.reverse
  String.ofList (trimEnd (reversed.dropWhile fun c => c ≠ '/')).reverse

end NamedQuery.Command
