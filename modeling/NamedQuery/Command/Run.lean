import NamedQuery.Command.Arguments
import NamedQuery.Command.Describe
import NamedQuery.Command.FileTree
import NamedQuery.Generation
import NamedQuery.Schema.Reading

/-!
# Running commands

A command may read one file and write one.  What it does in between is a
function of the text it reads; `run` carries it out on a file tree.
-/

namespace NamedQuery.Command

open Code

def versionText : String := "repogen 0.1.0-alpha.4\n"

/-- What a command prints, the file it writes, and its exit code. -/
structure Result where
  exit : Nat
  stdout : String
  stderr : String
  file : Option (String × String)
  deriving Repr, DecidableEq

namespace Result

def printed (text : String) : Result := ⟨0, text, "", none⟩

def failed (message : String) : Result := ⟨1, "", message ++ "\n", none⟩

end Result

/-! ## Loading -/

def readFailure (path : String) (fault : FileError) : String :=
  "Error reading " ++ path ++ ": " ++ fault.message

/-- The schema in a file, or what is wrong with the file. -/
def loadSchema (path : String) (content : Except FileError ByteArray) : Except String Schema :=
  match content with
  | .error fault => .error (readFailure path fault)
  | .ok bytes =>
      match String.fromUTF8? bytes with
      | none => .error (readFailure path .notText)
      | some text =>
          (Schema.ofText text).mapError fun fault =>
            "Error loading model " ++ path ++ ": " ++ fault.message

/-! ## Commands -/

def printTokens (identifier : String) (explain : Bool) : Result :=
  .printed (spell ((words identifier).map fun word =>
    if explain then explainWord word else word ++ "\n"))

def generateFile (schema : Schema) (source : Source) (destination package : Option String) :
    Result :=
  let request : Request := ⟨source.struct, source.interface, package, Request.standardHeader⟩
  match schema.generate request with
  | .error fault => .failed fault.diagnostic.report
  | .ok file =>
      let text := file.render .standard
      match destination with
      | none => .printed text
      | some path => ⟨0, "", "", some (path, text)⟩

/-- Adds what is printed of a method, to one output or the other. -/
def addMethod (entity : Entity) (result : Result) (method : Signature) : Result :=
  match entity.plan method with
  | .ok plan => { result with stdout := result.stdout ++ describePlan plan }
  | .error fault =>
      { result with
        exit := 1
        stderr := result.stderr ++ method.name ++ ": " ++ fault.diagnostic.report ++ "\n" }

def describeMethods (schema : Schema) (source : Source) : Result :=
  match schema.entity source.struct, schema.interface source.interface with
  | .error fault, _ => .failed fault.diagnostic.report
  | .ok _, .error fault => .failed fault.diagnostic.report
  | .ok entity, .ok interface => interface.methods.foldl (addMethod entity) (.printed "")

/-- The file that a command reads. -/
def input? : Command → Option String
  | .generate source .. | .parse source => some source.model
  | .tokens .. => none

/-- What a command does with the file it reads. -/
def perform (command : Command) (content : Except FileError ByteArray) : Result :=
  match command with
  | .tokens identifier explain => printTokens identifier explain
  | .generate source destination package =>
      match loadSchema source.model content with
      | .error message => .failed message
      | .ok schema => generateFile schema source destination package
  | .parse source =>
      match loadSchema source.model content with
      | .error message => .failed message
      | .ok schema => describeMethods schema source

/-! ## On a file tree -/

/-- Makes the folder that a path is in, if the path names one. -/
def makeParent (tree : FileTree) (path : String) : FileTree × Except String Unit :=
  let parent := parentOf path
  if parent = "" then
    (tree, .ok ())
  else
    match tree.create parent with
    | (made, .ok _) => (made, .ok ())
    | (made, .error fault) =>
        (made, .error ("Error creating directory " ++ parent ++ ": " ++ fault.message))

/-- Writes a file, in a folder that is made if it is not there.  What was made of
the folder stays when the file cannot be written. -/
def writeFile (tree : FileTree) (path text : String) : FileTree × Except String Unit :=
  match makeParent tree path with
  | (made, .error message) => (made, .error message)
  | (made, .ok ()) =>
      match made.write path text.toUTF8 with
      | .ok after => (after, .ok ())
      | .error fault => (made, .error ("Error writing " ++ path ++ ": " ++ fault.message))

/-- Runs a command on a file tree. -/
def run (command : Command) (tree : FileTree) : Result × FileTree :=
  let content := match command.input? with
    | some path => tree.read path
    | none => .error .notFound
  let result := command.perform content
  match result.file with
  | none => (result, tree)
  | some (path, text) =>
      match writeFile tree path text with
      | (after, .ok ()) => (result, after)
      | (after, .error message) => (.failed message, after)

end NamedQuery.Command
