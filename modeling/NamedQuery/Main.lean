import NamedQuery.Command.Run

/-!
# The command line

Reads the arguments, runs the command on the files of the system, and prints.
-/

namespace NamedQuery.Command

def usageText : String :=
  "Generate MongoDB repository implementations from method names\n\n" ++
  "Usage: repogen <COMMAND>\n\n" ++
  "Commands:\n" ++
  "  generate --model <FILE> --struct <NAME> --interface <NAME> [--dest <FILE>] " ++
  "[--package <NAME>]\n" ++
  "  tokens   [--explain] <IDENT>\n" ++
  "  parse    --model <FILE> --struct <NAME> --interface <NAME>\n" ++
  "  help     [COMMAND]\n"

/-- The fault that the system reports. -/
def fileErrorOf : IO.Error → FileError
  | .alreadyExists .. => .alreadyExists
  | .permissionDenied .. => .denied
  | .inappropriateType _ code _ => if code = 20 then .notFolder else .isFolder
  | .invalidArgument .. => .nameTooLong
  | _ => .notFound

def readSystemFile (path : String) : IO (Except FileError ByteArray) := do
  if let some fault := pathFault? path then
    return .error fault
  try
    return .ok (← IO.FS.readBinFile path)
  catch fault =>
    return .error (fileErrorOf fault)

def writeSystemFile (path text : String) : IO (Option String) := do
  let parent := parentOf path
  if let some fault := pathFault? parent then
    return some ("Error creating directory " ++ parent ++ ": " ++ fault.message)
  try
    if parent ≠ "" then IO.FS.createDirAll parent
  catch fault =>
    return some ("Error creating directory " ++ parent ++ ": " ++ (fileErrorOf fault).message)
  if let some fault := pathFault? path then
    return some ("Error writing " ++ path ++ ": " ++ fault.message)
  try
    IO.FS.writeFile path text
    return none
  catch fault =>
    return some ("Error writing " ++ path ++ ": " ++ (fileErrorOf fault).message)

def report (result : Result) : IO UInt32 := do
  IO.print result.stdout
  IO.eprint result.stderr
  return result.exit.toUInt32

def runOnSystem (command : Command) : IO UInt32 := do
  let content ← match command.input? with
    | some path => readSystemFile path
    | none => pure (.error .notFound)
  let result := command.perform content
  match result.file with
  | none => report result
  | some (path, text) =>
      match ← writeSystemFile path text with
      | none => report result
      | some message => report (.failed message)

end NamedQuery.Command

open NamedQuery.Command in
def main (arguments : List String) : IO UInt32 := do
  match ofArguments arguments with
  | .ok command => runOnSystem command
  | .error .version => report (.printed versionText)
  | .error .help => report (.printed usageText)
  | .error usage => report ⟨usage.exitCode, "", usageText, none⟩
