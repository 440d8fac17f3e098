/-!
# Command line arguments

A command is named first and followed by options, a flag or a word.  An option
takes its value after an equals sign or as the next argument.  Faults are found
in the order of the arguments; an option is settled when the next one comes or
at the end, and only then its value is looked at and a repetition noticed.
-/

namespace NamedQuery

/-- Where a schema is read from, and what of it is asked for. -/
structure Source where
  model : String
  struct : String
  interface : String
  deriving Repr, DecidableEq

inductive Command where
  | generate (source : Source) (destination package : Option String)
  | tokens (identifier : String) (explain : Bool)
  | parse (source : Source)
  deriving Repr, DecidableEq

namespace Command

/-- Why arguments name no command to run. -/
inductive Usage where
  | help
  | version
  /-- Nothing was asked for. -/
  | nothing
  | unknownCommand
  | unknownArgument
  | missingArgument
  | invalidValue
  | unexpectedValue
  | repeated
  deriving Repr, DecidableEq

/-- Help and the version are asked for; all else is a fault. -/
def Usage.exitCode : Usage → Nat
  | .help | .version => 0
  | _ => 2

/-! ## Options of a command -/

/-- What an option accepts. -/
inductive Accepts where
  | text
  /-- A text that is not empty. -/
  | path
  | flag
  deriving Repr, DecidableEq

structure Opt where
  name : String
  accepts : Accepts
  required : Bool
  deriving Repr, DecidableEq

/-- The options of a command, and whether it takes a word, which it then
needs. -/
structure Form where
  options : List Opt
  takesWord : Bool
  deriving Repr, DecidableEq

def Form.option? (form : Form) (name : String) : Option Opt :=
  form.options.find? fun option => option.name = name

/-- What the arguments have given so far.  `pending` is an option that is not
settled, with its value if that has come. -/
structure Progress where
  settled : List (String × String)
  word : Option String
  pending : Option (Opt × Option String)
  deriving Repr, DecidableEq

namespace Progress

def start : Progress := ⟨[], none, none⟩

def value? (progress : Progress) (name : String) : Option String :=
  (progress.settled.find? fun entry => entry.1 = name).map Prod.snd

/-- Settles an option with a value. -/
def settleOption (progress : Progress) (option : Opt) (value : String) :
    Except Usage Progress :=
  if (progress.value? option.name).isSome then
    .error .repeated
  else if option.accepts = .path ∧ value = "" then
    .error .invalidValue
  else
    .ok { progress with settled := progress.settled ++ [(option.name, value)] }

/-- Settles the option that is pending. -/
def settle (progress : Progress) : Except Usage Progress :=
  match progress.pending with
  | none => .ok progress
  | some (_, none) => .error .invalidValue
  | some (option, some value) => { progress with pending := none }.settleOption option value

end Progress

/-! ## Shapes of arguments -/

/-- What an argument looks like. -/
inductive Shape where
  /-- The argument `--`, after which all are words. -/
  | escape
  /-- An argument `--name` or `--name=value`. -/
  | long (name : String) (value : Option String)
  /-- An argument of single letters, by its first. -/
  | short (letter : Char)
  | word
  deriving Repr, DecidableEq

/-- Splits a text at its first equals sign. -/
def splitValue (text : List Char) : String × Option String :=
  match text.span fun c => c ≠ '=' with
  | (name, []) => (String.ofList name, none)
  | (name, _ :: value) => (String.ofList name, some (String.ofList value))

def shapeOf (argument : String) : Shape :=
  match argument.toList with
  | ['-', '-'] => .escape
  | '-' :: '-' :: text =>
      let (name, value) := splitValue text
      .long name value
  | '-' :: letter :: _ => .short letter
  | _ => .word

/-! ## Reading the arguments of a command -/

/-- Takes a word: the value of the option that waits for one, or the word of the
command. -/
def takeWord (form : Form) (progress : Progress) (afterEscape : Bool) (word : String) :
    Except Usage Progress :=
  match afterEscape, progress.pending with
  | false, some (option, none) => .ok { progress with pending := some (option, some word) }
  | _, _ =>
      if form.takesWord && progress.word.isNone then
        (progress.settle).map fun progress => { progress with word := some word }
      else
        .error .unknownArgument

/-- Takes an option or a flag. -/
def takeOption (form : Form) (progress : Progress) (name : String) (value : Option String) :
    Except Usage Progress :=
  if name = "help" then
    match value with
    | some _ => .error .unexpectedValue
    | none => progress.settle.bind fun _ => .error .help
  else
    match form.option? name with
    | none => .error .unknownArgument
    | some option =>
        match option.accepts, value with
        | .flag, some _ => .error .unexpectedValue
        | .flag, none => progress.settle.bind fun progress => progress.settleOption option ""
        | _, some value => progress.settle.bind fun progress => progress.settleOption option value
        | _, none =>
            progress.settle.map fun progress => { progress with pending := some (option, none) }

def takeShort (progress : Progress) (letter : Char) : Except Usage Progress :=
  if letter = 'h' then progress.settle.bind fun _ => .error .help else .error .unknownArgument

def takeAll (form : Form) : Bool → Progress → List String → Except Usage Progress
  | _, progress, [] => progress.settle
  | true, progress, argument :: rest =>
      match takeWord form progress true argument with
      | .ok progress => takeAll form true progress rest
      | .error fault => .error fault
  | false, progress, argument :: rest =>
      match shapeOf argument with
      | .escape => takeAll form true progress rest
      | .long name value =>
          match takeOption form progress name value with
          | .ok progress => takeAll form false progress rest
          | .error fault => .error fault
      | .short letter =>
          match takeShort progress letter with
          | .ok progress => takeAll form false progress rest
          | .error fault => .error fault
      | .word =>
          match takeWord form progress false argument with
          | .ok progress => takeAll form false progress rest
          | .error fault => .error fault

/-- Whether all that the command needs was given. -/
def isComplete (form : Form) (progress : Progress) : Bool :=
  (!form.takesWord || progress.word.isSome) &&
    form.options.all fun option => !option.required || (progress.value? option.name).isSome

def readForm (form : Form) (arguments : List String) : Except Usage Progress :=
  match takeAll form false .start arguments with
  | .error fault => .error fault
  | .ok progress => if isComplete form progress then .ok progress else .error .missingArgument

/-! ## Commands -/

def sourceOptions : List Opt :=
  [⟨"model", .path, true⟩, ⟨"struct", .text, true⟩, ⟨"interface", .text, true⟩]

def Progress.source (progress : Progress) : Source :=
  ⟨(progress.value? "model").getD "", (progress.value? "struct").getD "",
    (progress.value? "interface").getD ""⟩

/-- The commands by their names. -/
inductive Name where
  | generate
  | tokens
  | parse
  | help
  deriving Repr, DecidableEq

def Name.ofWord? : String → Option Name
  | "generate" => some .generate
  | "tokens" => some .tokens
  | "parse" => some .parse
  | "help" => some .help
  | _ => none

def readGenerate (arguments : List String) : Except Usage Command :=
  (readForm ⟨sourceOptions ++ [⟨"dest", .path, false⟩, ⟨"package", .text, false⟩], false⟩
    arguments).map fun progress =>
      .generate progress.source (progress.value? "dest") (progress.value? "package")

def readTokens (arguments : List String) : Except Usage Command :=
  (readForm ⟨[⟨"explain", .flag, false⟩], true⟩ arguments).map fun progress =>
    .tokens (progress.word.getD "") (progress.value? "explain").isSome

def readParse (arguments : List String) : Except Usage Command :=
  (readForm ⟨sourceOptions, false⟩ arguments).map fun progress => .parse progress.source

/-- Help on a command, which has no commands of its own. -/
def readHelp : List String → Usage
  | [] => .help
  | [word] => if (Name.ofWord? word).isSome then .help else .unknownCommand
  | _ => .unknownCommand

/-- Arguments after `--`, where a command can no longer be named. -/
def readEscaped : List String → Usage
  | [] => .nothing
  | word :: _ => if (Name.ofWord? word).isSome then .unknownArgument else .unknownCommand

/-- An option before the command. -/
def readGlobal (name : String) (value : Option String) : Usage :=
  match name, value with
  | "help", none => .help
  | "version", none => .version
  | "help", some _ | "version", some _ => .unexpectedValue
  | _, _ => .unknownArgument

/-- The command that arguments ask for. -/
def ofArguments : List String → Except Usage Command
  | [] => .error .nothing
  | first :: rest =>
      match Name.ofWord? first with
      | some .generate => readGenerate rest
      | some .tokens => readTokens rest
      | some .parse => readParse rest
      | some .help => .error (readHelp rest)
      | none =>
          .error (match shapeOf first with
            | .escape => readEscaped rest
            | .long name value => readGlobal name value
            | .short 'h' => .help
            | .short 'V' => .version
            | .short _ => .unknownArgument
            | .word => .unknownCommand)

end Command

end NamedQuery
