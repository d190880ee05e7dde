import Colloquy.Document.Basic

/-!
# The command line

Loads a document and prints its exchanges, one of its files, or the checks that an output fails.
Reading files is left to the caller, so that the outcome is a function of what was read.
-/

namespace Colloquy.CommandLine

/-- What the command line asks for. -/
structure Options where
  /-- The path of the document. -/
  document : Option String := none
  /-- The stored file to print. -/
  file : Option String := none
  /-- The path of the output to check. -/
  check : Option String := none
  /-- Further packages for short type names. -/
  packages : List String := []
  /-- Leave the host library out. -/
  bare : Bool := false
deriving DecidableEq, Repr

/-- Why a command line is rejected. -/
inductive UsageFault where
  | unknownOption (name : String)
  | missingValue (name : String)
  | repeated (name : String)
  | missingDocument
deriving DecidableEq, Repr

/-- The wording of a usage fault. -/
def UsageFault.message : UsageFault → String
  | unknownOption name => "error: unexpected argument '" ++ name ++ "' found"
  | missingValue name => "error: a value is required for '" ++ name ++ "' but none was supplied"
  | repeated name => "error: the argument '" ++ name ++ "' cannot be used multiple times"
  | missingDocument => "error: the following required arguments were not provided: <DOCUMENT>"

/-- Why a file cannot be read. -/
inductive ReadFault where
  | missing
  | notText
  | other (reason : String)
deriving DecidableEq, Repr

/-- The wording of a read fault. -/
def ReadFault.reason : ReadFault → String
  | missing => "No such file or directory (os error 2)"
  | notText => "stream did not contain valid UTF-8"
  | other reason => reason

/-- The options that take a value. -/
inductive ValueOption where
  | file
  | check
  | package
deriving DecidableEq, Repr

namespace ValueOption

/-- The option that a long or a short name stands for. -/
def ofName? : String → Option ValueOption
  | "--file" | "-f" => some file
  | "--check" | "-c" => some check
  | "--package" | "-p" => some package
  | _ => none

/-- The long name. -/
def name : ValueOption → String
  | file => "--file"
  | check => "--check"
  | package => "--package"

end ValueOption

namespace Options

/-- The options with the value of one more. -/
def withValue (options : Options) (value : String) :
    ValueOption → Except UsageFault Options
  | .file =>
    if options.file.isSome then .error (.repeated "--file")
    else .ok { options with file := some value }
  | .check =>
    if options.check.isSome then .error (.repeated "--check")
    else .ok { options with check := some value }
  | .package => .ok { options with packages := options.packages ++ [value] }

/-- The options with the document. -/
def withDocument (options : Options) (path : String) : Except UsageFault Options :=
  if options.document.isSome then .error (.repeated path)
  else .ok { options with document := some path }

/-- A name and a value that are written as one argument: a long name with an equals sign, or a short
one with the value right behind it. -/
def splitArgument? (argument : String) : Option (ValueOption × String) :=
  match argument.toList with
  | '-' :: '-' :: _ => do
    let (name, value) ← Text.cutAt? ['='] argument.toList
    return (← ValueOption.ofName? (String.ofList name), String.ofList value)
  | '-' :: letter :: value =>
    (ValueOption.ofName? (String.ofList ['-', letter])).map fun option =>
      (option, String.ofList (if value.head? = some '=' then value.drop 1 else value))
  | _ => none

/-- The options that arguments add; everything behind two dashes is no option. -/
def read (options : Options) : List String → Except UsageFault Options
  | [] => .ok options
  | "--" :: rest => rest.foldlM withDocument options
  | "--no-builtins" :: rest =>
    if options.bare then .error (.repeated "--no-builtins")
    else read { options with bare := true } rest
  | argument :: rest =>
    match ValueOption.ofName? argument, rest with
    | some option, value :: rest => do read (← options.withValue value option) rest
    | some option, [] => .error (.missingValue option.name)
    | none, rest =>
      match splitArgument? argument with
      | some (option, value) => do read (← options.withValue value option) rest
      | none =>
        if argument.startsWith "-" && argument != "-" then .error (.unknownOption argument)
        else do read (← options.withDocument argument) rest

/-- The settings that the options ask for. -/
def settings (options : Options) : Settings :=
  let settings := options.packages.foldl Settings.withPackage {}
  if options.bare then settings.withoutLibrary else settings

end Options

/-- What a run prints, and its exit code. -/
structure Outcome where
  /-- The exit code. -/
  code : Nat
  /-- The text for the standard output. -/
  output : String := ""
  /-- The text for the standard error. -/
  errors : String := ""
deriving DecidableEq, Repr

/-- Lines, each with a line end. -/
def unlines (lines : List String) : String := String.join (lines.map (· ++ "\n"))

/-- A run that fails with messages. -/
def failure (messages : List String) : Outcome := { code := 1, errors := unlines messages }

/-- A run that prints lines. -/
def success (lines : List String) : Outcome := { code := 0, output := unlines lines }

/-- The outcome of printing a stored file. -/
def printFile (document : Document) (name : String) : Outcome :=
  match document.file? name with
  | some lines => success lines
  | none => failure ["The document stores no file named '" ++ name ++ "'."]

/-- The outcome of checking an output. -/
def checkOutput (document : Document) (path : String) : Except ReadFault String → Outcome
  | .ok text =>
    match document.failures ((Text.lines text.toList).map String.ofList) with
    | [] => success []
    | failures => failure failures
  | .error fault =>
    failure ["Failed to read the output file '" ++ path ++ "': " ++ fault.reason]

/-- The document at a path, given what was read there. -/
def documentOf (settings : Settings) (path : String) :
    Except ReadFault String → Except Error Document
  | .ok source => Document.ofSource source settings
  | .error fault => .error (.unreadable path fault.reason)

variable {m : Type → Type} [Monad m]

/-- Runs the options on the document at a path.  A file to print comes before an output to
check. -/
def runDocument (read : String → m (Except ReadFault String)) (options : Options)
    (path : String) : m Outcome := do
  match documentOf options.settings path (← read path) with
  | .error error => return failure [error.message]
  | .ok document =>
    match options.file, options.check with
    | some name, _ => return printFile document name
    | none, some path => return checkOutput document path (← read path)
    | none, none => return { code := 0, output := document.transcript }

/-- Runs a command line, reading the files that it asks for. -/
def run (read : String → m (Except ReadFault String)) (arguments : List String) : m Outcome :=
  match Options.read {} arguments with
  | .error fault => return { code := 2, errors := fault.message ++ "\n" }
  | .ok options =>
    match options.document with
    | none => return { code := 2, errors := UsageFault.missingDocument.message ++ "\n" }
    | some path => runDocument read options path

end Colloquy.CommandLine
