import SchemaGate.Command.Arguments
import SchemaGate.Command.Report
import SchemaGate.Json.Printer
import SchemaGate.Schema.Validate

/-!
# Running commands

What a command prints and the code that it ends with, given the files that it can read. A
command that cannot do its work at all (`CommandError`) prints nothing and ends with code 2; a
document or a value that is found wanting ends it with code 1. How the compiler of patterns words
its reasons is an argument of what prints them (`diagnose`).
-/

namespace SchemaGate

open Utf8 (Octets)

/-- The files that can be read, by their paths. -/
abbrev Files := String → Option Octets

/-- Why a file has no text. -/
inductive FileFault where
  | missing
  | notText
  deriving DecidableEq

/-- Why a command cannot do its work. -/
inductive CommandError where
  | unreadable (path : String) (fault : FileFault)
  | badDocument (path : String) (fault : CompileError)
  | noComponents
  | undeclaredSchema (name : String)
  | badSchema (name : String) (fault : CompileError)
  | badValue
  | noValue
  deriving DecidableEq

/-- The reason of a missing text. -/
def FileFault.message : FileFault → String
  | missing => "No such file or directory (os error 2)"
  | notText => "stream did not contain valid UTF-8"

/-- A failure in words. -/
def CommandError.message (e : CommandError)
    (diagnose : String → String := CompileError.unknownReason) : String :=
  match e with
  | unreadable path fault => "failed to read " ++ path ++ ": " ++ fault.message
  | badDocument path fault => "invalid document " ++ path ++ ": " ++ fault.explain diagnose
  | noComponents => CompileError.missingComponents.message
  | undeclaredSchema name => s!"schema '{name}' is not declared in components.schemas"
  | badSchema name fault => s!"schema '{name}' does not compile: " ++ fault.explain diagnose
  | badValue => "value is neither JSON nor YAML: (yaml diagnostic)"
  | noValue => "one of --value or --file is required"

/-- What a command ends with: its code, the text that it prints, and what it complains of. -/
structure Ending where
  code : Nat
  output : String
  complaint : String

namespace Files

/-- The text of a file. -/
def text (files : Files) (path : String) : Except CommandError String :=
  match files path with
  | none => .error (.unreadable path .missing)
  | some octets =>
    match Utf8.decode? octets with
    | none => .error (.unreadable path .notText)
    | some text => .ok text

/-- The document in a file. -/
def document (files : Files) (path : String) : Except CommandError Document := do
  (Document.ofText (← files.text path)).mapError (.badDocument path)

/-- Reports on the document in a file, compiled with the tools of the library. -/
def check (files : Files) (spec : String)
    (diagnose : String → String := CompileError.unknownReason) : Except CommandError Ending := do
  let report := (← files.document spec).check .standard
  .ok ⟨if report.isClean then 0 else 1, report.render diagnose, ""⟩

end Files

namespace ValidateRequest

/-- The value that a text holds. -/
def parse (text : String) : Except CommandError Field :=
  match Json.ofYaml? text with
  | some v => .ok (.ofJson v)
  | none => .error .badValue

/-- What is to be checked. A value of the command line is taken as it stands if it is raw; in a
file it is always parsed. -/
def input (r : ValidateRequest) (files : Files) : Except CommandError Field :=
  match r.value, r.file with
  | some text, _ => if r.raw then .ok (.text text) else parse text
  | none, some path => do parse (← files.text path)
  | none, none => .error .noValue

/-- The compiled schema that a request names. -/
def validator (r : ValidateRequest) (d : Document) : Except CommandError Validator :=
  match d.components with
  | none => .error .noComponents
  | some components =>
    match components.get? "schemas" r.schema with
    | none => .error (.undeclaredSchema r.schema)
    | some schema =>
      (Validator.compile ⟨some components, .builtin⟩ schema).mapError (.badSchema r.schema)

/-- The ending that a validation leads to: the output, or the errors. -/
def conclude : Outcome → Ending
  | .ok output => ⟨0, Json.renderPretty (output.toJson?.getD .null) ++ "\n", ""⟩
  | .error e => ⟨1, Json.renderPretty e.toJson ++ "\n", ""⟩

/-- Checks the value against the schema. -/
def run (r : ValidateRequest) (files : Files) : Except CommandError Ending := do
  let validator ← r.validator (← files.document r.spec)
  .ok (conclude (validator.validate (← r.input files) r.raw))

end ValidateRequest

namespace Command

/-- The text that help consists of. -/
def usage : String :=
  "OpenAPI request validation toolchain\n\n"
    ++ "Usage: oasv [OPTIONS] <COMMAND>\n\n"
    ++ "Commands:\n"
    ++ "  check     Compile every operation of a document and report failures\n"
    ++ "  validate  Validate a value against a component schema\n"
    ++ "  help      Print this message or the help of the given subcommand(s)\n\n"
    ++ "Options:\n"
    ++ "  -v, --verbose...  Enable verbose output. Repeat for more verbosity (-v, -vv, -vvv)\n"
    ++ "  -h, --help        Print help\n"
    ++ "  -V, --version     Print version\n"

/-- The paths of the files that a command may read. -/
def paths : Command → List String
  | check spec => [spec]
  | validate r => r.spec :: r.file.toList
  | _ => []

/-- Runs a command. -/
def run (files : Files) (diagnose : String → String) : Command → Except CommandError Ending
  | check spec => files.check spec diagnose
  | validate r => r.run files
  | help => .ok ⟨0, usage, ""⟩
  | version => .ok ⟨0, "oasv 0.1.0\n", ""⟩

/-- What the program ends with for these arguments. -/
def ending (files : Files) (arguments : List String)
    (diagnose : String → String := CompileError.unknownReason) : Ending :=
  match ofArguments? arguments with
  | none => ⟨2, "", usage⟩
  | some command =>
    match command.run files diagnose with
    | .ok e => e
    | .error e => ⟨2, "", e.message diagnose ++ "\n"⟩

end Command

end SchemaGate
