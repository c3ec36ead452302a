import SchemaGate.Decimal.Literal
import SchemaGate.Text.Blank

/-!
# Settings of the service

Three variables of the environment: the document, the port and whether requests are checked. The
environment is a function here, so that settings can be read from anywhere.
-/

namespace SchemaGate

/-- The settings of the service. -/
structure Settings where
  spec : String
  port : Nat
  validate : Bool
  deriving DecidableEq

/-- Why settings cannot be read. -/
inductive SettingsError where
  | missing (name : String)
  | invalid (name value : String)
  deriving DecidableEq

/-- A failure in words. -/
def SettingsError.message : SettingsError → String
  | missing name => s!"environment variable {name} is required"
  | invalid name value => s!"environment variable {name} has invalid value '{value}'"

namespace Settings

/-- A port: digits for a number of 16 bits, perhaps behind a plus sign. -/
def port? (text : String) : Option Nat :=
  let digits := match Text.trimChars text.toList with
    | '+' :: rest => rest
    | cs => cs
  (Decimal.natural? digits).filter fun n => n < 0x10000

/-- The port that a variable gives. -/
def readPort (value : Option String) : Except SettingsError Nat :=
  match value with
  | none => .ok 8080
  | some text =>
    match port? text with
    | some n => .ok n
    | none => .error (.invalid "PORT" text)

/-- The choice that a variable gives. -/
def readValidate (value : Option String) : Except SettingsError Bool :=
  match value.map Text.trim with
  | none => .ok true
  | some text =>
    if text = "true" ∨ text = "1" ∨ text = "" then .ok true
    else if text = "false" ∨ text = "0" then .ok false
    else .error (.invalid "OASV_VALIDATE" text)

/-- The settings of an environment. -/
def ofEnvironment (lookup : String → Option String) : Except SettingsError Settings :=
  match (lookup "OASV_SPEC").filter fun path => Text.trim path ≠ "" with
  | none => .error (.missing "OASV_SPEC")
  | some spec => do
    let port ← readPort (lookup "PORT")
    let validate ← readValidate (lookup "OASV_VALIDATE")
    .ok ⟨spec, port, validate⟩

end Settings

end SchemaGate
