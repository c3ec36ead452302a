import SchemaGate.Components
import SchemaGate.Json.Printer
import SchemaGate.Schema.Validator

/-!
# Keywords of a schema

Reading single keywords from the members of a schema: flags, counts, texts, lists and limits. A
keyword that is missing is fine; one of the wrong kind is a fault that names it. Rules of a kind
of value are read as a whole, in a fixed order, so that the first fault is the one reported.
-/

namespace SchemaGate.Keyword

/-- The fault of a keyword. -/
def invalid {α : Type} (keyword reason : String) : Except CompileError α :=
  .error (.invalidKeyword keyword reason)

/-- A keyword that is true or false; false if it is missing. -/
def flag (members : Entries Json) (keyword : String) : Except CompileError Bool :=
  match Entries.get? keyword members with
  | none => .ok false
  | some (.bool b) => .ok b
  | some _ => invalid keyword "must be a boolean"

/-- A keyword that is a number of things. -/
def count (members : Entries Json) (keyword : String) : Except CompileError (Option Nat) :=
  match Entries.get? keyword members with
  | none => .ok none
  | some v =>
    match v.natural? with
    | some n => .ok (some n)
    | none => invalid keyword "must be a non-negative integer"

/-- A keyword that is a text. -/
def text (members : Entries Json) (keyword : String) : Except CompileError (Option String) :=
  match Entries.get? keyword members with
  | none => .ok none
  | some (.string s) => .ok (some s)
  | some _ => invalid keyword "must be a string"

/-- The members of an enumeration. -/
def enumeration (members : Entries Json) : Except CompileError (Option (List Json)) :=
  match Entries.get? "enum" members with
  | none => .ok none
  | some (.array items) => .ok (some items)
  | some _ => invalid "enum" "must be a list"

/-- A limit on numbers. The second keyword says that the limit itself is out of reach, or is such
a limit of its own, which then counts instead. -/
def limit (members : Entries Json) (keyword exclusive : String) :
    Except CompileError (Option Limit) := do
  let inclusive ← match Entries.get? keyword members with
    | none => .ok none
    | some (.number n) => .ok (some n)
    | some _ => invalid keyword "must be a number"
  match Entries.get? exclusive members with
  | none => .ok (inclusive.map fun n => ⟨n, false⟩)
  | some (.bool b) => .ok (inclusive.map fun n => ⟨n, b⟩)
  | some (.number n) => .ok (some ⟨n, true⟩)
  | some _ => invalid exclusive "must be a boolean or a number"

/-- The keywords of every schema. A default of null is no default. -/
def common (members : Entries Json) : Except CompileError Common := do
  let nullable ← flag members "nullable"
  let readOnly ← flag members "readOnly"
  let default? := (Entries.get? "default" members).filter fun v => !v.isNull
  .ok ⟨nullable, default?, readOnly⟩

/-- The names in a list of required properties, sorted, each once. -/
def required (members : Entries Json) : Except CompileError (List String) :=
  match Entries.get? "required" members with
  | none => .ok []
  | some (.array items) =>
    match items.mapM Json.string? with
    | some names => .ok (Entries.keys (Entries.sorted (names.map fun n => (n, ()))))
    | none => invalid "required" "must be a list of strings"
  | some _ => invalid "required" "must be a list of strings"

/-! ## Rules of scalars -/

/-- The format of a kind of numbers. -/
def numericFormat {α : Type} (kind : String) (known : String → Option α)
    (members : Entries Json) : Except CompileError (Option α) := do
  match ← text members "format" with
  | none => .ok none
  | some name =>
    match known name with
    | some format => .ok (some format)
    | none => .error (.unknownFormat kind name)

/-- The widths of integers by name. -/
def integerFormat? : String → Option IntegerFormat
  | "int32" => some .int32
  | "int64" => some .int64
  | _ => none

/-- The widths of floating-point numbers by name. -/
def numberFormat? : String → Option NumberFormat
  | "float" => some .float
  | "double" => some .double
  | _ => none

/-- The rules of an integer schema. -/
def integerRule (common : Common) (members : Entries Json) :
    Except CompileError IntegerRule := do
  let format ← numericFormat "integer" integerFormat? members
  let minimum ← limit members "minimum" "exclusiveMinimum"
  let maximum ← limit members "maximum" "exclusiveMaximum"
  .ok ⟨common, format, minimum, maximum, ← enumeration members⟩

/-- The rules of a number schema. -/
def numberRule (common : Common) (members : Entries Json) : Except CompileError NumberRule := do
  let format ← numericFormat "number" numberFormat? members
  let minimum ← limit members "minimum" "exclusiveMinimum"
  let maximum ← limit members "maximum" "exclusiveMaximum"
  .ok ⟨common, format, minimum, maximum, ← enumeration members⟩

/-- The pattern of a string schema. -/
def pattern (members : Entries Json) : Except CompileError (Option Pattern) := do
  match ← text members "pattern" with
  | none => .ok none
  | some source =>
    match Pattern.ofText? source with
    | some p => .ok (some p)
    | none => .error (.invalidPattern source)

/-- The rules of a string schema. The check of its format is looked up here, once and for all. -/
def stringRule (formats : FormatRegistry) (common : Common) (members : Entries Json) :
    Except CompileError StringRule := do
  let format ← text members "format"
  let pattern ← pattern members
  let minLength ← count members "minLength"
  let maxLength ← count members "maxLength"
  .ok ⟨common, format, format.bind formats.get?, pattern, minLength, maxLength,
    ← enumeration members⟩

/-! ## Rules of containers -/

/-- The rules of an array schema but for its items. -/
def arrayRule (common : Common) (members : Entries Json) : Except CompileError ArrayRule := do
  let minItems ← count members "minItems"
  let maxItems ← count members "maxItems"
  .ok ⟨common, minItems, maxItems, ← flag members "uniqueItems"⟩

/-- The rules of an object schema but for its properties, given the required names. -/
def objectRule (common : Common) (required : List String) (members : Entries Json) :
    Except CompileError ObjectRule := do
  let minProperties ← count members "minProperties"
  .ok ⟨common, required, minProperties, ← count members "maxProperties"⟩

/-! ## Discriminators -/

/-- The name that a branch goes by: the last segment of its reference. -/
def branchName (branch : Json) : Option String :=
  ((branch.member? "$ref").bind Json.string?).map Reference.lastSegment

/-- The targets that the branches are by their own names; of two of one name the later counts. -/
def ownTargets (names : List (Option String)) : Entries Nat :=
  Entries.sorted <| names.zipIdx.filterMap fun (name, i) => name.map fun n => (n, i)

/-- Adds the targets that a mapping names, each the first branch of that name. -/
def mappedTargets (names : List (Option String)) (targets : Entries Nat) :
    Entries Json → Except CompileError (Entries Nat)
  | [] => .ok targets
  | (alias_, v) :: rest =>
    match v.string? with
    | none => .error (.discriminator s!"mapping '{alias_}' must be a string")
    | some target =>
      match names.findIdx? (· == some (Reference.lastSegment target)) with
      | some i => mappedTargets names (Entries.file alias_ i targets) rest
      | none => .error (.discriminator
          s!"mapping '{alias_}' points at '{target}', which is not one of the branches")

/-- The discriminator that a definition describes, for the given branches. -/
def discriminatorOf (definition : Json) (branches : List Json) :
    Except CompileError Discriminator := do
  let property ← match (definition.member? "propertyName").bind Json.string? with
    | some p => .ok p
    | none => .error (.discriminator "propertyName is required")
  let names := branches.map branchName
  let targets ← match definition.member? "mapping" with
    | none => .ok (ownTargets names)
    | some (.object mapping) => mappedTargets names (ownTargets names) mapping
    | some _ => .error (.discriminator "mapping must be an object")
  if targets.isEmpty then
    .error (.discriminator "no branch can be selected; use $ref branches or a mapping")
  else .ok ⟨property, targets⟩

/-- The discriminator of a combinator, if it has one. -/
def discriminator (members : Entries Json) (branches : List Json) :
    Except CompileError (Option Discriminator) :=
  match Entries.get? "discriminator" members with
  | none => .ok none
  | some definition => (discriminatorOf definition branches).map some

end SchemaGate.Keyword
