/-!
# Arguments

What the command line asks for. There are two subcommands; an option takes its value from the
next argument or behind an equals sign, and a bare double dash ends the options.

* `Command` says what is to be done;
* `Command.ofArguments?` reads it, or finds that the arguments make no sense.
-/

namespace SchemaGate

/-- A value to be checked against a named schema of a document. -/
structure ValidateRequest where
  spec : String
  schema : String
  value : Option String
  file : Option String
  raw : Bool

/-- What the command line asks for. -/
inductive Command where
  | check (spec : String)
  | validate (request : ValidateRequest)
  | help
  | version

namespace Command

/-! ## Flags -/

/-- What a flag that every subcommand knows leads to. -/
inductive Flag where
  | verbose
  | stop (command : Command)

/-- A flag of one letter. -/
def letterFlag? (outermost : Bool) : Char → Option Flag
  | 'v' => some .verbose
  | 'h' => some (.stop .help)
  | 'V' => if outermost then some (.stop .version) else none
  | _ => none

/-- A row of letters behind one dash. The first that stops does; an unknown one is refused. -/
def letterFlags? (outermost : Bool) : List Char → Option Flag
  | [] => some .verbose
  | c :: rest =>
    match letterFlag? outermost c with
    | some .verbose => letterFlags? outermost rest
    | flag => flag

/-- A flag with a name of its own. -/
def wordFlag? (outermost : Bool) (name : String) : Option Flag :=
  if name = "verbose" then some .verbose
  else if name = "help" then some (.stop .help)
  else if name = "version" && outermost then some (.stop .version)
  else none

/-! ## Forms of an argument -/

/-- An argument by its form. -/
inductive Form where
  | plain
  | endOfOptions
  | letters (row : List Char)
  | word (name : String) (value : Option String)

/-- The form of an argument. A lone dash is a plain one. -/
def form (argument : String) : Form :=
  match argument.toList with
  | ['-', '-'] => .endOfOptions
  | '-' :: '-' :: rest =>
    let name := rest.takeWhile (· ≠ '=')
    .word (String.ofList name)
      (if name.length = rest.length then none
        else some (String.ofList (rest.drop (name.length + 1))))
  | '-' :: c :: rest => .letters (c :: rest)
  | _ => .plain

/-! ## Subcommands -/

/-- Reads the arguments of `check`: one document. Every argument counts as plain if `literal`. -/
def checkArguments? (literal : Bool) (spec : Option String) : List String → Option Command
  | [] => spec.map .check
  | a :: rest =>
    let asSpec := if spec.isNone && ! a.isEmpty then checkArguments? literal (some a) rest else none
    if literal then asSpec
    else
      match form a with
      | .plain => asSpec
      | .endOfOptions => checkArguments? true spec rest
      | .letters row => proceed (letterFlags? false row) (checkArguments? false spec rest)
      | .word name none => proceed (wordFlag? false name) (checkArguments? false spec rest)
      | .word _ (some _) => none
where
  /-- Goes on behind a flag that does not stop. -/
  proceed (flag : Option Flag) (next : Option Command) : Option Command :=
    match flag with
    | some .verbose => next
    | some (.stop command) => some command
    | none => none

/-- The options of `validate` as far as they have been read. -/
structure ValidateOptions where
  spec : Option String := none
  schema : Option String := none
  value : Option String := none
  file : Option String := none
  raw : Bool := false

namespace ValidateOptions

/-- Sets an option with a value. Each can be given once, and a path is not empty. -/
def set? (o : ValidateOptions) (name value : String) : Option ValidateOptions :=
  if name = "spec" then
    if o.spec.isSome || value.isEmpty then none else some { o with spec := some value }
  else if name = "schema" then
    if o.schema.isSome then none else some { o with schema := some value }
  else if name = "value" then
    if o.value.isSome then none else some { o with value := some value }
  else if name = "file" then
    if o.file.isSome || value.isEmpty then none else some { o with file := some value }
  else none

/-- The request, if the document and the schema are named, and the value is given in one way at
most. -/
def request? (o : ValidateOptions) : Option ValidateRequest :=
  match o.spec, o.schema with
  | some spec, some schema =>
    if o.value.isSome && o.file.isSome then none
    else some ⟨spec, schema, o.value, o.file, o.raw⟩
  | _, _ => none

end ValidateOptions

/-- Whether an option of `validate` takes a value. -/
def takesValue (name : String) : Bool := ["spec", "schema", "value", "file"].contains name

/-- Reads the arguments of `validate`. The value of an option must be a plain argument, unless
it stands behind an equals sign. -/
def validateArguments? (o : ValidateOptions) : List String → Option Command
  | [] => o.request?.map .validate
  | a :: rest =>
    match form a with
    | .plain => none
    | .endOfOptions => if rest.isEmpty then o.request?.map .validate else none
    | .letters row => checkArguments?.proceed (letterFlags? false row) (validateArguments? o rest)
    | .word name (some value) => (o.set? name value).bind fun o => validateArguments? o rest
    | .word name none =>
      if name = "raw" then
        if o.raw then none else validateArguments? { o with raw := true } rest
      else if takesValue name then
        match rest with
        | [] => none
        | value :: rest =>
          match form value with
          | .plain => (o.set? name value).bind fun o => validateArguments? o rest
          | _ => none
      else checkArguments?.proceed (wordFlag? false name) (validateArguments? o rest)

/-- Whether help is asked for on something that there is. -/
def helpTopic : List String → Bool
  | [] => true
  | [topic] => ["check", "validate", "help"].contains topic
  | _ => false

/-- What a list of arguments asks for, if it makes sense. -/
def ofArguments? : List String → Option Command
  | [] => none
  | a :: rest =>
    match form a with
    | .plain =>
      if a = "check" then checkArguments? false none rest
      else if a = "validate" then validateArguments? {} rest
      else if a = "help" && helpTopic rest then some .help
      else none
    | .endOfOptions => none
    | .letters row => checkArguments?.proceed (letterFlags? true row) (ofArguments? rest)
    | .word name none => checkArguments?.proceed (wordFlag? true name) (ofArguments? rest)
    | .word _ (some _) => none

end Command

end SchemaGate
