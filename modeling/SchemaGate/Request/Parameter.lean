import SchemaGate.Request.Surface
import SchemaGate.Schema.Compile

/-!
# Parameters

A parameter is a validator for the values that a request has under a name in one of four places.
A path declares parameters for all its operations, an operation its own; of two declarations with
the same name and place, as written, only the later one counts, and only then it has to make
sense.

* `Parameter.effective` keeps the declarations that count;
* `Parameter.compileAll` compiles them;
* `Parameter.extract` takes the values of a parameter from a request.
-/

namespace SchemaGate

/-- Where a parameter is sent. -/
inductive Location where
  | query
  | path
  | header
  | cookie
  deriving DecidableEq

namespace Location

/-- A place by its name. -/
def ofName? : String → Option Location
  | "query" => some query
  | "path" => some path
  | "header" => some header
  | "cookie" => some cookie
  | _ => none

/-- The name of a place. -/
def name : Location → String
  | query => "query"
  | path => "path"
  | header => "header"
  | cookie => "cookie"

end Location

/-- A compiled parameter. -/
structure Parameter where
  name : String
  location : Location
  validator : Validator
  required : Bool

namespace Parameter

/-- A declaration whose name and place are known. -/
structure Declared where
  name : String
  place : String
  members : Entries Json

/-- A fault of a parameter. -/
def invalid {α : Type} (reason : String) : Except CompileError α :=
  .error (.invalidParameter reason)

/-- What a reference leads to; a value that is no reference is meant itself. -/
def resolve (components : Option Components) (entry : Json) : Except CompileError Json :=
  match (entry.member? "$ref").bind Json.string? with
  | none => .ok entry
  | some r =>
    match components with
    | none => .error .missingComponents
    | some c => c.resolve r

/-- Finds the name and the place of a declaration. -/
def declare (components : Option Components) (entry : Json) : Except CompileError Declared := do
  match ← resolve components entry with
  | .object members =>
    match (Entries.get? "name" members).bind Json.string? with
    | none => invalid "name is required"
    | some name =>
      match (Entries.get? "in" members).bind Json.string? with
      | none => invalid ("'in' is required for " ++ name)
      | some place => .ok ⟨name, place, members⟩
  | _ => invalid "parameter must be an object"

/-- The declarations of a list, which may be missing. -/
def declareAll (components : Option Components) (list : Option Json) :
    Except CompileError (List Declared) :=
  match list with
  | none => .ok []
  | some (.array entries) => entries.mapM (declare components)
  | some _ => invalid "parameters must be a list"

/-- Whether two declarations are for the same parameter. -/
def Declared.sameAs (a b : Declared) : Bool := a.name == b.name && a.place == b.place

/-- The declarations that no later one replaces. -/
def effective : List Declared → List Declared
  | [] => []
  | d :: rest => if rest.any d.sameAs then effective rest else d :: effective rest

/-- Compiles a declaration. Path parameters are always required, and names of headers are told in
lower case. -/
def ofDeclared (ctx : Validator.Context) (d : Declared) : Except CompileError Parameter := do
  let location ← match Location.ofName? d.place with
    | some l => .ok l
    | none => invalid ("unknown location '" ++ d.place ++ "' for " ++ d.name)
  let schema ← match Entries.get? "schema" d.members with
    | some s => .ok s
    | none => invalid ("schema is required for " ++ d.name)
  let required ← match Entries.get? "required" d.members with
    | none => .ok false
    | some (.bool b) => .ok b
    | some _ => invalid ("required must be a boolean for " ++ d.name)
  let validator ← Validator.compile ctx schema
  .ok ⟨if location = .header then d.name.toLower else d.name, location, validator,
    required || location == .path⟩

/-- Compiles the parameters of an operation, given what its path declares. -/
def compileAll (ctx : Validator.Context) (pathItem : Option (Entries Json))
    (operation : Entries Json) : Except CompileError (List Parameter) := do
  let shared ← declareAll ctx.components (pathItem.bind (Entries.get? "parameters"))
  let own ← declareAll ctx.components (Entries.get? "parameters" operation)
  (effective (shared ++ own)).mapM (ofDeclared ctx)

/-- A value that may be missing, as an input. -/
def single (value : Option String) : Field := Form.ofTexts value.toList

/-- What a request has for a parameter. -/
def extract (p : Parameter) (r : RequestSurface) : Field :=
  match p.location with
  | .query => Form.ofTexts (r.queryValues p.name)
  | .path => single (r.pathParam p.name)
  | .header => single (r.header p.name)
  | .cookie => single (r.cookie p.name)

end Parameter

end SchemaGate
