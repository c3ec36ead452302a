import SchemaGate.Credential.Compile
import SchemaGate.Request.Decoder
import SchemaGate.Request.Document
import SchemaGate.Request.Parameter
import SchemaGate.Schema.Validate

/-!
# Operations

A compiled operation: everything that binding a request to it needs. It is compiled once and then
only read. Faults are reported for the parameters first, then for the body, then for the security.
-/

namespace SchemaGate

/-- A media type that the body may have. Without a schema the decoded body is taken as it is. -/
structure BodyContent where
  decoder : Decoder
  validator : Option Validator

/-- The body of an operation. Its media types are kept by essence. -/
structure RequestBody where
  required : Bool
  content : Entries BodyContent

namespace RequestBody

/-- The content for a media type, found like a decoder. -/
def select (b : RequestBody) (essence : String) : Option BodyContent :=
  MediaType.select (fun key => Entries.get? key b.content) essence

/-- Compiles the media types of a body, in order. -/
def compileContent (ctx : Validator.Context) (decoders : DecoderRegistry) :
    Entries Json → Except CompileError (Entries BodyContent)
  | [] => .ok []
  | (mediaType, entry) :: rest => do
    let decoder ← decoders.lookup mediaType
    let validator ← match entry.member? "schema" with
      | none => .ok none
      | some schema => (Validator.compile ctx schema).map some
    return (MediaType.essence mediaType, ⟨decoder, validator⟩) ::
      (← compileContent ctx decoders rest)

/-- Compiles the body of an operation. -/
def compile (ctx : Validator.Context) (decoders : DecoderRegistry) (body : Json) :
    Except CompileError RequestBody := do
  let body ← Parameter.resolve ctx.components body
  let required := ((body.member? "required").bind Json.bool?).getD false
  match (body.member? "content").bind Json.object? with
  | none => .error (.invalidDocument "requestBody.content must be an object")
  | some declared =>
    return ⟨required, Entries.sorted (← compileContent ctx decoders declared)⟩

end RequestBody

/-- How requests are bound. -/
structure BindOptions where
  /-- Whether requests are checked at all. -/
  validate : Bool := true
  /-- The names that a handler asks for; all names if it does not say. -/
  handlerParams : Option (List String) := none

/-- A compiled operation. -/
structure Operation where
  path : String
  method : String
  parameters : List Parameter
  body : Option RequestBody
  security : Option Requirement
  options : BindOptions

/-- What operations are compiled with. -/
structure Toolkit where
  formats : FormatRegistry
  decoders : DecoderRegistry
  options : BindOptions

namespace Toolkit

/-- The formats and decoders of the library, and every request checked. -/
def standard : Toolkit := ⟨.builtin, .builtin, {}⟩

end Toolkit

namespace Operation

/-- Compiles an operation of a document. -/
def compile (tools : Toolkit) (d : Document) (path method : String) :
    Except CompileError Operation := do
  let method := method.toLower
  let operation ← d.operation path method
  let ctx : Validator.Context := ⟨d.components, tools.formats⟩
  let parameters ← Parameter.compileAll ctx (d.pathItem? path) operation
  let body ← match Entries.get? "requestBody" operation with
    | none => .ok none
    | some body => (RequestBody.compile ctx tools.decoders body).map some
  let security ← match (Entries.get? "security" operation).or d.security? with
    | none => .ok none
    | some requirements => Requirement.compile requirements d.components
  .ok ⟨path, method, parameters, body, security, tools.options⟩

/-- The media types that the body may have. -/
def mediaTypes (o : Operation) : List String :=
  match o.body with
  | none => []
  | some b => Entries.keys b.content

end Operation

end SchemaGate
