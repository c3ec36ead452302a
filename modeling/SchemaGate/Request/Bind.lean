import SchemaGate.Request.Operation

/-!
# Binding

Binding checks a request against an operation and hands out its values by name. It is all or
nothing: with a single failure nothing is handed out, and every failure is reported.

* `Operation.parameterOutcomes` and `Operation.bodyOutcome` say how each part fares;
* `Operation.failures` gathers their errors, to which those of the security are added where the
  name is still free;
* `Operation.bind` puts the answer together. A body of a media type that the operation does not
  have is refused whatever else is wrong.
-/

namespace SchemaGate

/-- Why a request is not bound. -/
inductive BindError where
  | invalid (errors : ErrorMap)
  | unsupportedMediaType (mediaType : String)

namespace BindError

/-- A failure in words. -/
def message : BindError → String
  | invalid errors => s!"request validation failed for {errors.length} field(s)"
  | unsupportedMediaType mediaType => s!"unsupported media type '{mediaType}'"

/-- The errors by name, if there are such. -/
def errors? : BindError → Option ErrorMap
  | invalid errors => some errors
  | unsupportedMediaType _ => none

end BindError

/-- The values of a bound request, by name: those for the handler, all of them, and the
credentials among them. -/
structure Bound where
  arguments : Entries Field := []
  data : Entries Field := []
  credentials : Credentials := []

namespace Bound

/-- A bound value. -/
def get? (b : Bound) (name : String) : Option Field := Entries.get? name b.data

/-- All bound values as one object. -/
def dataJson (b : Bound) : Json :=
  .object (b.data.filterMap fun (name, f) => f.toJson?.map fun v => (name, v))

end Bound

/-- The name under which the body is bound. -/
def bodyName : String := "body"

/-- The complaint about something that was not sent. -/
def requiredError : ErrorTree := .message "is required"

namespace Parameter

/-- How a request fares with a parameter. -/
def outcome (p : Parameter) (r : RequestSurface) : Outcome :=
  let input := p.extract r
  if input.isAbsent && p.required then .error requiredError else p.validator.validate input true

end Parameter

namespace BodyContent

/-- How the octets of a body fare. -/
def outcome (c : BodyContent) (required : Bool) (octets : Utf8.Octets) : Outcome :=
  match c.decoder.decode octets with
  | .error complaint => .error (.message complaint)
  | .ok decoded =>
    if decoded.value.isAbsent && required then .error requiredError
    else
      match c.validator with
      | some v => v.validate decoded.value decoded.raw
      | none => .ok decoded.value

end BodyContent

namespace RequestBody

/-- How a request fares with the body. Without a media type there is no body; with one that the
operation does not have there is no answer but that. -/
def outcome (b : RequestBody) (r : RequestSurface) : Except BindError Outcome :=
  match r.contentType with
  | none => .ok (if b.required then .error requiredError else .ok .absent)
  | some contentType =>
    let essence := MediaType.essence contentType
    match b.select essence with
    | none => .error (.unsupportedMediaType essence)
    | some c => .ok (c.outcome b.required r.body)

end RequestBody

namespace Operation

/-- How a request fares with each parameter, by name. -/
def parameterOutcomes (o : Operation) (r : RequestSurface) : Entries Outcome :=
  o.parameters.map fun p => (p.name, p.outcome r)

/-- How a request fares with the body, by name; nothing if the operation has none. -/
def bodyOutcome (o : Operation) (r : RequestSurface) : Except BindError (Entries Outcome) :=
  match o.body with
  | none => .ok []
  | some b => (b.outcome r).map fun outcome => [(bodyName, outcome)]

/-- How a request fares with the security; without one there are no credentials. -/
def securityOutcome (o : Operation) (r : RequestSurface) : Except ErrorTree Credentials :=
  match o.security with
  | none => .ok []
  | some s => s.check r.toCredentialSurface

/-- The errors of the outcomes, by name. Of two for one name the later counts. -/
def failures (outcomes : Entries Outcome) : ErrorMap := ObjectRule.failures outcomes

/-- The errors of the security, by name. -/
def securityErrors (e : ErrorTree) : ErrorMap :=
  match e with
  | .nested errors => errors
  | e => [("security", e)]

/-- Adds errors under names that have none. -/
def addMissing (news errors : ErrorMap) : ErrorMap :=
  news.foldl (fun acc e => if Entries.has e.1 acc then acc else Entries.file e.1 e.2 acc) errors

/-- The values among outcomes, by name. -/
def values (outcomes : Entries Outcome) : Entries Field :=
  Entries.sorted <| outcomes.filterMap fun (name, r) =>
    match r with
    | .ok f => if f.isAbsent then none else some (name, f)
    | .error _ => none

/-- The values of a request that has no failure. -/
def bound (o : Operation) (outcomes : Entries Outcome) (credentials : Credentials) : Bound :=
  let data := Entries.fileAll (Entries.mapValues Field.text credentials) (values outcomes)
  let arguments := match o.options.handlerParams with
    | none => data
    | some wanted => data.filter fun e => wanted.contains e.1
  ⟨arguments, data, credentials⟩

/-- Binds a request. -/
def bind (o : Operation) (r : RequestSurface) : Except BindError Bound :=
  if !o.options.validate then .ok {}
  else
    match o.bodyOutcome r with
    | .error e => .error e
    | .ok body =>
      let outcomes := o.parameterOutcomes r ++ body
      match o.securityOutcome r with
      | .ok credentials =>
        match failures outcomes with
        | [] => .ok (o.bound outcomes credentials)
        | errors => .error (.invalid errors)
      | .error e =>
        match addMissing (securityErrors e) (failures outcomes) with
        | [] => .ok (o.bound outcomes [])
        | errors => .error (.invalid errors)

end Operation

end SchemaGate
