import SchemaGate.Service.Http
import SchemaGate.Service.Route
import SchemaGate.Service.Table

/-!
# The echo service

Answers every operation of a document with the values that its request binds to. Requests are
bound before the handler runs; those that cannot be are refused. One route of the service's own
says that it is alive, and is not bound.

* `EchoService.ofTable?` puts the routes together, if they can stand side by side;
* `EchoService.respond` answers a request.
-/

namespace SchemaGate

/-- The operations of a document with their routes. -/
structure EchoService where
  table : OperationTable
  routes : List Route

/-- The path of the route that says that the service is alive. -/
def livenessPath : String := "/health/liveness"

/-- The most octets that a body may have. -/
def maxBodyOctets : Nat := 2 * 1024 * 1024

/-- Why a request has no bound values to answer with. -/
inductive ServiceError where
  | invalid (errors : ErrorMap)
  | unsupportedMediaType (mediaType : String)
  | badRequest (reason : String)
  | internal

namespace ServiceError

/-- The refusal of a request that is not bound. -/
def ofBindError : BindError → ServiceError
  | .invalid errors => invalid errors
  | .unsupportedMediaType mediaType => unsupportedMediaType mediaType

/-- The value that tells of a failure other than invalid values: a code and a message. -/
def envelope (code message : String) : Json :=
  .object [("error", .object [("code", .string code), ("message", .string message)])]

/-- The value that a failure is answered with. Invalid values are told as they are. -/
def toJson : ServiceError → Json
  | invalid errors => ErrorTree.toJson (.nested errors)
  | unsupportedMediaType t =>
    envelope "UNSUPPORTED_MEDIA_TYPE" ("unsupported media type: " ++ t)
  | badRequest reason => envelope "BAD_REQUEST" ("bad request: " ++ reason)
  | internal => envelope "INTERNAL_ERROR" "internal server error"

/-- The status of a failure. -/
def status : ServiceError → Nat
  | invalid _ => 400
  | unsupportedMediaType _ => 415
  | badRequest _ => 400
  | internal => 500

end ServiceError

namespace HttpResponse

/-- A response with a status only. -/
def bare (status : Nat) : HttpResponse := ⟨status, none, ""⟩

/-- A response with a value. -/
def json (status : Nat) (v : Json) : HttpResponse := ⟨status, some "application/json", v.render⟩

/-- A response with a text. -/
def text (s : String) : HttpResponse := ⟨200, some "text/plain; charset=utf-8", s⟩

/-- The response to a failure. -/
def ofError (e : ServiceError) : HttpResponse := json e.status e.toJson

/-- The response to a request: one that asks for the head only has no body. -/
def answering (method : String) (r : HttpResponse) : HttpResponse :=
  if method = "HEAD" then { r with body := "" } else r

end HttpResponse

namespace EchoService

/-! ## Routes -/

/-- The paths of the operations, each once. -/
def paths (table : OperationTable) : List String :=
  (table.operations.map Operation.path).eraseDups

/-- The service of a table. There is none if a path is no template, if two of them conflict, or
if the document takes the place of the service's own route. -/
def ofTable? (table : OperationTable) : Option EchoService :=
  if (table.get? "get" livenessPath).isSome then none
  else
    let templates := (paths table).filter (· ≠ livenessPath)
    ((livenessPath :: templates).mapM Route.ofTemplate?).bind fun routes =>
      if Route.compatible routes then some ⟨table, routes⟩ else none

/-! ## Handlers -/

/-- What a route does for a method. -/
inductive Handler where
  | alive
  | echo
  | notAllowed
  deriving DecidableEq

/-- Whether the document declares an operation. Methods of requests are in upper case. -/
def declares (s : EchoService) (method template : String) : Bool :=
  s.table.operations.any fun o => o.path == template && o.method.toUpper == method

/-- The handler of a method on a route. A request for the head is answered by the handler that
gets the whole, unless there is one of its own. -/
def handler (s : EchoService) (method template : String) : Handler :=
  if s.declares method template then .echo
  else if method = "GET" || method = "HEAD" then
    if template = livenessPath then .alive
    else if method = "HEAD" && s.declares "GET" template then .echo
    else .notAllowed
  else .notAllowed

/-- Runs a handler on the bound values, if the request was bound. -/
def run (bound : Option Bound) : Handler → HttpResponse
  | .alive => .text "ok"
  | .notAllowed => .bare 405
  | .echo =>
    match bound with
    | some b => .json 200 b.dataJson
    | none => .ofError .internal

/-! ## Requests -/

/-- Binds a request to its operation, unless the body is too large. -/
def bind (o : Operation) (r : HttpRequest) (pathValues : List (String × String)) :
    Except ServiceError Bound :=
  if maxBodyOctets < r.body.length then .error (.badRequest "request body could not be read")
  else (o.bind (r.surface pathValues)).mapError .ofBindError

/-- Answers a request on a route: it is bound if the table has its operation, and then handled
unless that failed. The route of the service's own is not bound. -/
def respondOn (s : EchoService) (r : HttpRequest) (route : Route)
    (rawValues : List (String × String)) : HttpResponse :=
  match s.handler r.method route.template with
  | .alive => run none .alive
  | handler =>
    match s.table.get? r.method route.template with
    | none => run none handler
    | some o =>
      match bind o r (decodePathValues rawValues) with
      | .error e => .ofError e
      | .ok bound => run (some bound) handler

/-- Answers a request. -/
def respond (s : EchoService) (r : HttpRequest) : HttpResponse :=
  HttpResponse.answering r.method <|
    match Route.find? s.routes r.path with
    | none => .bare 404
    | some (route, rawValues) => s.respondOn r route rawValues

end EchoService

end SchemaGate
