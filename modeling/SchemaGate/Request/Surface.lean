import SchemaGate.Credential.Requirement
import SchemaGate.Json.Printer
import SchemaGate.Request.Form

/-!
# Requests

What binding reads from a request. `RequestSurface` is the view: how a request came in does not
matter. `Request` is a request held in memory, put together part by part.
-/

namespace SchemaGate

open Utf8 (Octets)

/-- The parts of a request that carry parameters, credentials and the body. -/
structure RequestSurface extends CredentialSurface where
  /-- Every value of a query name, in order. -/
  queryValues : String → List String
  pathParam : String → Option String
  contentType : Option String
  body : Octets

/-- A request held in memory. Names of headers are kept in lower case. -/
structure Request where
  query : List (String × String) := []
  path : Entries String := []
  headers : Entries String := []
  cookies : Entries String := []
  body : Octets := []

namespace Request

/-- Appends the pairs of a query string. -/
def withQueryString (r : Request) (text : String) : Request :=
  { r with query := r.query ++ Form.pairs (Utf8.encode text) }

/-- Appends a query value. -/
def withQuery (r : Request) (name value : String) : Request :=
  { r with query := r.query ++ [(name, value)] }

/-- Sets a path parameter. -/
def withPath (r : Request) (name value : String) : Request :=
  { r with path := Entries.file name value r.path }

/-- Sets a header. -/
def withHeader (r : Request) (name value : String) : Request :=
  { r with headers := Entries.file name.toLower value r.headers }

/-- Sets a cookie. -/
def withCookie (r : Request) (name value : String) : Request :=
  { r with cookies := Entries.file name value r.cookies }

/-- The header that names the type of the body. -/
def contentTypeHeader : String := "content-type"

/-- Sets the body and its type. -/
def withBody (r : Request) (contentType : String) (body : Octets) : Request :=
  { r.withHeader contentTypeHeader contentType with body }

/-- Sets a written value as the body. -/
def withJson (r : Request) (v : Json) : Request :=
  r.withBody "application/json" (Utf8.encode v.render)

/-- A header by name, in any case. -/
def header? (r : Request) (name : String) : Option String :=
  Entries.get? name.toLower r.headers

/-- The view of a request. -/
def surface (r : Request) : RequestSurface where
  header := r.header?
  query name := (Form.texts name r.query).head?
  cookie name := Entries.get? name r.cookies
  queryValues name := Form.texts name r.query
  pathParam name := Entries.get? name r.path
  contentType := r.header? contentTypeHeader
  body := r.body

end Request

end SchemaGate
