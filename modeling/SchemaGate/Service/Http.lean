import SchemaGate.Request.Surface
import SchemaGate.Text.Blank

/-!
# Requests and responses

A request as it arrives: a method, a target, headers and a body. Binding sees it through
`HttpRequest.surface`.

* `HttpRequest.path` and `HttpRequest.query?` are the parts of the target;
* `HttpRequest.cookies` are the cookies of all cookie headers;
* `decodePathValues` decodes the values of path parameters, all or none.
-/

namespace SchemaGate

open Utf8 (Octets)

/-- A request as it arrives. -/
structure HttpRequest where
  method : String
  target : String
  headers : List (String × String)
  body : Octets

/-- A response. -/
structure HttpResponse where
  status : Nat
  contentType : Option String
  body : String

/-- The text with its escapes of octets decoded, if that is UTF-8. -/
def percentDecoded? (s : String) : Option String :=
  Utf8.decode? (Form.percentDecode (Utf8.encode s))

/-- The values of path parameters. If one of them is not UTF-8, there are none at all. -/
def decodePathValues (raw : List (String × String)) : List (String × String) :=
  (raw.mapM fun p => (percentDecoded? p.2).map fun v => (p.1, v)).getD []

namespace HttpRequest

/-! ## The target -/

/-- What follows the authority of a full address. -/
def afterAuthority? (cs : List Char) : Option (List Char) :=
  let scheme := cs.takeWhile fun c => c.isAlphanum || c = '+' || c = '-' || c = '.'
  match scheme, cs.drop scheme.length with
  | _ :: _, ':' :: '/' :: '/' :: rest => some (rest.dropWhile fun c => c ≠ '/' && c ≠ '?')
  | _, _ => none

/-- The path of the target with the query behind it. A fragment is no part of either. -/
def pathAndQuery (r : HttpRequest) : List Char :=
  let cs := r.target.toList.takeWhile (· ≠ '#')
  match afterAuthority? cs with
  | none => cs
  | some rest => if rest.head? = some '/' then rest else '/' :: rest

/-- The path of the target, as it is written. -/
def path (r : HttpRequest) : String := String.ofList (r.pathAndQuery.takeWhile (· ≠ '?'))

/-- The query of the target, if it has one. -/
def query? (r : HttpRequest) : Option String :=
  match r.pathAndQuery.dropWhile (· ≠ '?') with
  | [] => none
  | _ :: query => some (String.ofList query)

/-- The pairs of the query. -/
def queryPairs (r : HttpRequest) : List (String × String) :=
  Form.pairs (Utf8.encode (r.query?.getD ""))

/-! ## Headers -/

/-- Whether a header value is a text: tabs and visible ASCII characters only. -/
def isHeaderText (s : String) : Bool :=
  s.toList.all fun c => c = '\t' || (' ' ≤ c && c ≤ '~')

/-- The values of a header, in order. -/
def headerValues (r : HttpRequest) (name : String) : List String :=
  (r.headers.filter fun h => h.1.toLower == name.toLower).map Prod.snd

/-- The first value of a header, if that is a text. -/
def header? (r : HttpRequest) (name : String) : Option String :=
  (r.headerValues name).head?.filter isHeaderText

/-! ## Cookies -/

/-- The cookie that a piece of a cookie header sets. Name and value are decoded, and the name is
not empty. -/
def cookie? (piece : List Char) : Option (String × String) :=
  let name := piece.takeWhile (· ≠ '=')
  if name.length = piece.length then none
  else
    let value := Text.trim (String.ofList (piece.drop (name.length + 1)))
    let name := Text.trim (String.ofList name)
    if name.isEmpty then none
    else (percentDecoded? name).bind fun n => (percentDecoded? value).map fun v => (n, v)

/-- All cookies, in order. -/
def cookies (r : HttpRequest) : List (String × String) :=
  ((r.headerValues "cookie").filter isHeaderText).flatMap fun value =>
    (splitAt ';' value.toList).filterMap cookie?
where
  /-- The parts between the places of a character. -/
  splitAt (mark : Char) (cs : List Char) : List (List Char) :=
    cs.foldr (fun c parts =>
      if c = mark then [] :: parts
      else match parts with
        | [] => [[c]]
        | part :: rest => (c :: part) :: rest) [[]]

/-- The value of a cookie: the last one of that name counts. -/
def cookie (r : HttpRequest) (name : String) : Option String :=
  (r.cookies.reverse.find? fun c => c.1 == name).map Prod.snd

/-! ## The view -/

/-- The view of a request whose path parameters have these values. -/
def surface (r : HttpRequest) (pathValues : List (String × String)) : RequestSurface where
  header := r.header?
  query name := (Form.texts name r.queryPairs).head?
  cookie := r.cookie
  queryValues name := Form.texts name r.queryPairs
  pathParam name := (pathValues.find? fun v => v.1 == name).map Prod.snd
  contentType := r.header? Request.contentTypeHeader
  body := r.body

end HttpRequest

end SchemaGate
