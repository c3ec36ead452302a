import SchemaGate.ErrorTree

/-!
# Security requirements

What a request must prove about its sender. A requirement is a formula: its leaves look for one
credential each, and its inner nodes ask for all or for one of several, or for nothing.

* `CredentialSurface` is where credentials are looked for;
* `Requirement.check` answers with the credentials that were found, or with the failure of a leaf
  under the name of the credential that it misses.
-/

namespace SchemaGate

/-- The parts of a request that can carry a credential. Names of headers do not depend on case. -/
structure CredentialSurface where
  header : String → Option String
  query : String → Option String
  cookie : String → Option String

/-- Credentials by name, in the order of the names. -/
abbrev Credentials := Entries String

/-- Where a key is sent. -/
inductive KeyPlace where
  | header
  | query
  | cookie
  deriving DecidableEq

/-- A compiled security requirement. -/
inductive Requirement where
  | basic
  | bearer
  | apiKey (place : KeyPlace) (name : String)
  | all (members : List Requirement)
  | any (members : List Requirement)
  | optional (inner : Requirement)

namespace Requirement

instance : Inhabited Requirement := ⟨basic⟩

/-- The header of basic and bearer credentials. -/
def authorization : String := "authorization"

/-- The failure of a credential. -/
def failure (name message : String) : ErrorTree := .under name (.message message)

/-- Looks for the credentials behind the name of a scheme and a blank. -/
def checkScheme (scheme : String) (header : Option String) : Except ErrorTree Credentials :=
  match header with
  | none => .error (failure authorization "is required")
  | some value =>
    let lead := scheme.toList ++ [' ']
    if lead.isPrefixOf value.toList then
      .ok [(authorization, String.ofList (value.toList.drop lead.length))]
    else .error (failure authorization ("value should start with '" ++ scheme ++ "' word"))

/-- Looks for a key that is not empty. -/
def checkKey (name : String) (value : Option String) : Except ErrorTree Credentials :=
  match value with
  | none => .error (failure name "is required")
  | some value =>
    if value.isEmpty then .error (failure name "value length should be more than 1")
    else .ok [(name, value)]

/-- The value that a key has on a surface. -/
def KeyPlace.read (place : KeyPlace) (s : CredentialSurface) (name : String) : Option String :=
  match place with
  | .header => s.header name
  | .query => s.query name
  | .cookie => s.cookie name

mutual

/-- Checks the credentials of a request. -/
def check (r : Requirement) (s : CredentialSurface) : Except ErrorTree Credentials :=
  match r with
  | basic => checkScheme "Basic" (s.header authorization)
  | bearer => checkScheme "Bearer" (s.header authorization)
  | apiKey place name => checkKey name (KeyPlace.read place s name)
  | all members => checkAllOf members s []
  | any members =>
    match checkAnyOf members s with
    | .ok found => .ok found
    | .error none => .error (.message "no auth has been provided")
    | .error (some e) => .error e
  | optional inner =>
    match check inner s with
    | .ok found => .ok found
    | .error _ => .ok []

/-- Checks every member and adds what each finds to the credentials found before. -/
def checkAllOf (members : List Requirement) (s : CredentialSurface) (found : Credentials) :
    Except ErrorTree Credentials :=
  match members with
  | [] => .ok found
  | r :: rest =>
    match check r s with
    | .ok more => checkAllOf rest s (Entries.fileAll more found)
    | .error e => .error e

/-- The credentials of the first member that succeeds, or the failure of the first member. -/
def checkAnyOf (members : List Requirement) (s : CredentialSurface) :
    Except (Option ErrorTree) Credentials :=
  match members with
  | [] => .error none
  | r :: rest =>
    match check r s with
    | .ok found => .ok found
    | .error e =>
      match checkAnyOf rest s with
      | .ok found => .ok found
      | .error _ => .error (some e)

end

end Requirement

/-! ## Held credentials -/

/-- Credentials that are held in tables. Names of headers are kept in lower case. -/
structure HeldCredentials where
  headers : Entries String := []
  query : Entries String := []
  cookies : Entries String := []

namespace HeldCredentials

/-- Sets a header. -/
def withHeader (h : HeldCredentials) (name value : String) : HeldCredentials :=
  { h with headers := Entries.file name.toLower value h.headers }

/-- Sets a query value. -/
def withQuery (h : HeldCredentials) (name value : String) : HeldCredentials :=
  { h with query := Entries.file name value h.query }

/-- Sets a cookie. -/
def withCookie (h : HeldCredentials) (name value : String) : HeldCredentials :=
  { h with cookies := Entries.file name value h.cookies }

/-- The tables as a surface. -/
def surface (h : HeldCredentials) : CredentialSurface where
  header name := Entries.get? name.toLower h.headers
  query name := Entries.get? name h.query
  cookie name := Entries.get? name h.cookies

end HeldCredentials

end SchemaGate
