import SchemaGate.Components
import SchemaGate.Credential.Requirement

/-!
# Compilation of security requirements

A document lists alternatives, and each alternative names schemes that must all be satisfied. A
scheme that stands alone is not wrapped, and neither is an alternative that does. An alternative
without schemes makes the whole requirement optional; if no alternative names a scheme, there is
no requirement at all.
-/

namespace SchemaGate.Requirement

/-- Compiles the definition of a scheme. -/
def ofScheme (name : String) (definition : Json) : Except CompileError Requirement :=
  let unsupported (reason : String) : Except CompileError Requirement :=
    .error (.unsupportedSecurityScheme name reason)
  let text (key : String) : Option String := (definition.member? key).bind Json.string?
  match text "type" with
  | some "http" =>
    match text "scheme" with
    | some scheme =>
      if scheme.toLower = "basic" then .ok basic
      else if scheme.toLower = "bearer" then .ok bearer
      else unsupported ("unknown scheme " ++ scheme)
    | none => unsupported "http scheme requires 'scheme'"
  | some "apiKey" =>
    match text "name" with
    | none => unsupported "apiKey scheme requires 'name'"
    | some key =>
      match text "in" with
      | some "header" => .ok (apiKey .header key.toLower)
      | some "query" => .ok (apiKey .query key)
      | some "cookie" => .ok (apiKey .cookie key)
      | other => unsupported ("unknown value of in " ++ other.getD "(missing)")
  | some other => unsupported ("unsupported auth type " ++ other)
  | none => unsupported "type is required"

/-- Compiles the scheme of a name. -/
def ofName (schemes : Entries Json) (name : String) : Except CompileError Requirement :=
  match Entries.get? name schemes with
  | some definition => ofScheme name definition
  | none => .error (.undeclaredSecurityScheme name)

/-- Several members, or the only one. -/
def joined (join : List Requirement → Requirement) : List Requirement → Requirement
  | [r] => r
  | members => join members

/-- Compiles an alternative; one without schemes has no requirement. -/
def ofAlternative (components : Option Components) (alternative : Json) :
    Except CompileError (Option Requirement) :=
  match alternative with
  | .object [] => .ok none
  | .object named =>
    match components.bind fun c => c.section? "securitySchemes" with
    | none => .error .missingSecuritySchemes
    | some schemes =>
      ((Entries.keys named).mapM (ofName schemes)).map fun members => some (joined all members)
  | _ => .error (.invalidDocument "security requirement must be an object")

/-- The requirement of compiled alternatives. -/
def ofAlternatives (alternatives : List (Option Requirement)) : Option Requirement :=
  match alternatives.filterMap id with
  | [] => none
  | r :: rest =>
    let whole := joined any (r :: rest)
    some (if alternatives.any Option.isNone then optional whole else whole)

/-- Compiles a list of alternatives. -/
def compile (requirements : Json) (components : Option Components) :
    Except CompileError (Option Requirement) :=
  match requirements with
  | .array alternatives => (alternatives.mapM (ofAlternative components)).map ofAlternatives
  | _ => .error (.invalidDocument "security must be a list")

end SchemaGate.Requirement
