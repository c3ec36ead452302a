import SchemaGate.Text.Blank

/-!
# Media types

The essence of a media type is what stands before its parameters, in lower case and without blanks
around it. A table of media types is searched with a type, then with its wildcards: any subtype
of the kind, any kind with the subtype, anything.
-/

namespace SchemaGate.MediaType

/-- The media type without parameters, blanks and case. -/
def essence (mediaType : String) : String :=
  (String.ofList (Text.trimChars (mediaType.toList.takeWhile (· != ';')))).toLower

/-- The kind and the subtype: what stands around the first slash. Without a slash the subtype is
open. -/
def split (essence : String) : String × String :=
  match essence.toList.dropWhile (· != '/') with
  | [] => (essence, "*")
  | _ :: subtype => (String.ofList (essence.toList.takeWhile (· != '/')), String.ofList subtype)

/-- What a table is searched with, in order. -/
def candidates (essence : String) : List String :=
  let (kind, subtype) := split essence
  [essence, kind ++ "/*", "*/" ++ subtype, "*/*"]

/-- The first candidate that a table has. -/
def select {α : Type} (find : String → Option α) (essence : String) : Option α :=
  (candidates essence).findSome? find

end SchemaGate.MediaType
