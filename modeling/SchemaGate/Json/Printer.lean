import SchemaGate.Json.Value

/-!
# Written values

The text of a value, on one line without blanks (`Json.render`) or with one item or member a
line (`Json.renderPretty`). Control characters below U+0020, the quote and the backslash are
escaped inside strings; every other character stands for itself.
-/

namespace SchemaGate.Json

/-- The four hexadecimal digits of a control character. -/
def controlEscape (c : Char) : String :=
  "\\u00" ++ String.ofList [Nat.digitChar (c.toNat / 16), Nat.digitChar (c.toNat % 16)]

/-- A character as it stands inside a quoted string. -/
def escape (c : Char) : String :=
  if c = '"' then "\\\""
  else if c = '\\' then "\\\\"
  else if c = '\n' then "\\n"
  else if c = '\r' then "\\r"
  else if c = '\t' then "\\t"
  else if c = '\x08' then "\\b"
  else if c = '\x0c' then "\\f"
  else if c.toNat < 0x20 then controlEscape c
  else c.toString

/-- A text as a quoted string. -/
def quote (s : String) : String :=
  (s.toList.foldl (fun acc c => acc ++ escape c) "\"") ++ "\""

mutual

/-- The text of a value without blanks. -/
def render : Json → String
  | null => "null"
  | bool b => if b then "true" else "false"
  | number n => n.render
  | string s => quote s
  | array items => "[" ++ String.intercalate "," (renderItems items) ++ "]"
  | object members => "\x7b" ++ String.intercalate "," (renderMembers members) ++ "\x7d"

/-- The texts of items. -/
def renderItems : List Json → List String
  | [] => []
  | x :: xs => render x :: renderItems xs

/-- The texts of members. -/
def renderMembers : List (String × Json) → List String
  | [] => []
  | (k, x) :: xs => (quote k ++ ":" ++ render x) :: renderMembers xs

end

/-- Parts of an array or object, one a line, between brackets; nothing but the brackets when
there are no parts. -/
def bracket (opening closing indent : String) (parts : List String) : String :=
  match parts with
  | [] => opening ++ closing
  | _ =>
    let inner := indent ++ "  "
    opening ++ "\n" ++ inner ++ String.intercalate (",\n" ++ inner) parts ++ "\n" ++ indent ++
      closing

mutual

/-- The text of a value with two more blanks of indentation for each level. -/
def renderIndented (indent : String) : Json → String
  | array items => bracket "[" "]" indent (indentedItems (indent ++ "  ") items)
  | object members => bracket "\x7b" "\x7d" indent (indentedMembers (indent ++ "  ") members)
  | null => "null"
  | bool b => if b then "true" else "false"
  | number n => n.render
  | string s => quote s

/-- The indented texts of items. -/
def indentedItems (indent : String) : List Json → List String
  | [] => []
  | x :: xs => renderIndented indent x :: indentedItems indent xs

/-- The indented texts of members. -/
def indentedMembers (indent : String) : List (String × Json) → List String
  | [] => []
  | (k, x) :: xs => (quote k ++ ": " ++ renderIndented indent x) :: indentedMembers indent xs

end

/-- The text of a value over several lines. -/
def renderPretty (v : Json) : String := renderIndented "" v

end SchemaGate.Json
