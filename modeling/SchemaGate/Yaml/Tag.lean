import SchemaGate.Text.Utf8
import SchemaGate.Yaml.Quoted

/-!
# Tags

A tag says how a node is to be read. It is written as a handle with a suffix, or in full between
angle brackets; a directive says which text a handle stands for.

* `Cursor.tag?` reads a tag, `Cursor.directive?` a directive;
* `Tag.ofOctets?` says which full tags matter.
-/

namespace SchemaGate.Yaml

open Utf8 (Octets)

/-- What a tag asks for. The tags of a document's own (`own`) ask for something that plain data
does not have; `other` ones ask for a text. -/
inductive Tag where
  | boolean
  | integer
  | float
  | null
  | own
  | other
  deriving DecidableEq

/-- The text that the handle of the standard tags stands for. -/
def standardTags : String := "tag:yaml.org,2002:"

/-- What a full tag asks for. A tag of a document's own that is not UTF-8 counts for nothing. -/
def Tag.ofOctets? (octets : Octets) : Option Tag :=
  let is (name : String) : Bool := octets == Utf8.encode (standardTags ++ name)
  if is "bool" then some .boolean
  else if is "int" then some .integer
  else if is "float" then some .float
  else if is "null" then some .null
  else
    match octets with
    | 0x21 :: rest => (Utf8.decode? rest).map fun _ => .own
    | _ => some .other

/-- The characters that may stand in the suffix of a tag as they are. -/
def isUriChar (c : Char) : Bool := isNameChar c || ";/?:@&=+$.!~*'()".toList.contains c

/-- How many octets follow the first octet of a sequence, by its leading bits. -/
def followingOctets? (n : Nat) : Option Nat :=
  if n < 0x80 then some 0
  else if 0xc0 ≤ n ∧ n < 0xe0 then some 1
  else if 0xe0 ≤ n ∧ n < 0xf0 then some 2
  else if 0xf0 ≤ n ∧ n < 0xf8 then some 3
  else none

/-- Reads the octets of a suffix, and counts the characters that were used. A percent sign and
two digits stand for an octet; `due` octets of a sequence are still to come, and each has to be
written so. Commas and brackets may stand in it if `bracketed`. -/
def uri? (bracketed : Bool) (due : Nat) (octets : Octets) (used : Nat) :
    List Char → Option (Octets × Nat)
  | '%' :: rest =>
    match rest with
    | a :: b :: rest =>
      match hexDigit? a, hexDigit? b with
      | some x, some y =>
        let n := 16 * x + y
        let left := if due = 0 then followingOctets? n
          else if 0x80 ≤ n ∧ n < 0xc0 then some (due - 1) else none
        match left with
        | some due => uri? bracketed due (n.toUInt8 :: octets) (used + 3) rest
        | none => none
      | _, _ => none
    | _ => none
  | c :: rest =>
    if due ≠ 0 then none
    else if isUriChar c || (bracketed && [',', '[', ']'].contains c) then
      uri? bracketed due (c.toNat.toUInt8 :: octets) (used + 1) rest
    else some (octets.reverse, used)
  | [] => if due ≠ 0 then none else some (octets.reverse, used)

/-- Reads a suffix that has at least one character. -/
def Cursor.uri? (bracketed : Bool) (c : Cursor) : Option (Octets × Cursor) :=
  (Yaml.uri? bracketed 0 [] 0 c.rest).bind fun (octets, used) =>
    if used = 0 then none else some (octets, c.skip used)

/-- Reads an exclamation mark, the name behind it, and a second mark if there is one. -/
def Cursor.handle? (c : Cursor) : Option (String × Cursor) :=
  match c.rest with
  | '!' :: _ =>
    let (name, c) := (c.skip 1).takeWhile isNameChar
    if c.rest.head? = some '!' then some (String.ofList ('!' :: name ++ ['!']), c.skip 1)
    else some (String.ofList ('!' :: name), c)
  | _ => none

/-- Whether an exclamation mark stands at both ends. -/
def isFullHandle (handle : String) : Bool :=
  1 < handle.length && handle.toList.getLast? = some '!'

/-- A tag as it is written: a handle, empty for a tag that is written in full, and a suffix. -/
structure TagText where
  handle : String
  suffix : Octets

/-- Reads a handle with its suffix. What is not a full handle is a part of the suffix of the
handle `!`; that handle alone is the tag `!`. -/
def Cursor.shorthand? (c : Cursor) : Option (TagText × Cursor) :=
  c.handle?.bind fun (handle, after) =>
    if isFullHandle handle then
      (after.uri? false).map fun (suffix, c) => (⟨handle, suffix⟩, c)
    else
      let name := Utf8.encode (String.ofList (handle.toList.drop 1))
      (Yaml.uri? false 0 [] 0 after.rest).map fun (octets, used) =>
        let suffix := name ++ octets
        (if suffix.isEmpty then ⟨"", Utf8.encode "!"⟩ else ⟨"!", suffix⟩, after.skip used)

/-- Reads a tag between angle brackets. -/
def Cursor.verbatim? (c : Cursor) : Option (TagText × Cursor) :=
  ((c.skip 2).uri? true).bind fun (suffix, c) =>
    if c.rest.head? = some '>' then some (⟨"", suffix⟩, c.skip 1) else none

/-- Reads a tag. It has to end a word, but for a comma within a flow collection. -/
def Cursor.tag? (flow : Bool) (c : Cursor) : Option (TagText × Cursor) :=
  let tag := if c.rest[1]? = some '<' then c.verbatim? else c.shorthand?
  tag.bind fun (tag, after) =>
    if endsWord after.rest || (flow && after.rest.head? = some ',') then some (tag, after) else none

/-! ## Directives -/

/-- A directive: the version of the format, or the text that a handle stands for. -/
inductive Directive where
  | version
  | handle (name : String) (text : Octets)

/-- Reads a number of one to nine digits. -/
def Cursor.shortNumber? (c : Cursor) : Option (Nat × Cursor) :=
  let (digits, c) := c.takeWhile Char.isDigit
  if digits.isEmpty || 9 < digits.length then none
  else some (digits.foldl (fun n d => 10 * n + (d.toNat - '0'.toNat)) 0, c)

/-- Reads a version. Versions 1.1 and 1.2 are known. -/
def Cursor.version? (c : Cursor) : Option (Directive × Cursor) :=
  c.skipSpacing.shortNumber?.bind fun (major, c) =>
    if c.rest.head? ≠ some '.' then none
    else
      (c.skip 1).shortNumber?.bind fun (minor, c) =>
        if major = 1 ∧ (minor = 1 ∨ minor = 2) then some (.version, c) else none

/-- Reads a handle and the text that it stands for, with spacing between them. -/
def Cursor.tagHandle? (c : Cursor) : Option (Directive × Cursor) :=
  c.skipSpacing.handle?.bind fun (handle, c) =>
    if ! (handle = "!" || isFullHandle handle) then none
    else if ! c.rest.head?.any isSpacing then none
    else
      (c.skipSpacing.uri? true).bind fun (text, c) =>
        if endsWord c.rest then some (.handle handle text, c) else none

/-- Reads a directive, which takes a line; the cursor stands at the percent sign. -/
def Cursor.directive? (c : Cursor) : Option (Directive × Cursor) :=
  let (name, after) := (c.skip 1).takeWhile isNameChar
  if ! endsWord after.rest then none
  else
    let directive :=
      if name = "YAML".toList then after.version?
      else if name = "TAG".toList then after.tagHandle?
      else none
    directive.bind fun (d, c) => c.finishLine?.map fun c => (d, c)

end SchemaGate.Yaml
