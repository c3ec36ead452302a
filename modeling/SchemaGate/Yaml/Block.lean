import SchemaGate.Yaml.Line

/-!
# Block scalars

A block scalar takes whole lines. Its header says whether lines are folded, what becomes of the
line ends behind the last line (`Chomping`), and how far the lines are indented if the first of
them does not show it.
-/

namespace SchemaGate.Yaml

/-- What becomes of the line ends behind the last line: all go, one stays, or all stay. -/
inductive Chomping where
  | strip
  | clip
  | keep

/-- The chomping mark at the front, if there is one, and what follows it. -/
def chomping? : List Char → Option (Chomping × List Char)
  | '+' :: rest => some (.keep, rest)
  | '-' :: rest => some (.strip, rest)
  | _ => none

/-- The indentation digit at the front, zero if there is none, and what follows it. The digit
zero itself is refused. -/
def indentDigit? : List Char → Option (Nat × List Char)
  | [] => some (0, [])
  | c :: rest =>
    if c = '0' then none
    else if c.isDigit then some (c.toNat - '0'.toNat, rest)
    else some (0, c :: rest)

/-- The two parts of a header, which may stand in either order. -/
def blockHeader? (cs : List Char) : Option (Chomping × Nat × List Char) :=
  match chomping? cs with
  | some (chomping, rest) => (indentDigit? rest).map fun (n, rest) => (chomping, n, rest)
  | none =>
    (indentDigit? cs).map fun (n, rest) =>
      match if n = 0 then none else chomping? rest with
      | some (chomping, rest) => (chomping, n, rest)
      | none => (.clip, n, rest)

/-- A block scalar as far as it has been read. The texts are held newest first.

* `indent`: the column of its lines, zero while it is not known;
* `widest`: the largest column reached by the blank lines before the first line;
* `lineEnd`, `blankLines`: the end of the last line, and those of the blank lines behind it;
* `spaced`: whether the last line starts with spacing;
* `inLine`: whether reading stands within a line. -/
structure BlockText where
  indent : Nat
  widest : Nat
  text : List Char
  lineEnd : Option Char
  blankLines : List Char
  spaced : Bool
  inLine : Bool

namespace BlockText

/-- Nothing read yet. -/
def empty (indent : Nat) : BlockText := ⟨indent, 0, [], none, [], false, false⟩

/-- The column of the lines, where `floor` is the least there can be and the first line starts
at `column`. -/
def indentAt (b : BlockText) (floor column : Nat) : Nat :=
  if b.indent = 0 then max (max b.widest column) (max floor 1) else b.indent

/-- Starts a line whose first character is `c`. A folded line is joined to the one before by a
space, or by the blank lines alone if there are some, unless one of the two starts with
spacing. -/
def startLine (b : BlockText) (folded : Bool) (indent : Nat) (c : Char) : BlockText :=
  let joins := folded && b.lineEnd = some '\n' && ! b.spaced && ! isSpacing c
  let text :=
    if joins then (if b.blankLines.isEmpty then ' ' :: b.text else b.text)
    else b.lineEnd.toList ++ b.text
  { b with
    indent := indent, text := c :: (b.blankLines ++ text), lineEnd := none, blankLines := [],
    spaced := isSpacing c, inLine := true }

/-- The text, with the line ends behind it that the header asks for. -/
def finish (b : BlockText) (chomping : Chomping) : String :=
  let text :=
    match chomping with
    | .strip => b.text
    | .clip => b.lineEnd.toList ++ b.text
    | .keep => b.blankLines ++ b.lineEnd.toList ++ b.text
  String.ofList text.reverse

end BlockText

/-- Reads the lines of a block scalar. A tab may not stand where indentation is expected, and
the first line that is indented less ends the scalar. -/
def blockLines? (folded : Bool) (floor : Nat) (b : BlockText) (p : Place) :
    List Char → Option (BlockText × Cursor)
  | [] => some (b, ⟨[], p⟩)
  | c :: rest =>
    if b.inLine then
      if isBreak c then
        blockLines? folded floor { b with inLine := false, lineEnd := some c } p.newLine rest
      else blockLines? folded floor { b with text := c :: b.text } p.next rest
    else if isSpacing c && (b.indent = 0 || p.column < b.indent) then
      if c = '\t' then none else blockLines? folded floor b p.next rest
    else if isBreak c then
      blockLines? folded floor
        { b with widest := max b.widest p.column, blankLines := c :: b.blankLines } p.newLine rest
    else
      let indent := b.indentAt floor p.column
      if p.column = indent then
        blockLines? folded floor (b.startLine folded indent c) p.next rest
      else some (b, ⟨c :: rest, p⟩)

/-- Reads a block scalar; the cursor stands at its mark, and `floor` is one more than the column
of the collection around it, or zero at the outermost level. -/
def Cursor.block? (folded : Bool) (floor : Nat) (c : Cursor) : Option (String × Cursor) :=
  (blockHeader? (c.rest.drop 1)).bind fun (chomping, n, rest) =>
    let header : Cursor := ⟨rest, c.place.skip (c.rest.length - rest.length)⟩
    header.finishLine?.bind fun body =>
      let indent := if n = 0 then 0 else (floor - 1) + n
      (blockLines? folded floor (.empty indent) body.place body.rest).map fun (b, after) =>
        (b.finish chomping, after)

end SchemaGate.Yaml
