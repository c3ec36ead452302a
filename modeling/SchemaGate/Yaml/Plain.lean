import SchemaGate.Yaml.Line

/-!
# Plain scalars

A scalar without quotes ends at a comment, at a colon that ends a word, at a document mark, at
a line that is not indented far enough and, within a collection written on a line, at the marks
of such collections.
-/

namespace SchemaGate.Yaml

/-- A plain scalar, the cursor behind it, and whether a line ended between the two. -/
structure PlainScalar where
  text : String
  cursor : Cursor
  brokeLine : Bool

/-- Reads a plain scalar on; `text` is what was read so far, newest first. Outside of flow
collections (`flow`) a new line has to reach the column `floor`, and a tab may not stand before
that column. Inside, a colon is refused in front of a flow mark or a question mark. -/
def plain? (flow : Bool) (floor : Nat) (text : List Char) (gap : Gap) (p : Place) :
    List Char → Option PlainScalar
  | [] => some ⟨String.ofList text.reverse, ⟨[], p⟩, gap.breaksLine⟩
  | c :: rest =>
    if isBreak c then plain? flow floor text (gap.addBreak c) p.newLine rest
    else if isSpacing c then
      if c = '\t' && gap.breaksLine && p.column < floor then none
      else plain? flow floor text (gap.addSpacing c) p.next rest
    else if gap.isSome && ((! flow && p.column < floor) || c = '#'
        || (p.column = 0 && isDocumentMark (c :: rest))) then
      some ⟨String.ofList text.reverse, ⟨c :: rest, p⟩, gap.breaksLine⟩
    else if flow && c = ':' && rest.head?.any (fun d => isFlowMark d || d = '?') then none
    else if (c = ':' && endsWord rest) || (flow && isFlowMark c) then
      some ⟨String.ofList text.reverse, ⟨c :: rest, p⟩, gap.breaksLine⟩
    else plain? flow floor (c :: gap.appendTo text) .none p.next rest

/-- Reads a plain scalar from the cursor on. -/
def Cursor.plain? (flow : Bool) (floor : Nat) (c : Cursor) : Option PlainScalar :=
  Yaml.plain? flow floor [] .none c.place c.rest

end SchemaGate.Yaml
