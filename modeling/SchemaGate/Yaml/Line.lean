/-!
# Lines of a YAML text

The characters a text may hold, and where reading stands in it. Line ends are made uniform
before anything else is read, so that one character ends a line.

* `Yaml.lines?` refuses forbidden characters and makes line ends uniform;
* `Place` counts characters and lines, and knows the column;
* `Cursor` is a place together with the text that follows it.
-/

namespace SchemaGate.Yaml

/-- The characters a text may hold: tabs, line ends, and what is neither a control character
nor a non-character of the basic plane. -/
def isAllowed (c : Char) : Bool :=
  let n := c.toNat
  n == 0x09 || n == 0x0a || n == 0x0d || (0x20 ≤ n && n ≤ 0x7e) || n == 0x85
    || (0xa0 ≤ n && n ≤ 0xfffd) || 0x10000 ≤ n

/-- A line feed takes the place of a carriage return, with or without a line feed behind it,
and of a next-line character. -/
def uniform : List Char → List Char → List Char
  | done, [] => done.reverse
  | done, '\r' :: '\n' :: rest => uniform ('\n' :: done) rest
  | done, c :: rest => uniform ((if c = '\r' ∨ c = '\u0085' then '\n' else c) :: done) rest

/-- The text with uniform line ends, if all its characters are allowed. -/
def lines? (text : List Char) : Option (List Char) :=
  if text.all isAllowed then some (uniform [] text) else none

/-! ## Classes -/

/-- What ends a line: a line feed, and the two separators of lines and paragraphs. -/
def isBreak (c : Char) : Bool := c == '\n' || c == '\u2028' || c == '\u2029'

/-- A space or a tab. -/
def isSpacing (c : Char) : Bool := c == ' ' || c == '\t'

/-- The characters of a name: ASCII letters and digits, the low line and the hyphen. -/
def isNameChar (c : Char) : Bool := c.isAlphanum || c == '_' || c == '-'

/-- The marks of collections written on a line. -/
def isFlowMark (c : Char) : Bool := [',', '[', ']', '{', '}'].contains c

/-- Whether a word is over: spacing, a line end or the end of the text follows. -/
def endsWord : List Char → Bool
  | [] => true
  | c :: _ => isSpacing c || isBreak c

/-- Whether a line is over. -/
def endsLine : List Char → Bool
  | [] => true
  | c :: _ => isBreak c

/-- Whether the mark of a document's start or end follows. It counts at a line's start only. -/
def isDocumentMark : List Char → Bool
  | '-' :: '-' :: '-' :: rest => endsWord rest
  | '.' :: '.' :: '.' :: rest => endsWord rest
  | _ => false

/-! ## Places -/

/-- A place in a text: how many characters and how many lines stand before it, and how many
characters stand before its line. -/
structure Place where
  index : Nat
  line : Nat
  lineStart : Nat

namespace Place

/-- How far into its line a place is. -/
def column (p : Place) : Nat := p.index - p.lineStart

/-- The place behind the next `n` characters of the line. -/
def skip (p : Place) (n : Nat) : Place := { p with index := p.index + n }

/-- The place behind the next character of the line. -/
def next (p : Place) : Place := p.skip 1

/-- The place behind the next character, which ends the line. -/
def newLine (p : Place) : Place := ⟨p.index + 1, p.line + 1, p.index + 1⟩

end Place

/-- The text that follows a place. -/
structure Cursor where
  rest : List Char
  place : Place

namespace Cursor

/-- The cursor behind the next `n` characters of the line. -/
def skip (c : Cursor) (n : Nat) : Cursor := ⟨c.rest.drop n, c.place.skip n⟩

/-- The characters of the line up to the first that fails the test, and the cursor there. -/
def takeWhile (c : Cursor) (test : Char → Bool) : List Char × Cursor :=
  let run := c.rest.takeWhile test
  (run, c.skip run.length)

/-- The cursor behind the spacing that follows. -/
def skipSpacing (c : Cursor) : Cursor := (c.takeWhile isSpacing).2

/-- The cursor behind a line end, if one follows. -/
def skipBreak (c : Cursor) : Cursor :=
  match c.rest with
  | [] => c
  | b :: rest => if isBreak b then ⟨rest, c.place.newLine⟩ else c

/-- The cursor on the next line, if nothing but spacing and a comment is left of this one. -/
def finishLine? (c : Cursor) : Option Cursor :=
  let c := c.skipSpacing
  let c := if c.rest.head? = some '#' then (c.takeWhile (! isBreak ·)).2 else c
  if endsLine c.rest then some c.skipBreak else none

end Cursor

/-! ## Gaps between the words of a scalar -/

/-- What stands between two words of a scalar: spacing within a line, or line ends. Characters
are held newest first. The first line end is missing where it was escaped. -/
inductive Gap where
  | spacing (run : List Char)
  | lineEnds (first : Option Char) (later : List Char)

namespace Gap

/-- No gap at all. -/
def none : Gap := .spacing []

/-- Whether something stands between the words. -/
def isSome : Gap → Bool
  | spacing run => ! run.isEmpty
  | lineEnds _ _ => true

/-- Whether the gap reaches over a line end. -/
def breaksLine : Gap → Bool
  | spacing _ => false
  | lineEnds _ _ => true

/-- Spacing counts unless a line end stands before it. -/
def addSpacing (c : Char) : Gap → Gap
  | spacing run => spacing (c :: run)
  | gap => gap

/-- The first line end drops the spacing before it. -/
def addBreak (c : Char) : Gap → Gap
  | spacing _ => lineEnds (some c) []
  | lineEnds first later => lineEnds first (c :: later)

/-- The text, newest first, with a gap behind it. A single line feed becomes a space, a line
feed with more line ends behind it is dropped, and any other gap stays as it is. -/
def appendTo (text : List Char) : Gap → List Char
  | spacing run => run ++ text
  | lineEnds (some '\n') [] => ' ' :: text
  | lineEnds (some '\n') later => later ++ text
  | lineEnds first later => later ++ first.toList ++ text

end Gap

end SchemaGate.Yaml
