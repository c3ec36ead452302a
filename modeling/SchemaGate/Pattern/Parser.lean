import SchemaGate.Pattern.Bracket
import SchemaGate.Pattern.Weight

/-!
# Reading patterns

A pattern is read in one pass over its characters. The groups that are open form a stack; each
keeps the alternatives and the items of its current alternative. Flags that a group sets end
with the group.

* `Pattern.Level` is a group under way;
* `Pattern.step` reads one item;
* `Pattern.parse?` reads a whole pattern, or finds that it is none.

A text may have the form of a pattern and still be none: one that nests too many levels, or
whose program would be too large.
-/

namespace SchemaGate.Pattern

/-- An item of an alternative. Switching flags is an item too, but one that cannot be repeated. -/
structure Item where
  part : Nested Expr
  repeatable : Bool

/-- A group under way, with the flags to go back to when it closes. Alternatives and items are
kept in reverse. -/
structure Level where
  outside : Flags
  alternatives : List (Nested Expr)
  items : List Item

namespace Level

/-- A group that has just opened. -/
def start (outside : Flags) : Level := ⟨outside, [], []⟩

/-- Adds an item. -/
def add (l : Level) (e : Nested Expr) : Level := { l with items := ⟨e, true⟩ :: l.items }

/-- The items of the current alternative as one expression. -/
def current (l : Level) : Nested Expr :=
  let parts := l.items.reverse.map Item.part
  ⟨Expr.seqAll (parts.map Nested.value), Nested.heightOf parts⟩

/-- Starts the next alternative. -/
def next (l : Level) : Level :=
  { l with alternatives := l.current :: l.alternatives, items := [] }

/-- What the group holds. -/
def content (l : Level) : Nested Expr :=
  let last := l.current
  ⟨l.alternatives.foldl (fun e a => .alt a.value e) last.value,
    Nested.heightOf (last :: l.alternatives)⟩

/-- The finished group. -/
def close (l : Level) : Nested Expr := ⟨l.content.value, l.content.height + 1⟩

/-- Repeats the last item. -/
def repeatLast? (l : Level) (least : Nat) (most : Option Nat) : Option Level :=
  match l.items with
  | ⟨e, true⟩ :: before =>
    some { l with items := ⟨⟨.times e.value least most, e.height + 1⟩, true⟩ :: before }
  | _ => none

end Level

/-- Where reading stands: the current group, the groups around it, the flags in force, and the
names that groups have taken. -/
structure State where
  level : Level
  outer : List Level
  flags : Flags
  names : List (List Char)

namespace State

/-- Adds an item without parts to the current group. -/
def add (s : State) (e : Expr) : State := { s with level := s.level.add (.leaf e) }

/-- Opens a group in which some flags are in force. -/
def open_ (s : State) (flags : Flags) : State :=
  { s with level := .start s.flags, outer := s.level :: s.outer, flags }

end State

/-- One character as an expression. -/
def literal (flags : Flags) (c : Char) : Option Expr :=
  if flags.insensitive && !flags.unicode && 0x80 ≤ c.toNat then none
  else some (.char (withCase flags (.single c)))

/-- What an escape is outside brackets. -/
def Escape.expr? (flags : Flags) : Escape → Option Expr
  | .char c octet => if octet && !flags.unicode then none else literal flags c
  | .set s => some (.char s)
  | .look condition => some (.look condition)

/-- Whether a character may stand in the name of a group. -/
def isNameChar (first : Bool) (c : Char) : Bool :=
  c == '_' || CharSet.hasProperty "Alphabetic" c.toNat ||
    (!first && (c == '.' || c == '[' || c == ']' ||
      ["Nd", "Nl", "No"].any fun k => CharSet.inCategory k c.toNat))

/-- Opens a group that has a name. -/
def openNamed (s : State) (cs : List Char) : Read State :=
  let name := cs.takeWhile (· != '>')
  match name, cs.dropWhile (· != '>') with
  | c :: more, _ :: rest =>
    if isNameChar true c && more.all (isNameChar false) && !s.names.contains name then
      some ({ s.open_ s.flags with names := name :: s.names }, rest)
    else none
  | _, _ => none

/-- Reads what follows an opening parenthesis. -/
def openGroup (s : State) (cs : List Char) : Read State :=
  match skip s.flags cs with
  | '?' :: '=' :: _ => none
  | '?' :: '!' :: _ => none
  | '?' :: '<' :: '=' :: _ => none
  | '?' :: '<' :: '!' :: _ => none
  | '?' :: 'P' :: '<' :: rest => openNamed s rest
  | '?' :: '<' :: rest => openNamed s rest
  | '?' :: rest =>
    (readFlags s.flags [] false false rest).bind fun (list, after) =>
      if list.closed then
        if list.any then
          let item : Item := ⟨.leaf .empty, false⟩
          some ({ s with
            level := { s.level with items := item :: s.level.items }
            flags := list.flags }, after)
        else none
      else some (s.open_ list.flags, after)
  | rest => some (s.open_ s.flags, rest)

/-- Drops the mark that makes a repetition reluctant, which decides no match. -/
def dropReluctant : List Char → List Char
  | '?' :: rest => rest
  | rest => rest

/-- Repeats the last item of the current group. -/
def repeated (s : State) (least : Nat) (most : Option Nat) (rest : List Char) : Read State :=
  (s.level.repeatLast? least most).map fun level => ({ s with level }, dropReluctant rest)

/-- Reads a repetition with counts after its opening brace. -/
def readRepeat (s : State) (cs : List Char) : Read State :=
  (readCount s.flags (skip s.flags cs)).bind fun (least, rest) =>
    match rest with
    | '\x7d' :: rest => repeated s least (some least) (skip s.flags rest)
    | ',' :: rest =>
      match skip s.flags rest with
      | '\x7d' :: rest => repeated s least none (skip s.flags rest)
      | rest =>
        (readCount s.flags rest).bind fun (most, rest) =>
          match rest with
          | '\x7d' :: rest =>
            if least ≤ most then repeated s least (some most) (skip s.flags rest) else none
          | _ => none
    | _ => none

/-- The characters that a dot stands for. -/
def dot (flags : Flags) : CharSet :=
  if flags.dotAll then .any
  else if flags.crlf then .complement (.union (.single '\n') (.single '\r'))
  else .complement (.single '\n')

/-- Reads one item, or closes a group. -/
def step (s : State) (cs : List Char) : Read State :=
  match cs with
  | [] => none
  | '(' :: rest => openGroup s rest
  | ')' :: rest =>
    match s.outer with
    | [] => none
    | l :: outer =>
      some ({ s with level := l.add s.level.close, outer, flags := s.level.outside }, rest)
  | '|' :: rest => some ({ s with level := s.level.next }, rest)
  | '[' :: rest =>
    (readBracketed s.flags rest).map fun (set, rest) =>
      ({ s with level := s.level.add ⟨.char set.value, set.height⟩ }, rest)
  | '?' :: rest => repeated s 0 (some 1) rest
  | '*' :: rest => repeated s 0 none rest
  | '+' :: rest => repeated s 1 none rest
  | '\x7b' :: rest => readRepeat s rest
  | '\\' :: rest =>
    (readEscape s.flags rest).bind fun (e, rest) =>
      (e.expr? s.flags).map fun e => (s.add e, rest)
  | '.' :: rest => if s.flags.unicode then some (s.add (.char (dot s.flags)), rest) else none
  | '^' :: rest =>
    some (s.add (.look (if s.flags.multiLine then .lineStart s.flags.crlf else .textStart)), rest)
  | '$' :: rest =>
    some (s.add (.look (if s.flags.multiLine then .lineEnd s.flags.crlf else .textEnd)), rest)
  | c :: rest => (literal s.flags c).map fun e => (s.add e, rest)

/-- Reads items up to the end. Every step takes a character; the test on lengths says so to the
recursion. -/
def parseFrom (s : State) (cs : List Char) : Option (Nested Expr) :=
  match skip s.flags cs with
  | [] => if s.outer.isEmpty then some s.level.content else none
  | c :: more =>
    match step s (c :: more) with
    | none => none
    | some (s, rest) => if rest.length < cs.length then parseFrom s rest else none
termination_by cs.length

/-- How many levels a pattern may nest. -/
def heightLimit : Nat := 250

/-- How many octets the program of a pattern may take: ten binary megabytes. -/
def weightLimit : Nat := 10485760

/-- The expression of a pattern, if the text is one that is neither too deep nor too heavy. -/
def parse? (source : String) : Option Expr :=
  (parseFrom ⟨.start {}, [], {}, []⟩ source.toList).bind fun e =>
    if e.height ≤ heightLimit && e.value.weight ≤ weightLimit then some e.value else none

end Pattern

/-- A pattern: its text, and the expression that the text stands for. -/
structure Pattern where
  source : String
  expr : Expr
  deriving DecidableEq

namespace Pattern

/-- Reads a pattern. -/
def ofText? (source : String) : Option Pattern := (parse? source).map fun e => ⟨source, e⟩

/-- Whether the pattern occurs in a text. -/
def occursIn (p : Pattern) (text : String) : Bool := p.expr.matchesIn text

end Pattern

end SchemaGate
