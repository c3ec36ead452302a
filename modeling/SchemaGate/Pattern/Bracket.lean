import SchemaGate.Pattern.Escape

/-!
# Bracketed sets

Sets between brackets: characters, ranges, named sets and further brackets side by side are
united; `&&`, `--` and `~~` combine what stands on their two sides, from left to right. A
bracket that opens may deny the whole set with a caret, and a hyphen or a closing bracket right
behind it stands for itself.
-/

namespace SchemaGate.Pattern

/-- How two sides of a bracketed set combine. -/
inductive SetOp where
  | meet
  | without
  | either
  deriving DecidableEq

/-- The set of both sides. Each side is taken with its partners of the other case first. -/
def SetOp.apply (op : SetOp) (flags : Flags) (a b : CharSet) : CharSet :=
  let a := withCase flags a
  let b := withCase flags b
  match op with
  | meet => .meet a b
  | without => .without a b
  | either => .either a b

/-- A bracket under way: whether it is denied, the left side of an operation that waits for its
right side, and the members read since, in reverse. -/
structure OpenSet where
  negated : Bool
  pending : Option (Nested CharSet × SetOp)
  members : List (Nested CharSet)

namespace OpenSet

/-- The members so far as one set. -/
def united (o : OpenSet) (flags : Flags) : Nested CharSet :=
  let now := CharSet.unions (o.members.reverse.map Nested.value)
  let height := Nested.heightOf o.members
  match o.pending with
  | some (left, op) => ⟨op.apply flags left.value now, max left.height height + 1⟩
  | none => ⟨now, height⟩

/-- Adds a member. -/
def add (o : OpenSet) (s : Nested CharSet) : OpenSet := { o with members := s :: o.members }

/-- Starts the right side of an operation. -/
def operate (o : OpenSet) (flags : Flags) (op : SetOp) : OpenSet :=
  { o with pending := some (o.united flags, op), members := [] }

/-- The finished set. -/
def close (o : OpenSet) (flags : Flags) : Nested CharSet :=
  let s := o.united flags
  ⟨negateIf o.negated (withCase flags s.value), s.height + 1⟩

end OpenSet

/-- Reads the hyphens and the bracket that may stand for themselves at the front. -/
def readFront (flags : Flags) (o : OpenSet) : List Char → OpenSet × List Char
  | [] => (o, [])
  | c :: rest =>
    if c = '-' then readFront flags (o.add (.leaf (.single '-'))) rest
    else if flags.extended && Text.isBlank c then readFront flags o rest
    else if c = ']' ∧ o.members.isEmpty then (o.add (.leaf (.single ']')), rest)
    else (o, c :: rest)

/-- Reads the front of a bracket, after the bracket itself. -/
def readOpening (flags : Flags) (cs : List Char) : OpenSet × List Char :=
  match skip flags cs with
  | '^' :: rest => readFront flags ⟨true, none, []⟩ (skip flags rest)
  | rest => readFront flags ⟨false, none, []⟩ rest

/-- Reads a class between colons, after the bracket that opens it. -/
def readColonClass (flags : Flags) (cs : List Char) : Read CharSet :=
  match cs with
  | ':' :: rest =>
    let (negated, rest) := match rest with
      | '^' :: more => (true, more)
      | more => (false, more)
    let name := String.ofList (rest.takeWhile (· != ':'))
    match rest.dropWhile (· != ':') with
    | ':' :: ']' :: after =>
      if negated && !flags.unicode then none
      else (CharSet.classNamed? name).map fun s => (negateIf negated s, after)
    | _ => none
  | _ => none

/-- Reads one character or set of a bracket. -/
def readMember (flags : Flags) : List Char → Read Escape
  | [] => none
  | '\\' :: rest => readEscape flags rest
  | c :: rest => some (.char c false, rest)

/-- The character that may bound a range. -/
def bound? (flags : Flags) : Escape → Option Char
  | .char c octet => if !flags.unicode && (octet || 0x80 ≤ c.toNat) then none else some c
  | _ => none

/-- The member that something read in a bracket is. -/
def member? (flags : Flags) (e : Escape) : Option CharSet :=
  match e with
  | .set s => some s
  | .look _ => none
  | .char _ _ => (bound? flags e).map CharSet.single

/-- Reads a character, a range or a set of a bracket. -/
def readRange (flags : Flags) (cs : List Char) : Read CharSet :=
  (readMember flags cs).bind fun (first, rest) =>
    let alone : Read CharSet := (member? flags first).map fun s => (s, skip flags rest)
    match skip flags rest with
    | '-' :: more =>
      match skip flags more with
      | ']' :: _ => alone
      | '-' :: _ => alone
      | more =>
        (readMember flags more).bind fun (last, after) =>
          match bound? flags first, bound? flags last with
          | some a, some b => if a ≤ b then some (.range a.toNat b.toNat, after) else none
          | _, _ => none
    | _ => alone

/-- One step inside brackets: the brackets still open, innermost first, or the finished set. -/
def bracketStep (flags : Flags) (current : OpenSet) (outer : List OpenSet) (cs : List Char) :
    Read (Nested CharSet ⊕ (OpenSet × List OpenSet)) :=
  match cs with
  | [] => none
  | '[' :: rest =>
    match readColonClass flags rest with
    | some (s, after) => some (.inr (current.add (.leaf s), outer), after)
    | none =>
      let (inner, after) := readOpening flags rest
      some (.inr (inner, current :: outer), after)
  | ']' :: rest =>
    let s := current.close flags
    match outer with
    | [] => some (.inl s, rest)
    | next :: more => some (.inr (next.add s, more), rest)
  | '&' :: '&' :: rest => some (.inr (current.operate flags .meet, outer), rest)
  | '-' :: '-' :: rest => some (.inr (current.operate flags .without, outer), rest)
  | '~' :: '~' :: rest => some (.inr (current.operate flags .either, outer), rest)
  | cs => (readRange flags cs).map fun (s, rest) => (.inr (current.add (.leaf s), outer), rest)

/-- Reads the inside of brackets. Every step takes a character; the test on lengths says so to
the recursion. -/
def readBrackets (flags : Flags) (current : OpenSet) (outer : List OpenSet) (cs : List Char) :
    Read (Nested CharSet) :=
  match bracketStep flags current outer (skip flags cs) with
  | none => none
  | some (.inl s, rest) => some (s, rest)
  | some (.inr (current, outer), rest) =>
    if rest.length < cs.length then readBrackets flags current outer rest else none
termination_by cs.length

/-- Reads a bracketed set after its opening bracket. -/
def readBracketed (flags : Flags) (cs : List Char) : Read (Nested CharSet) :=
  let (o, rest) := readOpening flags cs
  (readBrackets flags o [] rest).bind fun (s, rest) =>
    if o.negated && !flags.unicode then none else some (s, rest)

end SchemaGate.Pattern
