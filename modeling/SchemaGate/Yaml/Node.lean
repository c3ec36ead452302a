import SchemaGate.Entries
import SchemaGate.Yaml.Token

/-!
# Nodes

The tree that the tokens of a text describe. A scalar may be missing where a node is expected;
it is then an empty one.

* `named?` gives anchors the numbers that aliases refer to;
* `document?` builds the tree of a text that holds one document.
-/

namespace SchemaGate.Yaml

open Utf8 (Octets)

/-- What is written in front of a node: the number of its anchor, and its tag. -/
structure Properties where
  anchor : Option Nat
  tag : Option Tag

/-- A node of a document. -/
inductive Node where
  | aliasOf (anchor : Nat)
  | scalar (properties : Properties) (plain : Bool) (text : String)
  | sequence (properties : Properties) (items : List Node)
  | mapping (properties : Properties) (entries : List (Node × Node))

namespace Node

/-- The node that stands where nothing is written. -/
def blank : Node := .scalar ⟨none, none⟩ true ""

mutual

/-- How many steps a walk through the tree takes: one for a leaf, and one at each end of a
collection. -/
def steps : Node → Nat
  | aliasOf _ => 1
  | scalar _ _ _ => 1
  | sequence _ items => 2 + stepsOfItems items
  | mapping _ entries => 2 + stepsOfEntries entries

def stepsOfItems : List Node → Nat
  | [] => 0
  | n :: rest => n.steps + stepsOfItems rest

def stepsOfEntries : List (Node × Node) → Nat
  | [] => 0
  | (k, v) :: rest => k.steps + v.steps + stepsOfEntries rest

end

mutual

/-- The anchored nodes, those that start later in front. -/
def anchored (found : List (Nat × Node)) : Node → List (Nat × Node)
  | aliasOf _ => found
  | scalar p plain text => note p (.scalar p plain text) found
  | sequence p items => anchoredItems (note p (.sequence p items) found) items
  | mapping p entries => anchoredEntries (note p (.mapping p entries) found) entries
where
  /-- Notes a node under its anchor, if it has one. -/
  note (p : Properties) (n : Node) (found : List (Nat × Node)) : List (Nat × Node) :=
    match p.anchor with
    | some a => (a, n) :: found
    | none => found

def anchoredItems (found : List (Nat × Node)) : List Node → List (Nat × Node)
  | [] => found
  | n :: rest => anchoredItems (anchored found n) rest

def anchoredEntries (found : List (Nat × Node)) : List (Node × Node) → List (Nat × Node)
  | [] => found
  | (k, v) :: rest => anchoredEntries (anchored (anchored found k) v) rest

end

end Node

/-! ## Anchors -/

/-- A token whose anchors and aliases are numbers. -/
inductive Piece where
  | anchor (number : Nat)
  | aliasOf (number : Nat)
  | token (t : Token)

/-- Numbers the anchors. An anchor gets the number of different names before it, so that a name
that is given again is a new anchor; an alias has the number that its name had last. An alias
without an anchor before it is refused. -/
def named? (names : Entries Nat) : List Token → Option (List Piece)
  | [] => some []
  | .anchor name :: rest =>
    let number := names.length
    (named? (Entries.put name number names) rest).map (.anchor number :: ·)
  | .aliasOf name :: rest =>
    (Entries.get? name names).bind fun number => (named? names rest).map (.aliasOf number :: ·)
  | t :: rest => (named? names rest).map (.token t :: ·)

/-! ## Trees -/

/-- The full tag that a written one stands for, where handles stand for these texts. The tag `!`
asks for nothing in front of a scalar. -/
def resolveTag? (handles : Entries Octets) (t : TagText) : Option Octets :=
  if t.handle.isEmpty then some t.suffix
  else (Entries.get? t.handle handles).map (· ++ t.suffix)

/-- The properties at the front, an anchor and a tag in either order, and what follows them.
The tag is in full. -/
def properties? (handles : Entries Octets) :
    List Piece → Option (Option Nat × Option Octets × List Piece)
  | .anchor a :: .token (.tag t) :: rest =>
    (resolveTag? handles t).map fun tag => (some a, some tag, rest)
  | .anchor a :: rest => some (some a, none, rest)
  | .token (.tag t) :: .anchor a :: rest =>
    (resolveTag? handles t).map fun tag => (some a, some tag, rest)
  | .token (.tag t) :: rest => (resolveTag? handles t).map fun tag => (none, some tag, rest)
  | rest => some (none, none, rest)

theorem length_properties_le {handles : Entries Octets} {ps rest : List Piece} {a : Option Nat}
    {t : Option Octets} (h : properties? handles ps = some (a, t, rest)) :
    rest.length ≤ ps.length := by
  unfold properties? at h
  split at h <;> simp_all <;> grind

/-- What was read from pieces, with those that are left: fewer than `n`. -/
structure Parsed (α : Type) (n : Nat) where
  value : α
  rest : List Piece
  fewer : rest.length < n

namespace Parsed

/-- The same with a weaker bound. -/
def widen {α : Type} {m n : Nat} (p : Parsed α m) (h : m ≤ n) : Parsed α n :=
  ⟨p.value, p.rest, Nat.lt_of_lt_of_le p.fewer h⟩

/-- Another value, read from the same pieces. -/
def map {α β : Type} {n : Nat} (f : α → β) (p : Parsed α n) : Parsed β n :=
  ⟨f p.value, p.rest, p.fewer⟩

end Parsed

/-- Where a node may be missing: in front of the next part of a collection on lines. -/
def endsBlockPart : List Piece → Bool
  | .token .key :: _ => true
  | .token .value :: _ => true
  | .token .blockEnd :: _ => true
  | _ => false

/-- The same for an item of a block sequence, where the next dash ends it too. -/
def endsBlockItem (indentless : Bool) : List Piece → Bool
  | .token .dash :: _ => true
  | .token .blockEnd :: _ => true
  | .token .key :: _ => indentless
  | .token .value :: _ => indentless
  | _ => false

/-- Where a node may be missing between the brackets that `close` closes. -/
def endsFlowPart (close : Piece → Bool) : List Piece → Bool
  | .token .comma :: _ => true
  | p :: _ => close p
  | [] => false

/-- Whether a piece ends a flow sequence. -/
def closesSequence : Piece → Bool
  | .token .flowSequenceEnd => true
  | _ => false

/-- Whether a piece ends a flow mapping. -/
def closesMapping : Piece → Bool
  | .token .flowMappingEnd => true
  | _ => false

/-- Whether a colon follows. -/
def startsValue : List Piece → Bool
  | .token .value :: _ => true
  | _ => false

/-- The next part between brackets: the first one stands right there, a later one behind a
comma, and the closing bracket may stand in either place. -/
def nextPart? (close : Piece → Bool) (first : Bool) : List Piece → Option (List Piece)
  | [] => none
  | .token .comma :: rest => some (if first then .token .comma :: rest else rest)
  | p :: rest => if first || close p then some (p :: rest) else none

theorem length_nextPart_le {close : Piece → Bool} {first : Bool} {ps rest : List Piece}
    (h : nextPart? close first ps = some rest) : rest.length ≤ ps.length := by
  unfold nextPart? at h
  split at h <;> grind

/-- How the content of a node starts. The items of a block sequence are `indentless` if they
stand at the column of the mapping around them. -/
inductive Opening where
  | scalar (plain : Bool) (text : String)
  | flowSequence
  | flowMapping
  | blockItems (indentless : Bool)
  | blockMapping

/-- The start of a node's content, and what follows it. Block collections may start if `block`,
and items at the column of the mapping around them if `indentless`. -/
def opening? (block indentless : Bool) : List Piece → Option (Opening × List Piece)
  | .token (.scalar plain text) :: rest => some (.scalar plain text, rest)
  | .token .flowSequence :: rest => some (.flowSequence, rest)
  | .token .flowMapping :: rest => some (.flowMapping, rest)
  | .token .dash :: rest => if indentless then some (.blockItems true, rest) else none
  | .token .blockSequence :: .token .dash :: rest =>
    if block then some (.blockItems false, rest) else none
  | .token .blockMapping :: rest => if block then some (.blockMapping, rest) else none
  | _ => none

theorem length_opening_lt {block indentless : Bool} {ps rest : List Piece} {o : Opening}
    (h : opening? block indentless ps = some (o, rest)) : rest.length < ps.length := by
  unfold opening? at h
  split at h <;> grind

/-- Whether the key of a mapping inside a flow sequence is missing. -/
def lacksKey (ps : List Piece) : Bool := startsValue ps || endsFlowPart closesSequence ps

/-- Where such a key is missing, the piece in its place is lost. -/
def afterLostPiece (ps : List Piece) : List Piece := if lacksKey ps then ps.tail else ps

theorem length_afterLostPiece_le (ps : List Piece) : (afterLostPiece ps).length ≤ ps.length := by
  unfold afterLostPiece
  split <;> simp

mutual

/-- A node: its properties and its content, of which one may be missing. -/
def node? (handles : Entries Octets) (block indentless : Bool) (ps : List Piece) :
    Option (Parsed Node ps.length) :=
  match ps with
  | .aliasOf a :: rest => some ⟨.aliasOf a, rest, by simp⟩
  | ps =>
    match hp : properties? handles ps with
    | none => none
    | some (anchor, full, content) =>
      have kept := length_properties_le hp
      let p : Properties := ⟨anchor, full.bind Tag.ofOctets?⟩
      match ho : opening? block indentless content with
      | none =>
        if h : content.length < ps.length then some ⟨.scalar p true "", content, h⟩ else none
      | some (o, rest) =>
        have taken := length_opening_lt ho
        match o with
        | .scalar plain text =>
          let tag := if full = some (Utf8.encode "!") then none else p.tag
          some ⟨.scalar ⟨anchor, tag⟩ plain text, rest, by omega⟩
        | .flowSequence =>
          (flowItems? handles true [] rest).map fun r => (r.map (.sequence p)).widen (by omega)
        | .flowMapping =>
          (flowEntries? handles true [] rest).map fun r => (r.map (.mapping p)).widen (by omega)
        | .blockItems loose =>
          (blockItems? handles loose [] rest).map fun r =>
            (r.map (.sequence p)).widen (by omega)
        | .blockMapping =>
          (blockEntries? handles [] rest).map fun r => (r.map (.mapping p)).widen (by omega)
termination_by 8 * ps.length + 1
decreasing_by all_goals grind

/-- A node that is missing where something else is next. -/
def nodeUnless? (handles : Entries Octets) (missing block indentless : Bool) (ps : List Piece) :
    Option (Parsed Node (ps.length + 1)) :=
  if missing then some ⟨.blank, ps, by omega⟩
  else (node? handles block indentless ps).map fun r => r.widen (by omega)
termination_by 8 * ps.length + 2
decreasing_by all_goals grind

/-- The value behind a key, missing if there is no colon. `ends` says what ends it. -/
def value? (handles : Entries Octets) (ends : List Piece → Bool) (block : Bool)
    (ps : List Piece) : Option (Parsed Node (ps.length + 1)) :=
  match ps with
  | .token .value :: rest =>
    (nodeUnless? handles (ends rest) block block rest).map fun r => r.widen (by simp)
  | ps => some ⟨.blank, ps, by omega⟩
termination_by 8 * ps.length + 2
decreasing_by all_goals grind

/-- The items of a block sequence, from behind a dash on; `items` are those before, newest
first. -/
def blockItems? (handles : Entries Octets) (indentless : Bool) (items : List Node)
    (ps : List Piece) : Option (Parsed (List Node) (ps.length + 1)) :=
  match nodeUnless? handles (endsBlockItem indentless ps) true false ps with
  | none => none
  | some ⟨item, after, h⟩ =>
    let items := item :: items
    match after, h with
    | .token .dash :: rest, h =>
      have fewer : rest.length < ps.length := by simp at h; omega
      (blockItems? handles indentless items rest).map fun r => r.widen (by omega)
    | .token .blockEnd :: rest, h =>
      if indentless then some ⟨items.reverse, .token .blockEnd :: rest, h⟩
      else some ⟨items.reverse, rest, by simp at h; omega⟩
    | rest, h => if indentless then some ⟨items.reverse, rest, h⟩ else none
termination_by 8 * ps.length + 3
decreasing_by all_goals grind

/-- The entries of a block mapping; `entries` are those before, newest first. -/
def blockEntries? (handles : Entries Octets) (entries : List (Node × Node)) (ps : List Piece) :
    Option (Parsed (List (Node × Node)) ps.length) :=
  match ps with
  | .token .blockEnd :: rest => some ⟨entries.reverse, rest, by simp⟩
  | .token .key :: rest =>
    match nodeUnless? handles (endsBlockPart rest) true true rest with
    | none => none
    | some ⟨key, afterKey, h⟩ =>
      match value? handles endsBlockPart true afterKey with
      | none => none
      | some ⟨value, after, h'⟩ =>
        (blockEntries? handles ((key, value) :: entries) after).map fun r =>
          r.widen (by simp only [List.length_cons]; omega)
  | _ => none
termination_by 8 * ps.length + 0
decreasing_by all_goals grind

/-- A mapping of one entry as an item of a flow sequence, from behind the mark of its key
on. -/
def pair? (handles : Entries Octets) (ps : List Piece) : Option (Parsed Node (ps.length + 1)) :=
  have kept := length_afterLostPiece_le ps
  match nodeUnless? handles (lacksKey ps) false false (afterLostPiece ps) with
  | none => none
  | some ⟨key, afterKey, h⟩ =>
    (value? handles (endsFlowPart closesSequence) false afterKey).map fun r =>
      (r.map fun value => .mapping ⟨none, none⟩ [(key, value)]).widen (by omega)
termination_by 8 * ps.length + 3
decreasing_by all_goals grind

/-- The items of a flow sequence; `items` are those before, newest first. -/
def flowItems? (handles : Entries Octets) (first : Bool) (items : List Node)
    (ps : List Piece) : Option (Parsed (List Node) ps.length) :=
  match hn : nextPart? closesSequence first ps with
  | none => none
  | some part =>
    have kept := length_nextPart_le hn
    match part with
    | .token .flowSequenceEnd :: rest => some ⟨items.reverse, rest, by simp at kept; omega⟩
    | .token .key :: rest =>
      match pair? handles rest with
      | none => none
      | some ⟨item, after, h⟩ =>
        (flowItems? handles false (item :: items) after).map fun r =>
          r.widen (by simp at kept; omega)
    | part =>
      match node? handles false false part with
      | none => none
      | some ⟨item, after, h⟩ =>
        (flowItems? handles false (item :: items) after).map fun r => r.widen (by omega)
termination_by 8 * ps.length + 4
decreasing_by all_goals grind

/-- The entries of a flow mapping; `entries` are those before, newest first. A node without the
mark of a key is a key without a value. -/
def flowEntries? (handles : Entries Octets) (first : Bool) (entries : List (Node × Node))
    (ps : List Piece) : Option (Parsed (List (Node × Node)) ps.length) :=
  match hn : nextPart? closesMapping first ps with
  | none => none
  | some part =>
    have kept := length_nextPart_le hn
    match part with
    | .token .flowMappingEnd :: rest => some ⟨entries.reverse, rest, by simp at kept; omega⟩
    | .token .key :: rest =>
      match nodeUnless? handles (startsValue rest || endsFlowPart closesMapping rest) false false
          rest with
      | none => none
      | some ⟨key, afterKey, h⟩ =>
        have fewer : afterKey.length < ps.length := by simp at kept; omega
        match value? handles (endsFlowPart closesMapping) false afterKey with
        | none => none
        | some ⟨value, after, h'⟩ =>
          (flowEntries? handles false ((key, value) :: entries) after).map fun r =>
            r.widen (by omega)
    | part =>
      match node? handles false false part with
      | none => none
      | some ⟨key, after, h⟩ =>
        (flowEntries? handles false ((key, .blank) :: entries) after).map fun r =>
          r.widen (by omega)
termination_by 8 * ps.length + 4
decreasing_by all_goals grind

end

/-! ## Documents -/

/-- What the directives at the front say that handles stand for. A version or a handle may be
given once only. -/
def directives? (version : Bool) (handles : Entries Octets) :
    List Token → Option (Entries Octets × List Token)
  | .directive .version :: rest => if version then none else directives? true handles rest
  | .directive (.handle name text) :: rest =>
    if Entries.has name handles then none
    else directives? version (Entries.put name text handles) rest
  | rest => some (handles, rest)

/-- The handles that stand for something without a directive. -/
def standardHandles : Entries Octets :=
  [("!", Utf8.encode "!"), ("!!", Utf8.encode standardTags)]

/-- Whether a document that was opened by a mark has no content. -/
def endsDocument : List Token → Bool
  | [] => true
  | .directive _ :: _ => true
  | .documentStart :: _ => true
  | .documentEnd :: _ => true
  | _ => false

/-- Whether nothing but marks of a document's end is left. -/
def isOver (ps : List Piece) : Bool :=
  ps.all fun
    | .token .documentEnd => true
    | _ => false

/-- The tree of a document's content. A blank node is allowed if its start is `marked`. -/
def content? (declared : Entries Octets) (marked : Bool) (content : List Token) : Option Node :=
  (named? [] content).bind fun ps =>
    let handles := Entries.putAll declared standardHandles
    (nodeUnless? handles (marked && endsDocument content) true false ps).bind fun r =>
      if isOver r.rest then some r.value else none

/-- The tree of tokens that hold one document at most; no document at all is a blank node.
Directives have to be followed by the mark of a document's start. -/
def document? (ts : List Token) : Option Node :=
  if ts.isEmpty then some .blank
  else
    (directives? false [] ts).bind fun (declared, rest) =>
      match rest with
      | .documentStart :: content => content? declared true content
      | content => if content.length < ts.length then none else content? declared false content

end SchemaGate.Yaml
