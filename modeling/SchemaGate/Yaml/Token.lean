import SchemaGate.Yaml.Tag

/-!
# Tokens

The pieces of a text. Block collections have no marks of their own: where they start and end
follows from columns, and a mapping from the colon behind its first key. `Layout` holds what is
needed for that.

* `Layout.openBlock` and `Layout.closeBlocks` follow the columns;
* `Layout.offerKey?` notes where a key may start, `Layout.confirmKey` puts the token of a key
  there once a colon is found.
-/

namespace SchemaGate.Yaml

open Utf8 (Octets)

/-- A piece of a text. -/
inductive Token where
  | directive (d : Directive)
  | documentStart
  | documentEnd
  | blockSequence
  | blockMapping
  | blockEnd
  | flowSequence
  | flowSequenceEnd
  | flowMapping
  | flowMappingEnd
  | dash
  | comma
  | key
  | value
  | anchor (name : String)
  | aliasOf (name : String)
  | tag (text : TagText)
  | scalar (plain : Bool) (text : String)

/-- A place where a key may turn out to start: how many tokens stand before it, and whether
nothing but a key can stand there. -/
structure KeyOffer where
  tokens : Nat
  place : Place
  required : Bool

/-- How far a text has been read.

* `columns`: the columns of the open block collections, innermost first;
* `offer`: where a key may start in the innermost collection;
* `outer`: the offers outside of each open flow collection, innermost first;
* `keyAllowed`: whether a key may start at the cursor;
* `tokens`: the tokens so far, newest first, and `count`, their number. -/
structure Layout where
  cursor : Cursor
  columns : List Nat
  offer : Option KeyOffer
  outer : List (Option KeyOffer)
  keyAllowed : Bool
  tokens : List Token
  count : Nat

namespace Layout

/-- The layout at the start of a text. -/
def start (text : List Char) : Layout := ⟨⟨text, ⟨0, 0, 0⟩⟩, [], none, [], true, [], 0⟩

/-- Whether a flow collection is open. -/
def inFlow (l : Layout) : Bool := ! l.outer.isEmpty

/-- The column of the cursor. -/
def column (l : Layout) : Nat := l.cursor.place.column

/-- The column that continued lines have to reach. -/
def floor (l : Layout) : Nat :=
  match l.columns with
  | [] => 0
  | c :: _ => c + 1

/-- Adds a token. -/
def emit (l : Layout) (t : Token) : Layout :=
  { l with tokens := t :: l.tokens, count := l.count + 1 }

/-- Adds a token behind the first `n`. -/
def insert (l : Layout) (n : Nat) (t : Token) : Layout :=
  let later := l.count - n
  { l with
    tokens := l.tokens.take later ++ t :: l.tokens.drop later
    count := l.count + 1 }

/-- Adds a token that takes `n` characters of the line. -/
def take (l : Layout) (n : Nat) (t : Token) : Layout :=
  { l.emit t with cursor := l.cursor.skip n }

/-! ## Columns -/

/-- Opens a block collection at a column that lies further in than the open ones; its token goes
behind the first `n`. -/
def openBlock (l : Layout) (column n : Nat) (t : Token) : Layout :=
  if ! l.inFlow && l.floor ≤ column then
    { l.insert n t with columns := column :: l.columns }
  else l

/-- Closes the block collections whose column is `least` or more. -/
def closeBlocks (l : Layout) (least : Nat) : Layout :=
  if l.inFlow then l
  else
    let closed := (l.columns.takeWhile (least ≤ ·)).length
    { l with
      columns := l.columns.drop closed
      tokens := List.replicate closed .blockEnd ++ l.tokens
      count := l.count + closed }

/-! ## Keys -/

/-- Gives up the offer of the innermost collection, unless a key is required there. -/
def dropOffer? (l : Layout) : Option Layout :=
  if l.offer.any KeyOffer.required then none else some { l with offer := none }

/-- Offers the cursor as the start of a key, where one is allowed. A key is required at the
column of the innermost block collection. -/
def offerKey? (l : Layout) : Option Layout :=
  if l.keyAllowed then
    l.dropOffer?.map fun l =>
      { l with offer := some ⟨l.count, l.cursor.place, ! l.inFlow && l.floor = l.column + 1⟩ }
  else some l

/-- Whether a key that starts at an offer may still end at a place: on the same line, and not
more than 1024 characters further on. -/
def KeyOffer.isOpen (o : KeyOffer) (p : Place) : Bool :=
  p.line ≤ o.place.line && p.index ≤ o.place.index + 1024

/-- Gives up the offers that are no longer open at the cursor. -/
def expireOffers? (l : Layout) : Option Layout :=
  let expired := fun (o : KeyOffer) => ! KeyOffer.isOpen o l.cursor.place
  if (l.offer :: l.outer).any fun o => o.any fun o => o.required && expired o then none
  else
    some { l with
      offer := l.offer.filter fun o => ! expired o
      outer := l.outer.map fun o => o.filter fun o => ! expired o }

/-- Makes an offer a key, which may be the first of a block mapping. -/
def confirmKey (l : Layout) (o : KeyOffer) : Layout :=
  let l := (l.insert o.tokens .key).openBlock o.place.column o.tokens .blockMapping
  { l with offer := none, keyAllowed := false }

/-! ## Flow collections -/

/-- Enters a flow collection. -/
def enterFlow (l : Layout) : Layout :=
  { l with outer := l.offer :: l.outer, offer := none, keyAllowed := true }

/-- Leaves a flow collection, if one is open. -/
def leaveFlow (l : Layout) : Layout :=
  match l.outer with
  | [] => { l with offer := none, keyAllowed := false }
  | o :: outer => { l with offer := o, outer := outer, keyAllowed := false }

end Layout

end SchemaGate.Yaml
