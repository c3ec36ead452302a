import SchemaGate.Yaml.Block
import SchemaGate.Yaml.Plain
import SchemaGate.Yaml.Token

/-!
# Lexemes

Which token stands at the cursor, and how it changes the layout. `tokens?` reads a whole text.
-/

namespace SchemaGate.Yaml

/-- The place of the next token behind blanks, comments and line ends. A tab is not blank where
a key may start outside of flow collections; a new line allows keys there. A byte order mark
may start a line. -/
def skipBlanks (flow comment keyAllowed : Bool) (p : Place) : List Char → Cursor × Bool
  | [] => (⟨[], p⟩, keyAllowed)
  | c :: rest =>
    if isBreak c then skipBlanks flow false (keyAllowed || ! flow) p.newLine rest
    else if comment || c = ' ' || (c = '\t' && (flow || ! keyAllowed))
        || (c = '\uFEFF' && p.column = 0) then
      skipBlanks flow comment keyAllowed p.next rest
    else if c = '#' then skipBlanks flow true keyAllowed p.next rest
    else (⟨c :: rest, p⟩, keyAllowed)

namespace Layout

/-- The layout at the next token: blanks are behind the cursor, offers that expired are given
up, and block collections that lie further in than the cursor are closed. -/
def advance? (l : Layout) : Option Layout :=
  let (cursor, keyAllowed) := skipBlanks l.inFlow false l.keyAllowed l.cursor.place l.cursor.rest
  let ahead : Layout := { l with cursor := cursor, keyAllowed := keyAllowed }
  ahead.expireOffers?.map fun l => l.closeBlocks (l.column + 1)

/-- The layout before what stands at the outermost level only: a directive, a document mark or
the end. -/
def outermost? (l : Layout) : Option Layout :=
  (l.closeBlocks 0).dropOffer?.map fun l => { l with keyAllowed := false }

/-- A token that starts a node, which may be a key: no second key may follow on its line. -/
def node? (l : Layout) (read : Cursor → Option (Token × Cursor)) : Option Layout :=
  l.offerKey?.bind fun l =>
    (read l.cursor).map fun (t, cursor) =>
      { l.emit t with cursor := cursor, keyAllowed := false }

/-- The name of an anchor or an alias behind its mark, and the cursor behind that. -/
def name? (c : Cursor) : Option (String × Cursor) :=
  let (name, after) := (c.skip 1).takeWhile isNameChar
  if name.isEmpty then none
  else if endsWord after.rest || after.rest.head?.any "?:,]\x7d%@`".toList.contains then
    some (String.ofList name, after)
  else none

/-- A plain scalar allows keys again if a line ended behind it. -/
def plainScalar? (l : Layout) : Option Layout :=
  l.offerKey?.bind fun l =>
    (l.cursor.plain? l.inFlow l.floor).map fun s =>
      { l.emit (.scalar true s.text) with cursor := s.cursor, keyAllowed := s.brokeLine }

/-- A block scalar takes whole lines, so that keys are allowed behind it. -/
def blockScalar? (l : Layout) (folded : Bool) : Option Layout :=
  l.dropOffer?.bind fun l =>
    (l.cursor.block? folded l.floor).map fun (text, cursor) =>
      { l.emit (.scalar false text) with cursor := cursor, keyAllowed := true }

/-- A flow collection may be a key itself. -/
def openFlow? (l : Layout) (t : Token) : Option Layout :=
  l.offerKey?.map fun l => l.enterFlow.take 1 t

/-- The end of a flow collection. -/
def closeFlow? (l : Layout) (t : Token) : Option Layout :=
  l.dropOffer?.map fun l => l.leaveFlow.take 1 t

/-- A comma. -/
def comma? (l : Layout) : Option Layout :=
  l.dropOffer?.map fun l => { l.take 1 .comma with keyAllowed := true }

/-- A dash may open a block sequence where a key is allowed. -/
def dash? (l : Layout) : Option Layout :=
  if ! l.inFlow && ! l.keyAllowed then none
  else
    (l.openBlock l.column l.count .blockSequence).dropOffer?.map fun l =>
      { l.take 1 .dash with keyAllowed := true }

/-- The mark of a key may open a block mapping where a key is allowed. -/
def keyMark? (l : Layout) : Option Layout :=
  if ! l.inFlow && ! l.keyAllowed then none
  else
    (l.openBlock l.column l.count .blockMapping).dropOffer?.map fun l =>
      { l.take 1 .key with keyAllowed := ! l.inFlow }

/-- A colon makes the offer before it a key, if there is one; else it follows a marked key. -/
def colon? (l : Layout) : Option Layout :=
  match l.offer with
  | some o => some ((l.confirmKey o).take 1 .value)
  | none =>
    if ! l.inFlow && ! l.keyAllowed then none
    else
      let l := l.openBlock l.column l.count .blockMapping
      some { l.take 1 .value with keyAllowed := ! l.inFlow }

/-- Whether a plain scalar may start with `c`, given what follows it. -/
def startsPlain (flow : Bool) (c : Char) (after : List Char) : Bool :=
  if c = '-' then ! after.head?.any isSpacing
  else if c = '?' || c = ':' then ! flow && ! endsWord after
  else ! (isSpacing c || isBreak c || isFlowMark c || "#&*!|>'\"%@`".toList.contains c)

/-- The layout behind the token at the cursor; `c` and `after` are the text there. -/
def token? (l : Layout) (c : Char) (after : List Char) : Option Layout :=
  let flow := l.inFlow
  let word := flow || endsWord after
  if l.column = 0 && c = '%' then
    l.outermost?.bind fun l =>
      l.cursor.directive?.map fun (d, cursor) => { l.emit (.directive d) with cursor := cursor }
  else if l.column = 0 && isDocumentMark (c :: after) then
    l.outermost?.map fun l => l.take 3 (if c = '-' then .documentStart else .documentEnd)
  else if c = '[' then l.openFlow? .flowSequence
  else if c = '\x7b' then l.openFlow? .flowMapping
  else if c = ']' then l.closeFlow? .flowSequenceEnd
  else if c = '\x7d' then l.closeFlow? .flowMappingEnd
  else if c = ',' then l.comma?
  else if c = '-' && endsWord after then l.dash?
  else if c = '?' && word then l.keyMark?
  else if c = ':' && word then l.colon?
  else if c = '*' then l.node? fun c => (name? c).map fun (n, c) => (.aliasOf n, c)
  else if c = '&' then l.node? fun c => (name? c).map fun (n, c) => (.anchor n, c)
  else if c = '!' then l.node? fun c => (c.tag? flow).map fun (t, c) => (.tag t, c)
  else if c = '|' && ! flow then l.blockScalar? false
  else if c = '>' && ! flow then l.blockScalar? true
  else if c = '\'' then l.node? fun c => (c.quoted? false).map fun (s, c) => (.scalar false s, c)
  else if c = '"' then l.node? fun c => (c.quoted? true).map fun (s, c) => (.scalar false s, c)
  else if startsPlain flow c after then l.plainScalar?
  else none

/-- Reads on to the end of a text of `size` characters. Every token takes a character, so that
reading that stands still never happens; it would end there. -/
def run? (size : Nat) (l : Layout) : Option (List Token) :=
  match l.advance? with
  | none => none
  | some l' =>
    match l'.cursor.rest with
    | [] => l'.outermost?.map fun l => l.tokens.reverse
    | c :: after =>
      match l'.token? c after with
      | none => none
      | some l'' =>
        if l.cursor.place.index < l''.cursor.place.index ∧ l''.cursor.place.index ≤ size then
          run? size l''
        else none
termination_by size - l.cursor.place.index

end Layout

/-- The tokens of a text, if it consists of tokens. -/
def tokens? (text : String) : Option (List Token) :=
  (lines? text.toList).bind fun cs => (Layout.start cs).run? cs.length

end SchemaGate.Yaml
