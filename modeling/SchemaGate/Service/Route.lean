/-!
# Routes

A route is a path template: text with parameters in braces, each of which stands for one segment
or for the end of one; a parameter with an asterisk stands for the whole rest of a path. A brace
that is written twice is text.

* `Route.ofTemplate?` reads a template, `Route.matches?` finds the values of its parameters;
* `Route.conflicts` says which routes cannot stand side by side;
* `Route.find?` picks the route of a path: text goes before parameters.
-/

namespace SchemaGate

/-- A piece of a template. -/
inductive RoutePiece where
  | char (c : Char)
  | parameter (name : String)
  | remainder (name : String)

/-- A path template and its pieces. -/
structure Route where
  template : String
  pieces : List RoutePiece

namespace Route

/-! ## Templates -/

/-- The characters of a template; `true` marks a brace that was written twice. -/
def unescape : List Char → List (Char × Bool)
  | '\x7b' :: '\x7b' :: rest => ('\x7b', true) :: unescape rest
  | '\x7d' :: '\x7d' :: rest => ('\x7d', true) :: unescape rest
  | c :: rest => (c, false) :: unescape rest
  | [] => []

/-- The parameter with this name, written newest first. A lone asterisk is no name, and a
parameter that stands for the rest of a path has to be the last piece. -/
def piece? (name : List Char) (isLast : Bool) : Option RoutePiece :=
  match name.reverse with
  | [] => none
  | ['*'] => none
  | '*' :: rest => if isLast then some (.remainder (String.ofList rest)) else none
  | cs => some (.parameter (String.ofList cs))

/-- The pieces of a template. Within braces, `name` is the name so far, newest first. A name
has no asterisk or slash behind its first character, and a slash or the end of the template
follows a parameter. -/
def pieces? (name : Option (List Char)) : List (Char × Bool) → Option (List RoutePiece)
  | [] => if name.isNone then some [] else none
  | (c, escaped) :: rest =>
    match name with
    | none =>
      if c = '\x7b' && ! escaped then pieces? (some []) rest
      else if c = '\x7d' && ! escaped then none
      else (pieces? none rest).map (.char c :: ·)
    | some name =>
      if c = '\x7d' && (name.isEmpty || ! escaped) then
        if rest.isEmpty || rest.head?.any (·.1 = '/') then
          (piece? name rest.isEmpty).bind fun p => (pieces? none rest).map (p :: ·)
        else none
      else if ! name.isEmpty && (c = '*' || c = '/') then none
      else pieces? (some (c :: name)) rest

/-- How many parameters stand for one segment. -/
def parameterCount (pieces : List RoutePiece) : Nat :=
  pieces.countP fun
    | .parameter _ => true
    | _ => false

/-- The most parameters that a route may have. -/
def maxParameters : Nat := 25

/-- Whether a segment of a template starts with a colon or an asterisk, given whether reading
stands at the start of a segment. -/
def hasMarkedSegment (atStart : Bool) : List Char → Bool
  | [] => false
  | c :: rest => (atStart && (c = ':' || c = '*')) || hasMarkedSegment (c = '/') rest

/-- The route of a template, if it is one. -/
def ofTemplate? (template : String) : Option Route :=
  let cs := template.toList
  if cs.head? ≠ some '/' || hasMarkedSegment true cs then none
  else
    (pieces? none (unescape cs)).bind fun pieces =>
      if parameterCount pieces ≤ maxParameters then some ⟨template, pieces⟩ else none

/-! ## Matching -/

/-- The values of the parameters in a path that matches the pieces. No value is empty. -/
def matchPieces? : List RoutePiece → List Char → Option (List (String × String))
  | [], cs => if cs.isEmpty then some [] else none
  | .char c :: ps, d :: ds => if c = d then matchPieces? ps ds else none
  | .char _ :: _, [] => none
  | .parameter name :: ps, cs =>
    let value := cs.takeWhile (· ≠ '/')
    if value.isEmpty then none
    else (matchPieces? ps (cs.drop value.length)).map ((name, String.ofList value) :: ·)
  | .remainder name :: _, cs => if cs.isEmpty then none else some [(name, String.ofList cs)]

/-- The values of the parameters in a path that matches a route. -/
def matches? (r : Route) (path : String) : Option (List (String × String)) :=
  matchPieces? r.pieces path.toList

/-! ## Sets of routes -/

/-- Whether templates are the same but for names, or one has a parameter where the other stands
for the rest of a path. -/
def piecesConflict : List RoutePiece → List RoutePiece → Bool
  | [], [] => true
  | .char a :: p, .char b :: q => a = b && piecesConflict p q
  | .parameter _ :: p, .parameter _ :: q => piecesConflict p q
  | .remainder _ :: _, .remainder _ :: _ => true
  | .remainder _ :: _, .parameter _ :: _ => true
  | .parameter _ :: _, .remainder _ :: _ => true
  | _, _ => false

/-- Whether two routes cannot stand side by side. -/
def conflicts (a b : Route) : Bool := piecesConflict a.pieces b.pieces

/-- Whether no two routes of a list conflict. -/
def compatible : List Route → Bool
  | [] => true
  | r :: rest => ! rest.any r.conflicts && compatible rest

/-- Whether the first place where templates differ has text in the first one. -/
def piecesBefore : List RoutePiece → List RoutePiece → Bool
  | .char a :: p, .char b :: q => a = b && piecesBefore p q
  | .char _ :: _, _ :: _ => true
  | .parameter _ :: p, .parameter _ :: q => piecesBefore p q
  | _, _ => false

/-- The better one of two matches. -/
def better {α : Type} (a b : Route × α) : Route × α :=
  if piecesBefore b.1.pieces a.1.pieces then b else a

/-- The route of a path with the values of its parameters. -/
def find? (routes : List Route) (path : String) : Option (Route × List (String × String)) :=
  match routes.filterMap fun r => (r.matches? path).map fun values => (r, values) with
  | [] => none
  | first :: others => some (others.foldl better first)

end Route

end SchemaGate
