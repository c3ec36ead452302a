import SchemaGate.Pattern.CharSet

/-!
# Pattern expressions

What a pattern means, and a search that decides it. A search keeps the set of expressions that
could still complete a match; each character turns them into what is left of them
(`Expr.advance`), so a text of `n` characters takes `n` steps whatever the pattern is.

Looking around never takes a character: an expression of that kind depends only on the
characters before and after its place, which is why every function here is told both.
-/

namespace SchemaGate

/-- How a place lies to words. -/
inductive WordEdge where
  | edge
  | inside
  | front
  | back
  | frontHalf
  | backHalf
  deriving DecidableEq

/-- A condition on a place. -/
inductive Look where
  | textStart
  | textEnd
  | lineStart (crlf : Bool)
  | lineEnd (crlf : Bool)
  | word (place : WordEdge) (unicode : Bool)
  deriving DecidableEq

namespace Look

/-- Whether a character, if there is one, belongs to a word. -/
def inWord (unicode : Bool) : Option Char → Bool
  | some c => (CharSet.wordChars unicode).holds c.toNat
  | none => false

/-- Whether the place between two characters satisfies the condition. -/
def holds (before after : Option Char) : Look → Bool
  | textStart => before.isNone
  | textEnd => after.isNone
  | lineStart false => before.isNone || before == some '\n'
  | lineStart true =>
    before.isNone || before == some '\n' || (before == some '\r' && after != some '\n')
  | lineEnd false => after.isNone || after == some '\n'
  | lineEnd true =>
    after.isNone || after == some '\r' || (after == some '\n' && before != some '\r')
  | word place unicode =>
    let b := inWord unicode before
    let a := inWord unicode after
    match place with
    | .edge => b != a
    | .inside => b == a
    | .front => !b && a
    | .back => b && !a
    | .frontHalf => !b
    | .backHalf => !a

end Look

/-- A pattern expression. -/
inductive Expr where
  | empty
  | char (set : CharSet)
  | look (condition : Look)
  | seq (a b : Expr)
  | alt (a b : Expr)
  | times (e : Expr) (least : Nat) (most : Option Nat)
  deriving DecidableEq

namespace Expr

/-- Expressions one after the other. -/
def seqAll : List Expr → Expr
  | [] => empty
  | [e] => e
  | e :: rest => seq e (seqAll rest)

/-- Whether the empty text matches at a place. -/
def nullable (before after : Option Char) : Expr → Bool
  | empty => true
  | char _ => false
  | look condition => condition.holds before after
  | seq a b => a.nullable before after && b.nullable before after
  | alt a b => a.nullable before after || b.nullable before after
  | times e least _ => least == 0 || e.nullable before after

/-- What is left to match, in order, after an expression and then `rest` have taken a character:
one list for each way to take it. -/
def advance (before : Option Char) (c : Char) (rest : List Expr) : Expr → List (List Expr)
  | empty => []
  | look _ => []
  | char set => if set.holds c.toNat then [rest] else []
  | seq a b =>
    a.advance before c (b :: rest) ++
      (if a.nullable before (some c) then b.advance before c rest else [])
  | alt a b => a.advance before c rest ++ b.advance before c rest
  | times e least most =>
    if most = some 0 then []
    else
      -- Rounds that match the empty text here may come first, but only a least count asks for them.
      let spared := if e.nullable before (some c) then least else 1
      (List.range (max spared 1)).flatMap fun i =>
        e.advance before c (times e (least - (i + 1)) (most.map (· - (i + 1))) :: rest)

/-- What is left of a list of expressions after a character. -/
def advanceAll (before : Option Char) (c : Char) : List Expr → List (List Expr)
  | [] => []
  | e :: rest =>
    e.advance before c rest ++
      (if e.nullable before (some c) then advanceAll before c rest else [])

/-- Whether nothing more is needed at a place. -/
def finished (before after : Option Char) (left : List Expr) : Bool :=
  left.all (nullable before after)

/-- Whether a match that is under way, or one that starts here or later, completes. -/
def search (e : Expr) (open_ : List (List Expr)) (before : Option Char) : List Char → Bool
  | [] => ([e] :: open_).any (finished before none)
  | c :: rest =>
    let states := [e] :: open_
    states.any (finished before (some c)) ||
      search e (states.flatMap (advanceAll before c)).eraseDups (some c) rest

/-- Whether an expression matches somewhere in a text. -/
def matchesIn (e : Expr) (text : String) : Bool := search e [] none text.toList

end Expr

end SchemaGate
