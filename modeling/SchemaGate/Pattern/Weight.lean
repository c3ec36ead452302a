import SchemaGate.Pattern.Edges
import SchemaGate.Pattern.Expr
import SchemaGate.Text.OctetRuns

/-!
# How heavy a pattern is

A search runs a program that the pattern is turned into, and a repetition with counts is written
out in it, so a short pattern may need a large program. Its size is told in octets: an
instruction takes 32, a way out of an instruction that has several takes 4, and a run of ASCII
characters 8. A set that leaves ASCII is a choice among the runs of octets that its characters
have in UTF-8; runs with the same first octets share their instructions.

* `CharSet.weight` is the size of the instructions for a set;
* `Expr.weight` is the size of the program of an expression.
-/

namespace SchemaGate

namespace CharSet

/-- The size of the instructions for a set. -/
def weight (s : CharSet) : Nat :=
  match s.ranges with
  | [] => 32
  | [(low, high)] =>
    if low = high then 32 * (Utf8.octets low).length else weightOfRanges [(low, high)]
  | ranges => weightOfRanges ranges
where
  /-- The size of the instructions for a choice among ranges. -/
  weightOfRanges (ranges : List (Nat × Nat)) : Nat :=
    if ranges.all (·.2 < 0x80) then 64 + 8 * ranges.length
    else
      let runs := ranges.flatMap fun r => Utf8.runsOfRange r.1 r.2
      64 + 32 * Utf8.countShared [] runs + 4 * runs.length

end CharSet

namespace Expr

/-- Whether some match takes a character. -/
def takes : Expr → Bool
  | empty => false
  | char _ => true
  | look _ => false
  | seq a b => a.takes || b.takes
  | alt a b => a.takes || b.takes
  | times e _ most => e.takes && most != some 0

/-- The size of the program of an expression. Repeating what takes no character is no more than
doing it once. -/
def weight : Expr → Nat
  | empty => 32
  | char set => set.weight
  | look _ => 32
  | seq a b => a.weight + b.weight
  | alt a b => a.weight + b.weight + 8
  | times e least most =>
    if e.takes then
      match most with
      | none => max least 1 * e.weight + 40
      | some most =>
        if least = most then max most 1 * e.weight
        else most * e.weight + (most - least) * 40 + 32
    else e.weight + 72

end Expr

end SchemaGate
