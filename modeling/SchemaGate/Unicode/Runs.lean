/-!
# Runs of code points

Sets of characters of the Unicode standard, written as runs: `41-5A` for all from the first to
the last, `AA` for a single one, in hexadecimal, between blanks and in ascending order.

* `Unicode.readRuns` reads such a text;
* `Unicode.Runs.holds` is membership.
-/

namespace SchemaGate.Unicode

/-- Runs of code points, first and last included, in ascending order. -/
abbrev Runs := List (Nat × Nat)

/-- The value of a hexadecimal digit; nothing for another character. -/
def hexDigit? (c : Char) : Option Nat :=
  if c.isDigit then some (c.toNat - 48)
  else if 'A' ≤ c && c ≤ 'F' then some (c.toNat - 55)
  else if 'a' ≤ c && c ≤ 'f' then some (c.toNat - 87)
  else none

/-- Reads runs. `low` is the first code point of the run under way, if its dash was seen, and
`now` the number under way. Runs read so far are kept in reverse. -/
def readRunsFrom (seen : Runs) (low now : Option Nat) : List Char → Runs
  | [] => (close seen low now).reverse
  | c :: rest =>
    match hexDigit? c with
    | some d => readRunsFrom seen low (some (now.getD 0 * 16 + d)) rest
    | none =>
      if c = '-' then readRunsFrom seen now none rest
      else readRunsFrom (close seen low now) none none rest
where
  /-- Ends the run under way. -/
  close (seen : Runs) (low now : Option Nat) : Runs :=
    match now with
    | some n => (low.getD n, n) :: seen
    | none => seen

/-- The runs of a text. -/
def readRuns (text : String) : Runs := readRunsFrom [] none none text.toList

/-- Whether a code point is in a run. The search ends at the first run behind it. -/
def Runs.holds : Runs → Nat → Bool
  | [], _ => false
  | (low, high) :: rest, n => if n < low then false else n ≤ high || Runs.holds rest n

/-- Reads the runs of each row of a table. -/
def readTable (table : List (List String × String)) : List (List String × Runs) :=
  table.map fun r => (r.1, readRuns r.2)

end SchemaGate.Unicode
