import SchemaGate.Decimal.Binary64

/-!
# Numbers written in decimal

Reading the text of an integer and of a floating-point number. Both take ASCII digits only and
use the whole text.

* `Decimal.integer?`: a sign at most, then one or more digits;
* `Decimal.float?`: a sign at most, digits with a point anywhere among them, and an exponent at
  most. The value is rounded once; a text whose value is too large has no finite reading.
-/

namespace SchemaGate.Decimal

/-- The digits at the front of a text, and what follows them. -/
def spanDigits (cs : List Char) : List Char × List Char :=
  (cs.takeWhile Char.isDigit, cs.dropWhile Char.isDigit)

/-- The number that a digit stands for. -/
def digitValue (c : Char) : Nat := c.toNat - '0'.toNat

/-- The natural number that digits stand for; zero for no digits. -/
def ofDigits (ds : List Char) : Nat := ds.foldl (fun n d => 10 * n + digitValue d) 0

/-- A sign at the front, `true` for a minus, and what follows it. -/
def spanSign : List Char → Bool × List Char
  | '-' :: rest => (true, rest)
  | '+' :: rest => (false, rest)
  | cs => (false, cs)

/-- A non-empty row of digits that is the whole text. -/
def natural? (cs : List Char) : Option Nat :=
  if cs ≠ [] ∧ cs.all Char.isDigit then some (ofDigits cs) else none

/-- A sign at most and a row of digits. -/
def integer? (cs : List Char) : Option Int :=
  let (negative, rest) := spanSign cs
  (natural? rest).map fun n => if negative then -(n : Int) else n

/-- The exponent part: nothing, or the mark and an integer. -/
def exponentPart? : List Char → Option Int
  | [] => some 0
  | c :: rest => if c = 'e' ∨ c = 'E' then integer? rest else none

/-- The fraction digits after a point, if there is one, and what follows them. -/
def spanFraction : List Char → List Char × List Char
  | '.' :: rest => spanDigits rest
  | cs => ([], cs)

/-- A finite number in decimal notation. -/
def float? (cs : List Char) : Option Binary64 :=
  let (negative, rest) := spanSign cs
  let (whole, rest) := spanDigits rest
  let (fraction, rest) := spanFraction rest
  if whole.isEmpty && fraction.isEmpty then none
  else
    (exponentPart? rest).bind fun e =>
      Binary64.ofDecimal? negative (ofDigits (whole ++ fraction)) (e - fraction.length)

end SchemaGate.Decimal
