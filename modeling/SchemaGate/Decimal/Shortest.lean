import SchemaGate.Decimal.Binary64

/-!
# Shortest decimal text

The fewest decimal digits that read back as a given number, and of those the nearest to it.

* `Decimal.shortest` tries one digit, two digits and so on; on each grid only the two
  neighbours of the number can read back if any point of the grid does;
* `Decimal.Layout` holds the decisions of a written form, `Decimal.Layout.write` applies them.
-/

namespace SchemaGate.Decimal

/-- How many decimal digits a natural number has; none for zero. -/
def length (n : Nat) : Nat := if n = 0 then 0 else length (n / 10) + 1

/-- A quotient of natural numbers scaled by a power of ten, again as a quotient. -/
def scaleTen (num den : Nat) (e : Int) : Nat × Nat :=
  if 0 ≤ e then (num * Binary64.tenTo e.toNat, den)
  else (num, den * Binary64.tenTo (-e).toNat)

/-- The decimal exponent of a positive quotient: the power of ten of its leading digit. -/
def exponent (num den : Nat) : Int :=
  if den ≤ num then (length (num / den) : Int) - 1
  else -(length ((den - 1) / num) : Int)

/-- Digits as a natural number, to be multiplied by a power of ten. -/
structure Digits where
  value : Nat
  scale : Int
  deriving DecidableEq

/-- Whether a decimal reads back as this magnitude. -/
def Digits.readsBack (d : Digits) (magnitude : Nat) : Bool :=
  let (num, den) := scaleTen d.value 1 d.scale
  Binary64.roundQuotient num den == magnitude

/-- The nearest of the two neighbours, on the grid of `10 ^ scale`, that read back as the
magnitude; a tie goes to the even one. -/
def onGrid? (magnitude : Nat) (scale : Int) : Option Digits :=
  let (num, den) := scaleTen (Binary64.units magnitude) (1 <<< 1074) (-scale)
  let below : Digits := ⟨num / den, scale⟩
  let above : Digits := ⟨num / den + 1, scale⟩
  match below.readsBack magnitude, above.readsBack magnitude with
  | true, true => some (if Binary64.divHalfEven num den = below.value then below else above)
  | true, false => some below
  | false, true => some above
  | false, false => none

/-- The same decimal without trailing zeros. -/
def Digits.strip (d : Digits) : Digits :=
  if h : d.value ≠ 0 ∧ d.value % 10 = 0 then Digits.strip ⟨d.value / 10, d.scale + 1⟩ else d
termination_by d.value
decreasing_by omega

/-- The fewest digits that read back as a magnitude, and the nearest of those. Seventeen always
suffice. -/
def shortest (magnitude : Nat) : Digits :=
  if magnitude = 0 then ⟨0, 0⟩
  else
    let e := exponent (Binary64.units magnitude) (1 <<< 1074)
    let found := (List.range 17).findSome? fun n : Nat => onGrid? magnitude (e - n)
    (found.getD ⟨Binary64.units magnitude, 0⟩).strip

/-! ## Written forms -/

/-- The decisions of a written form: the decimal exponents, both included, between which the
notation is positional. -/
structure Layout where
  positionalFrom : Int
  positionalTo : Int

/-- Digits with a point after the first `before` of them, and at least one digit on each side. -/
def pointed (digits : List Char) (before : Int) : List Char :=
  if before ≤ 0 then '0' :: '.' :: (List.replicate (-before).toNat '0' ++ digits)
  else
    let k := before.toNat
    let whole := digits.take k ++ List.replicate (k - digits.length) '0'
    let fraction := digits.drop k
    whole ++ '.' :: (if fraction.isEmpty then ['0'] else fraction)

/-- One digit, the others after a point, and the exponent with its sign. -/
def scientific (digits : List Char) (e : Int) : List Char :=
  let mantissa := match digits with
    | [] => []
    | [d] => [d]
    | d :: more => d :: '.' :: more
  mantissa ++ 'e' :: (if e < 0 then '-' else '+') :: Nat.toDigits 10 e.natAbs

/-- The text of a number in a layout. -/
def Layout.write (layout : Layout) (x : Binary64) : String :=
  let d := shortest x.magnitude
  let digits := Nat.toDigits 10 d.value
  let e := d.scale + digits.length - 1
  let body :=
    if layout.positionalFrom ≤ e ∧ e ≤ layout.positionalTo then pointed digits (e + 1)
    else scientific digits e
  String.ofList (if x.negative then '-' :: body else body)

end SchemaGate.Decimal
