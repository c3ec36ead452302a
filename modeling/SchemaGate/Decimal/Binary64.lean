/-!
# Finite binary floating-point numbers

The finite numbers of the 64-bit binary format, as sign and magnitude. The magnitude is the
63-bit pattern below the sign bit, so that

* magnitudes are in the order of the values they stand for (`Binary64.key`);
* a rounded quotient is the sum of an exponent part and a significand part, and a significand
  that rounds up to the next power of two carries into the exponent by itself
  (`Binary64.roundQuotient`).

A magnitude `g` is read as `significand g * 2 ^ step g` units of `2 ^ -1074`, the least
positive value. All arithmetic is exact on natural numbers and rounds once, half to even.
-/

namespace SchemaGate

/-- A finite number: the sign, and the pattern of the exponent and significand bits. -/
structure Binary64 where
  negative : Bool
  magnitude : Nat
  finite : magnitude < 0x7ff0000000000000
  deriving DecidableEq

namespace Binary64

/-- The first magnitude that is no finite number. -/
def limit : Nat := 0x7ff0000000000000

/-- The zero of either sign. -/
def signedZero (negative : Bool) : Binary64 := ⟨negative, 0, by decide⟩

/-- Positive zero. -/
def zero : Binary64 := signedZero false

instance : Inhabited Binary64 := ⟨zero⟩

/-- The number with this sign and magnitude, if it is finite. -/
def ofMagnitude? (negative : Bool) (magnitude : Nat) : Option Binary64 :=
  if h : magnitude < 0x7ff0000000000000 then some ⟨negative, magnitude, h⟩ else none

/-- The power of two, in least units, that a magnitude's significand counts. -/
def step (magnitude : Nat) : Nat := magnitude >>> 52 - 1

/-- The significand of a magnitude, with its leading bit. -/
def significand (magnitude : Nat) : Nat := magnitude - step magnitude <<< 52

/-- The absolute value in least units. -/
def units (magnitude : Nat) : Nat := significand magnitude <<< step magnitude

/-- A key whose order is the order of the values; the two zeros share one. -/
def key (x : Binary64) : Int := if x.negative then -(x.magnitude : Int) else x.magnitude

/-- Same value; the two zeros are equal. -/
def same (x y : Binary64) : Bool := x.key == y.key

/-- The number with the opposite sign. -/
def negate (x : Binary64) : Binary64 := ⟨!x.negative, x.magnitude, x.finite⟩

/-! ## Rounding -/

/-- A quotient rounded to an integer, a half going to the even neighbour. -/
def divHalfEven (num den : Nat) : Nat :=
  let q := num / den
  let r := num % den
  if 2 * r > den || (2 * r == den && q % 2 == 1) then q + 1 else q

/-- The magnitude nearest to a quotient of natural numbers, a tie going to the even one. It may
reach `limit`, and then no finite number is near enough. -/
def roundQuotient (num den : Nat) : Nat :=
  let scaled := num <<< 1074
  let step := (scaled / den).log2 - 52
  step <<< 52 + divHalfEven scaled (den <<< step)

/-- A quotient as a number, unless it is too large. -/
def ofQuotient? (negative : Bool) (num den : Nat) : Option Binary64 :=
  ofMagnitude? negative (roundQuotient num den)

/-- An integer of at most 64 bits as a number (larger ones have the largest finite number). -/
def ofInt (n : Int) : Binary64 :=
  (ofQuotient? (n < 0) n.natAbs 1).getD ⟨n < 0, limit - 1, by decide⟩

/-- The product, unless it is too large. -/
def mul? (x y : Binary64) : Option Binary64 :=
  ofQuotient? (x.negative != y.negative) (units x.magnitude * units y.magnitude) (1 <<< 2148)

/-- The quotient by a number that is not zero, unless it is too large. -/
def div? (x y : Binary64) : Option Binary64 :=
  ofQuotient? (x.negative != y.negative) (units x.magnitude) (units y.magnitude)

/-- A power of ten. -/
def tenTo (n : Nat) : Nat := Nat.pow 10 n

/-- `digits * 10 ^ scale`, rounded once. Exponents that are beyond any doubt are answered
without the power. -/
def ofDecimal? (negative : Bool) (digits : Nat) (scale : Int) : Option Binary64 :=
  if digits = 0 then some (signedZero negative)
  else
    let leading := scale + (digits.log2 : Int) * 3 / 10
    if leading > 400 then none
    else if leading < -420 - (digits.log2 : Int) / 30 then some (signedZero negative)
    else if 0 ≤ scale then ofQuotient? negative (digits * tenTo scale.toNat) 1
    else ofQuotient? negative digits (tenTo (-scale).toNat)

end Binary64

end SchemaGate
