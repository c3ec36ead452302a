import SchemaGate.Decimal.Shortest

/-!
# Numbers of a document

A number is an integer that a signed or an unsigned 64-bit word holds, or a finite
floating-point number. The two are different values even where they stand for the same number,
but they are ordered together.

* `Number.compare` is exact between integers, and goes through the floating-point value
  otherwise;
* `Number.render` writes floating-point numbers with the fewest digits that read back.
-/

namespace SchemaGate

/-- An integer that fits 64 bits, with or without a sign. -/
structure WideInt where
  val : Int
  lower : -0x8000000000000000 ≤ val
  upper : val < 0x10000000000000000
  deriving DecidableEq

namespace WideInt

/-- An integer in the range. -/
def ofInt? (n : Int) : Option WideInt :=
  if h : -0x8000000000000000 ≤ n ∧ n < 0x10000000000000000 then some ⟨n, h.1, h.2⟩ else none

instance : Inhabited WideInt := ⟨⟨0, by decide, by decide⟩⟩

end WideInt

/-- A number as a document holds it. -/
inductive Number where
  | int (value : WideInt)
  | float (value : Binary64)
  deriving DecidableEq

namespace Number

instance : Inhabited Number := ⟨.int default⟩

/-- The nearest floating-point number. -/
def toBinary64 : Number → Binary64
  | int n => Binary64.ofInt n.val
  | float x => x

/-- Order of two numbers: exact for two integers, by floating-point value otherwise. -/
def compare : Number → Number → Ordering
  | int a, int b => Ord.compare a.val b.val
  | a, b => Ord.compare a.toBinary64.key b.toBinary64.key

/-- Equality of values of a document: an integer never equals a floating-point number, and the
two zeros of the latter are equal. -/
def same : Number → Number → Bool
  | int a, int b => a.val == b.val
  | float a, float b => a.same b
  | _, _ => false

/-- Numbers are written positionally from five places after the point to sixteen before it. -/
def layout : Decimal.Layout := ⟨-5, 15⟩

/-- The text of a number. -/
def render : Number → String
  | int n => toString n.val
  | float x => layout.write x

end Number

end SchemaGate
