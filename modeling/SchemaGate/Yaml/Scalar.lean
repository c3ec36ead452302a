import SchemaGate.Decimal.Literal
import SchemaGate.Json.Value
import SchemaGate.Yaml.Tag

/-!
# Values of scalars

A plain scalar without a tag is null, a truth value or a number if it is written like one, and a
text otherwise. A quoted one is always a text.

* `integer?` and `float?` say how numbers are written;
* `scalarValue?` is the value of a scalar under its tag, if it has one.
-/

namespace SchemaGate.Yaml

/-- Whether a text stands for null. -/
def isNullWord (s : String) : Bool := ["null", "Null", "NULL", "~"].contains s

/-- The truth value that a text stands for. -/
def bool? (s : String) : Option Bool :=
  if ["true", "True", "TRUE"].contains s then some true
  else if ["false", "False", "FALSE"].contains s then some false
  else none

/-- One or more digits to a base. -/
def digits? (base : Nat) (cs : List Char) : Option Nat :=
  if cs.isEmpty then none
  else
    cs.foldl (fun n c => n.bind fun n => (hexDigit? c).bind fun d =>
      if d < base then some (base * n + d) else none) (some 0)

/-- Digits to base ten with zeros in front, which stand for no number. -/
def hasLeadingZeros (cs : List Char) : Bool :=
  match cs with
  | '0' :: c :: rest => (c :: rest).all Char.isDigit
  | _ => false

/-- A natural number: to base sixteen, eight or two with a mark in front, else to base ten. -/
def natural? : List Char → Option Nat
  | '0' :: 'x' :: cs => digits? 16 cs
  | '0' :: 'o' :: cs => digits? 8 cs
  | '0' :: 'b' :: cs => digits? 2 cs
  | cs => if hasLeadingZeros cs then none else digits? 10 cs

/-- A natural number with a sign at most. -/
def signed? : List Char → Option Int
  | '-' :: cs => (natural? cs).map fun n => -(n : Int)
  | '+' :: cs => (natural? cs).map Int.ofNat
  | cs => (natural? cs).map Int.ofNat

/-- A number that counts as an integer, at most 128 bits wide. A wider one is read as a
floating-point number. -/
def integer? (s : String) : Option Int :=
  (signed? s.toList).bind fun n =>
    if -0x80000000000000000000000000000000 ≤ n ∧ n < 0x100000000000000000000000000000000 then some n
    else none

/-- The value of an integer, if it fits 64 bits. -/
def integerValue? (n : Int) : Option Json := (WideInt.ofInt? n).map fun n => .number (.int n)

/-- A text without a plus sign in front, unless a second sign follows that. -/
def withoutPlus? : List Char → Option (List Char)
  | '+' :: '+' :: _ => none
  | '+' :: '-' :: _ => none
  | '+' :: cs => some cs
  | cs => some cs

/-- Whether a text stands for a number that is not finite. -/
def isUnbounded (s : String) : Bool :=
  [".inf", ".Inf", ".INF", "+.inf", "+.Inf", "+.INF", "-.inf", "-.Inf", "-.INF",
    ".nan", ".NaN", ".NAN"].contains s

/-- The value of a floating-point number, null if it is not finite. -/
def floatValue? (s : String) : Option Json :=
  if isUnbounded s then some .null
  else ((withoutPlus? s.toList).bind Decimal.float?).map fun x => .number (.float x)

/-- A sign at the front is dropped. -/
def withoutSign : List Char → List Char
  | '-' :: cs => cs
  | '+' :: cs => cs
  | cs => cs

/-- The value of a plain scalar without a tag. An integer that is too wide has none. -/
def plainValue? (s : String) : Option Json :=
  if s.isEmpty || isNullWord s then some .null
  else
    match bool? s with
    | some b => some (.bool b)
    | none =>
      match integer? s with
      | some n => integerValue? n
      | none =>
        if hasLeadingZeros (withoutSign s.toList) then some (.string s)
        else some ((floatValue? s).getD (.string s))

/-- The value of a scalar, if it has one under its tag. -/
def scalarValue? (tag : Option Tag) (plain : Bool) (s : String) : Option Json :=
  match tag with
  | none => if plain then plainValue? s else some (.string s)
  | some .boolean => (bool? s).map .bool
  | some .integer => (integer? s).bind integerValue?
  | some .float => floatValue? s
  | some .null => if isNullWord s then some .null else none
  | some .own => none
  | some .other => some (.string s)

end SchemaGate.Yaml
