import SchemaGate.Unicode.Runs

/-!
# Coded texts

Texts that encode octets: identifiers of 128 bits in hexadecimal, and octets in base 64.
-/

namespace SchemaGate.Coded

/-- Whether every character is a hexadecimal digit. -/
def allHex (cs : List Char) : Bool := cs.all fun c => (Unicode.hexDigit? c).isSome

/-- Hexadecimal digits in groups of eight, four, four, four and twelve between hyphens. -/
def isHyphenated (cs : List Char) : Bool :=
  cs.length == 36 &&
    (cs.zipIdx.all fun (c, i) =>
      if i == 8 || i == 13 || i == 18 || i == 23 then c == '-'
      else (Unicode.hexDigit? c).isSome)

/-- An identifier: 32 digits in a row, or in hyphenated groups, which may stand between braces or
behind the name of the scheme. -/
def isUuid (cs : List Char) : Bool :=
  (cs.length == 32 && allHex cs) || isHyphenated cs ||
    (match cs with
      | '\x7b' :: rest => rest.getLast? == some '\x7d' && isHyphenated rest.dropLast
      | _ => false) ||
    ((cs.take 9).map Char.toLower == "urn:uuid:".toList && isHyphenated (cs.drop 9))

/-- The six bits that a character of base 64 stands for. -/
def sixBits? (c : Char) : Option Nat :=
  if 'A' ≤ c && c ≤ 'Z' then some (c.toNat - 65)
  else if 'a' ≤ c && c ≤ 'z' then some (c.toNat - 71)
  else if c.isDigit then some (c.toNat + 4)
  else if c = '+' then some 62
  else if c = '/' then some 63
  else none

/-- Groups of four characters. The last may be filled up with one or two equals signs, and then
the bits that it does not use are zero. -/
def isBase64 : List Char → Bool
  | [] => true
  | [a, b, '=', '='] =>
    (match sixBits? a, sixBits? b with
      | some _, some n => n % 16 == 0
      | _, _ => false)
  | [a, b, c, '='] =>
    (match sixBits? a, sixBits? b, sixBits? c with
      | some _, some _, some n => n % 4 == 0
      | _, _, _ => false)
  | a :: b :: c :: d :: rest =>
    (sixBits? a).isSome && (sixBits? b).isSome && (sixBits? c).isSome && (sixBits? d).isSome &&
      isBase64 rest
  | _ => false

end SchemaGate.Coded
