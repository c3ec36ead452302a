import SchemaGate.Field
import SchemaGate.Unicode.Runs

/-!
# Form data

Names and values as query strings and form bodies write them: pairs between ampersands, the name
before the first equals sign, blanks as plus signs and octets in hexadecimal behind percent signs.

* `Form.pairs` reads the pairs;
* `Form.texts` gathers the values of a name, in order;
* `Form.ofTexts` is what so many texts stand for: nothing, a text, or an array;
* `Form.members` takes the pairs up one by one into the members of an object.
-/

namespace SchemaGate.Form

open Utf8 (Octets)

/-- The value of a hexadecimal digit. -/
def hexValue? (b : UInt8) : Option Nat := Unicode.hexDigit? (Char.ofNat b.toNat)

/-- Replaces escapes of octets behind those read so far, which are kept in reverse. -/
def percentDecodeFrom (seen : Octets) : Octets → Octets
  | 0x25 :: a :: b :: rest =>
    match hexValue? a, hexValue? b with
    | some m, some n => percentDecodeFrom (UInt8.ofNat (m * 16 + n) :: seen) rest
    | _, _ => percentDecodeFrom (0x25 :: seen) (a :: b :: rest)
  | c :: rest => percentDecodeFrom (c :: seen) rest
  | [] => seen.reverse

/-- Replaces escapes of octets; a percent sign without two digits behind it stays. -/
def percentDecode (bs : Octets) : Octets := percentDecodeFrom [] bs

/-- The text of a name or a value. -/
def decode (bs : Octets) : String :=
  Utf8.decodeLossy (percentDecode (bs.map fun b => if b = 0x2b then 0x20 else b))

/-- Splits at the places of an octet. The parts so far and the part under way are kept in
reverse. -/
def splitFrom (mark : UInt8) (parts : List Octets) (part : Octets) : Octets → List Octets
  | [] => (part.reverse :: parts).reverse
  | b :: rest =>
    if b = mark then splitFrom mark (part.reverse :: parts) [] rest
    else splitFrom mark parts (b :: part) rest

/-- The parts between the places of an octet; one part more than there are such places. -/
def splitOn (mark : UInt8) (bs : Octets) : List Octets := splitFrom mark [] [] bs

/-- The name and the value of a piece. -/
def pair (piece : Octets) : String × String :=
  (decode (piece.takeWhile (· != 0x3d)), decode ((piece.dropWhile (· != 0x3d)).drop 1))

/-- The pairs of a form, in order. Empty pieces are no pairs. -/
def pairs (bs : Octets) : List (String × String) :=
  ((splitOn 0x26 bs).filter fun piece => !piece.isEmpty).map pair

/-- The values of a name, in order. -/
def texts (name : String) (ps : List (String × String)) : List String :=
  (ps.filter fun p => p.1 == name).map Prod.snd

/-- What texts stand for: nothing, one text, or an array of texts. -/
def ofTexts : List String → Field
  | [] => .absent
  | [s] => .text s
  | many => .value (.array (many.map Json.string))

/-- What a further text makes of the value under its name: a first text stands alone, a second one
makes an array of the two, and later ones are appended. -/
def join (text : String) : Option Json → Json
  | none => .string text
  | some (.array items) => .array (items ++ [.string text])
  | some first => .array [first, .string text]

/-- Takes a pair up into the members so far. -/
def take (members : Entries Json) (p : String × String) : Entries Json :=
  Entries.put p.1 (join p.2 (Entries.get? p.1 members)) members

/-- The members of the object that a form stands for. -/
def members (ps : List (String × String)) : Entries Json := ps.foldl take []

end SchemaGate.Form
