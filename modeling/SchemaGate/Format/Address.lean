import SchemaGate.Decimal.Literal
import SchemaGate.Pattern.Parser
import SchemaGate.Unicode.Runs

/-!
# Addresses

The texts of mail addresses, of hosts and of network addresses.

* `Address.isEmail` looks for a pattern that is tied to the start of the text, but not to its end;
* `Address.isIpv4` is four numbers below 256 without leading zeros;
* `Address.isIpv6` is eight groups of up to four hexadecimal digits. The last two may be written
  as an address of the former kind, and a double colon may stand for one group of zeros or more;
* `Address.isHostname` is a row of labels between dots.
-/

namespace SchemaGate.Address

/-- The parts of a text between the places of a character; one part more than there are such
places. -/
def splitOn (mark : Char) : List Char → List (List Char)
  | [] => [[]]
  | c :: rest =>
    if c = mark then [] :: splitOn mark rest
    else
      match splitOn mark rest with
      | [] => [[c]]
      | part :: parts => (c :: part) :: parts

/-- A mail address, or a text that begins like one: there is no mark for the end. -/
def emailPattern? : Option Pattern := Pattern.ofText? "^[^@]+@[^@]+\\.[^@]+"

/-- Whether the pattern of mail addresses occurs in a text. -/
def isEmail (cs : List Char) : Bool := emailPattern?.any (·.occursIn (String.ofList cs))

/-- A number below 256 without leading zeros. -/
def isOctet (cs : List Char) : Bool :=
  cs.length ≤ 3 &&
    (match Decimal.natural? cs with
      | some n => n < 256 && (cs.length == 1 || cs.head? != some '0')
      | none => false)

/-- Four numbers between dots. -/
def isIpv4 (cs : List Char) : Bool :=
  let parts := splitOn '.' cs
  parts.length == 4 && parts.all isOctet

/-- One to four hexadecimal digits. -/
def isGroup (cs : List Char) : Bool :=
  1 ≤ cs.length && cs.length ≤ 4 && cs.all fun c => (Unicode.hexDigit? c).isSome

/-- How many groups the parts of an address hold, if each is one. The last part may be four
numbers between dots, which count as two groups, where `dotted` allows that. -/
def groups (dotted : Bool) : List (List Char) → Option Nat
  | [] => some 0
  | [part] =>
    if isGroup part then some 1 else if dotted && isIpv4 part then some 2 else none
  | part :: parts => if isGroup part then (groups dotted parts).map (· + 1) else none

/-- How many groups a text holds; none is fine too. -/
def groupsIn (dotted : Bool) (cs : List Char) : Option Nat :=
  if cs.isEmpty then some 0 else groups dotted (splitOn ':' cs)

/-- What stands before and after the first double colon. -/
def splitDouble : List Char → Option (List Char × List Char)
  | ':' :: ':' :: rest => some ([], rest)
  | c :: rest => (splitDouble rest).map fun (a, b) => (c :: a, b)
  | [] => none

/-- Eight groups, or at most seven around a double colon. -/
def isIpv6 (cs : List Char) : Bool :=
  match splitDouble cs with
  | none => groups true (splitOn ':' cs) == some 8
  | some (front, back) =>
    match groupsIn false front, groupsIn true back with
    | some m, some n => m + n ≤ 7
    | _, _ => false

/-- One to 63 letters, digits and hyphens, without a hyphen at either end. -/
def isLabel (cs : List Char) : Bool :=
  1 ≤ cs.length && cs.length ≤ 63 && cs.head? != some '-' && cs.getLast? != some '-' &&
    cs.all fun c => c.isAlphanum || c == '-'

/-- Labels between dots, of 255 characters at most; one more dot may end them. -/
def isHostname (cs : List Char) : Bool :=
  let host := if cs.getLast? = some '.' then cs.dropLast else cs
  !host.isEmpty && host.length ≤ 255 && (splitOn '.' host).all isLabel

end SchemaGate.Address
