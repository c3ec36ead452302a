import SchemaGate.Decimal.Literal
import SchemaGate.Text.Utf8

/-!
# Dates and times of day

The texts of dates and of moments in time. Fields have a fixed number of ASCII digits. A text is
looked at twice: its octets tell whether a date is written at the front, and then its characters
are read, which also takes a blank between date and time.

* `Calendar.isDate`: year, month and day that exist in the Gregorian calendar, extended to the
  years before it began;
* `Calendar.isDateTime`: a date, a time of day and an offset from universal time.
-/

namespace SchemaGate.Calendar

open Utf8 (Octets)

/-! ## Octets -/

/-- The octets of characters. -/
def octets (cs : List Char) : Octets := cs.flatMap String.utf8EncodeChar

/-- The octet of a digit, or that of a hyphen at the places of hyphens in a date. -/
def isDateOctet (b : UInt8) (place : Nat) : Bool :=
  if place == 4 || place == 7 then b == 0x2d else 0x30 ≤ b && b ≤ 0x39

/-- Ten octets that are written as a date is. -/
def isFullDate (bs : Octets) : Bool :=
  bs.length == 10 && bs.zipIdx.all fun (b, place) => isDateOctet b place

/-- The octets of a date and then that of the letter before a time. A letter starts a character,
so the ten octets in front of it are whole characters. -/
def opensMoment (bs : Octets) : Bool :=
  isFullDate (bs.take 10) && (bs[10]? == some 0x54 || bs[10]? == some 0x74)

/-! ## Characters -/

/-- Whether a year has a 29th of February. -/
def isLeap (year : Nat) : Bool := year % 4 == 0 && (year % 100 != 0 || year % 400 == 0)

/-- How many days a month has; none for a number that is no month. -/
def daysIn (year month : Nat) : Nat :=
  match month with
  | 1 | 3 | 5 | 7 | 8 | 10 | 12 => 31
  | 4 | 6 | 9 | 11 => 30
  | 2 => if isLeap year then 29 else 28
  | _ => 0

/-- Reads a field of exactly so many digits. -/
def field (width : Nat) (cs : List Char) : Option (Nat × List Char) :=
  let digits := cs.take width
  if digits.length = width ∧ digits.all Char.isDigit then
    some (Decimal.ofDigits digits, cs.drop width)
  else none

/-- Steps over one given character. -/
def mark (c : Char) : List Char → Option (List Char)
  | d :: rest => if d = c then some rest else none
  | [] => none

/-- Reads a date at the front of a text. -/
def date (cs : List Char) : Option (List Char) := do
  let (year, cs) ← field 4 cs
  let cs ← mark '-' cs
  let (month, cs) ← field 2 cs
  let cs ← mark '-' cs
  let (day, cs) ← field 2 cs
  if 1 ≤ day ∧ day ≤ daysIn year month then some cs else none

/-- Reads hours, minutes and seconds. The second may be a leap second. -/
def timeOfDay (cs : List Char) : Option (List Char) := do
  let (hour, cs) ← field 2 cs
  let cs ← mark ':' cs
  let (minute, cs) ← field 2 cs
  let cs ← mark ':' cs
  let (second, cs) ← field 2 cs
  if hour ≤ 23 ∧ minute ≤ 59 ∧ second ≤ 60 then some cs else none

/-- Reads a fraction of a second, if there is one. -/
def fraction : List Char → Option (List Char)
  | '.' :: rest =>
    if (rest.head?.any Char.isDigit) then some (rest.dropWhile Char.isDigit) else none
  | cs => some cs

/-- Reads hours and minutes of an offset. -/
def hoursAndMinutes (cs : List Char) : Option (List Char) := do
  let (hour, cs) ← field 2 cs
  let cs ← mark ':' cs
  let (minute, cs) ← field 2 cs
  if hour ≤ 23 ∧ minute ≤ 59 then some cs else none

/-- Reads an offset: a letter for none, or a sign and the offset. The sign may be the minus sign
of typography. -/
def offset : List Char → Option (List Char)
  | c :: rest =>
    if c = 'Z' ∨ c = 'z' then some rest
    else if c = '+' ∨ c = '-' ∨ c = '\u2212' then hoursAndMinutes rest
    else none
  | [] => none

/-- Reads what stands between a date and a time: a letter or a blank. -/
def separator : List Char → Option (List Char)
  | c :: rest => if c = 'T' ∨ c = 't' ∨ c = ' ' then some rest else none
  | [] => none

/-- Reads a date and a time of day with its offset. -/
def moment (cs : List Char) : Option (List Char) := do
  let cs ← date cs
  let cs ← separator cs
  let cs ← timeOfDay cs
  let cs ← fraction cs
  offset cs

/-! ## Both -/

/-- A date and nothing else. -/
def isDate (cs : List Char) : Bool := isFullDate (octets cs) && date cs == some []

/-- A date, a letter, a time of day with its offset, and nothing else. -/
def isDateTime (cs : List Char) : Bool := opensMoment (octets cs) && moment cs == some []

end SchemaGate.Calendar
