import SchemaGate.Pattern.CharSet

/-!
# Pattern flags and gaps

The flags that a group can switch, the gaps that an extended pattern may hold, and the small
readers that every part of the pattern grammar uses. A reader takes the characters that are
left and answers with what it read and what is left then; it has no answer for a text that the
grammar does not allow.
-/

namespace SchemaGate.Pattern

/-- How the characters of a pattern are understood. -/
structure Flags where
  insensitive : Bool := false
  multiLine : Bool := false
  dotAll : Bool := false
  crlf : Bool := false
  extended : Bool := false
  unicode : Bool := true
  deriving DecidableEq

/-- What a reader of the pattern grammar answers. -/
abbrev Read (α : Type) : Type := Option (α × List Char)

/-- Something read, with how many levels its parts nest. -/
structure Nested (α : Type) where
  value : α
  height : Nat

namespace Nested

/-- Something without parts. -/
def leaf {α : Type} (value : α) : Nested α := ⟨value, 0⟩

/-- The height of parts side by side. Several of them are a level of their own. -/
def heightOf {α : Type} : List (Nested α) → Nat
  | [] => 0
  | [part] => part.height
  | parts => parts.foldl (fun h part => max h part.height) 0 + 1

end Nested

/-- Drops blanks, and comments up to the end of their line. -/
def dropGaps (comment : Bool) : List Char → List Char
  | [] => []
  | c :: rest =>
    if comment then dropGaps (c != '\n') rest
    else if Text.isBlank c then dropGaps false rest
    else if c == '#' then dropGaps true rest
    else c :: rest

/-- Drops the gaps of an extended pattern. -/
def skip (flags : Flags) (cs : List Char) : List Char :=
  if flags.extended then dropGaps false cs else cs

/-- Switches a flag by its letter. Greediness decides no match, so its letter changes nothing. -/
def Flags.switch? (flags : Flags) (letter : Char) (on : Bool) : Option Flags :=
  match letter with
  | 'i' => some { flags with insensitive := on }
  | 'm' => some { flags with multiLine := on }
  | 's' => some { flags with dotAll := on }
  | 'R' => some { flags with crlf := on }
  | 'x' => some { flags with extended := on }
  | 'u' => some { flags with unicode := on }
  | 'U' => some flags
  | _ => none

/-- What a list of flag letters says: the flags, whether any letter was there, and whether the
list ended with a parenthesis rather than a colon. -/
structure FlagList where
  flags : Flags
  any : Bool
  closed : Bool

/-- Reads flag letters up to a colon or a closing parenthesis. `seen` holds the letters so far,
`off` whether a hyphen came, `dangling` whether it was the last character. -/
def readFlags (flags : Flags) (seen : List Char) (off dangling : Bool) :
    List Char → Read FlagList
  | [] => none
  | c :: rest =>
    if c = ':' ∨ c = ')' then
      if dangling then none else some (⟨flags, !seen.isEmpty || off, c = ')'⟩, rest)
    else if c = '-' then
      if off then none else readFlags flags seen true true rest
    else if seen.contains c then none
    else
      match flags.switch? c (!off) with
      | some flags => readFlags flags (c :: seen) off false rest
      | none => none

/-- Reads digits, with gaps between them in an extended pattern. -/
def readDigits (flags : Flags) (seen : List Char) : List Char → List Char × List Char
  | [] => (seen.reverse, [])
  | c :: rest =>
    if c.isDigit then readDigits flags (c :: seen) rest
    else if flags.extended && Text.isBlank c then readDigits flags seen rest
    else (seen.reverse, c :: rest)

/-- Reads a count of 32 bits between blanks. -/
def readCount (flags : Flags) (cs : List Char) : Read Nat :=
  let (digits, rest) := readDigits flags [] (cs.dropWhile Text.isBlank)
  let n := digits.foldl (fun n d => 10 * n + (d.toNat - 48)) 0
  if digits.isEmpty || 0x100000000 ≤ n then none else some (n, skip flags (rest.dropWhile Text.isBlank))

/-- The character of a code point, unless it is a surrogate or too large. -/
def scalar? (n : Nat) : Option Char :=
  if n < 0xd800 || (0xe000 ≤ n && n < 0x110000) then some (Char.ofNat n) else none

/-- Reads exactly so many hexadecimal digits. -/
def readHex (flags : Flags) (value : Nat) : Nat → List Char → Read Nat
  | 0, cs => some (value, cs)
  | k + 1, cs =>
    match skip flags cs with
    | [] => none
    | c :: rest => (Unicode.hexDigit? c).bind fun d => readHex flags (value * 16 + d) k rest

/-- Reads hexadecimal digits up to a closing brace. -/
def readHexBraced (flags : Flags) (value : Option Nat) : List Char → Read Nat
  | [] => none
  | c :: rest =>
    if c = '\x7d' then value.map fun n => (n, skip flags rest)
    else if flags.extended && Text.isBlank c then readHexBraced flags value rest
    else (Unicode.hexDigit? c).bind fun d =>
      let n := value.getD 0 * 16 + d
      readHexBraced flags (some (min n 0x110000)) rest

/-- Reads the number of a character after the letter that announces it. -/
def readCode (flags : Flags) (letter : Char) (cs : List Char) : Read Char :=
  let number := match skip flags cs with
    | '\x7b' :: rest => readHexBraced flags none rest
    | cs => readHex flags 0 (if letter = 'x' then 2 else if letter = 'u' then 4 else 8) cs
  number.bind fun (n, rest) => (scalar? n).map fun c => (c, rest)

end SchemaGate.Pattern
