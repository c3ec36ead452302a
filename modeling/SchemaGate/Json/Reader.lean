import SchemaGate.Json.Numeral
import SchemaGate.Json.Value

/-!
# Reading written values

A written value is a row of octets. It is read from the front; containers may stand inside each
other up to `Json.maxDepth` levels. A failure names its cause and the line and column of the
octet where it showed.

* `Json.read` reads a text that holds one value and nothing else but blanks;
* `ReadError.message` is the wording of a failure.
-/

namespace SchemaGate

open Utf8 (Octets)

/-- A failure with its place: lines are counted from one, columns by octets of the line. -/
structure ReadError where
  defect : Defect
  line : Nat
  column : Nat
  deriving DecidableEq

/-- What is wrong, in words. -/
def Defect.message : Defect → String
  | endInValue => "EOF while parsing a value"
  | endInList => "EOF while parsing a list"
  | endInObject => "EOF while parsing an object"
  | endInString => "EOF while parsing a string"
  | noValue => "expected value"
  | noIdent => "expected ident"
  | noColon => "expected `:`"
  | noListEnd => "expected `,` or `]`"
  | noObjectEnd => "expected `,` or `\x7d`"
  | keyNotString => "key must be a string"
  | trailingComma => "trailing comma"
  | trailingCharacters => "trailing characters"
  | badNumber => "invalid number"
  | numberTooLarge => "number out of range"
  | badEscape => "invalid escape"
  | badCodePoint => "invalid unicode code point"
  | shortHexEscape => "unexpected end of hex escape"
  | loneSurrogate => "lone leading surrogate in hex escape"
  | controlCharacter => "control character (\\u0000-\\u001F) found while parsing a string"
  | tooDeep => "recursion limit exceeded"

/-- A failure with its place, in words. -/
def ReadError.message (e : ReadError) : String :=
  e.defect.message ++ " at line " ++ toString e.line ++ " column " ++ toString e.column

/-- The line and column behind a row of octets. -/
def Stop.place (stop : Stop) (whole : Octets) : ReadError :=
  let seen := whole.take (whole.length - stop.left)
  ⟨stop.defect, (seen.filter (· == 0x0a)).length + 1,
    (seen.reverse.takeWhile (· != 0x0a)).length⟩

namespace Json

/-- How many containers may stand inside each other. -/
def maxDepth : Nat := 127

/-- Whether an octet is a blank between tokens. -/
def isGap (b : UInt8) : Bool := b == 0x20 || b == 0x0a || b == 0x09 || b == 0x0d

/-- Drops blanks. -/
def skipGaps (bs : Octets) : Octets := bs.dropWhile isGap

theorem length_skipGaps_le (bs : Octets) : (skipGaps bs).length ≤ bs.length :=
  Numeral.length_dropWhile_le _ _

theorem length_of_skipGaps {bs rest : Octets} {b : UInt8} (h : skipGaps bs = b :: rest) :
    rest.length < bs.length := by
  have hle := length_skipGaps_le bs
  rw [h, List.length_cons] at hle
  omega

/-- Octets of which fewer are left than `n`. -/
abbrev Shorter (n : Nat) : Type := { rest : Octets // rest.length < n }

/-- The answer of a reader that takes at least one of `n` octets. -/
abbrev Reading (α : Type) (n : Nat) : Type := Except Stop (α × Shorter n)

/-! ## Strings -/

/-- The value of a hexadecimal digit. -/
def hexValue (b : UInt8) : Option Nat :=
  let n := b.toNat
  if 0x30 ≤ n && n ≤ 0x39 then some (n - 0x30)
  else if 0x41 ≤ n && n ≤ 0x46 then some (n - 0x37)
  else if 0x61 ≤ n && n ≤ 0x66 then some (n - 0x57)
  else none

/-- Reads four hexadecimal digits. -/
def hexFour (bs : Octets) : Reading Nat (bs.length + 1) :=
  match bs with
  | a :: b :: c :: d :: rest =>
    match hexValue a, hexValue b, hexValue c, hexValue d with
    | some a, some b, some c, some d =>
      .ok (((a * 16 + b) * 16 + c) * 16 + d, ⟨rest, by simp only [List.length_cons]; omega⟩)
    | _, _, _, _ => .error (.behind .badEscape rest)
  | _ => .error (.behind .endInString [])

/-- Reads the second half of a pair of surrogate escapes. -/
def lowSurrogate (high : Nat) (bs : Octets) : Reading Char (bs.length + 1) :=
  match bs with
  | [] => .error (.behind .endInString [])
  | 0x5c :: [] => .error (.behind .endInString [])
  | 0x5c :: 0x75 :: rest =>
    match hexFour rest with
    | .error e => .error e
    | .ok (low, ⟨rest', h⟩) =>
      if 0xdc00 ≤ low ∧ low ≤ 0xdfff then
        .ok (Char.ofNat ((high - 0xd800) * 0x400 + (low - 0xdc00) + 0x10000),
          ⟨rest', by simp only [List.length_cons]; omega⟩)
      else .error (.behind .loneSurrogate rest')
  | 0x5c :: _ :: rest => .error (.behind .shortHexEscape rest)
  | _ :: rest => .error (.behind .shortHexEscape rest)

/-- Reads an escape of one character, given by its code, after the mark. -/
def codeEscape (bs : Octets) : Reading Char (bs.length + 1) :=
  match hexFour bs with
  | .error e => .error e
  | .ok (n, ⟨rest, h⟩) =>
    if 0xdc00 ≤ n ∧ n ≤ 0xdfff then .error (.behind .loneSurrogate rest)
    else if 0xd800 ≤ n ∧ n ≤ 0xdbff then
      match lowSurrogate n rest with
      | .error e => .error e
      | .ok (c, ⟨rest', h'⟩) => .ok (c, ⟨rest', by omega⟩)
    else .ok (Char.ofNat n, ⟨rest, h⟩)

/-- Reads an escape after its backslash. -/
def escaped (bs : Octets) : Reading Char (bs.length + 1) :=
  match bs with
  | [] => .error (.behind .endInString [])
  | b :: rest =>
    let plain (c : Char) : Reading Char ((b :: rest).length + 1) :=
      .ok (c, ⟨rest, by simp only [List.length_cons]; omega⟩)
    if b = 0x22 then plain '"'
    else if b = 0x5c then plain '\\'
    else if b = 0x2f then plain '/'
    else if b = 0x62 then plain '\x08'
    else if b = 0x66 then plain '\x0c'
    else if b = 0x6e then plain '\n'
    else if b = 0x72 then plain '\r'
    else if b = 0x74 then plain '\t'
    else if b = 0x75 then
      match codeEscape rest with
      | .error e => .error e
      | .ok (c, ⟨rest', h⟩) => .ok (c, ⟨rest', by simp at h ⊢; omega⟩)
    else .error (.behind .badEscape rest)

/-- What follows the first octet that starts no character. -/
def afterInvalid : Octets → Octets
  | [] => []
  | b :: rest =>
    match (Utf8.next b rest).1 with
    | none => rest
    | some _ => afterInvalid (Utf8.next b rest).2
termination_by bs => bs.length
decreasing_by exact Nat.lt_succ_of_le (Utf8.length_next_le b rest)

/-- Reads a string after its opening quote. The octets read so far are kept in reverse; `start`
is where the string began, and `whole` bounds what is left behind it. -/
def readText (start whole seen bs : Octets) (h : bs.length ≤ whole.length) :
    Reading String whole.length :=
  match bs with
  | [] => .error (.behind .endInString [])
  | b :: rest =>
    if b = 0x22 then
      match Utf8.decode? seen.reverse with
      | some s => .ok (s, ⟨rest, h⟩)
      | none => .error (.behind .badCodePoint (afterInvalid start))
    else if b = 0x5c then
      match escaped rest with
      | .error e => .error e
      | .ok (c, ⟨rest', h'⟩) =>
        readText start whole ((Utf8.encode c.toString).reverse ++ seen) rest'
          (by simp only [List.length_cons] at h; omega)
    else if b < 0x20 then .error (.behind .controlCharacter rest)
    else readText start whole (b :: seen) rest (by simp only [List.length_cons] at h; omega)
termination_by bs.length
decreasing_by
  all_goals simp only [List.length_cons]
  all_goals omega

/-! ## Values -/

/-- Reads the rest of a literal name. -/
def readName (name : Octets) (bs : Octets) : Except Stop { r : Octets // r.length ≤ bs.length } :=
  match name, bs with
  | [], bs => .ok ⟨bs, Nat.le_refl _⟩
  | _ :: _, [] => .error (.behind .endInValue [])
  | a :: more, b :: rest =>
    if a = b then
      match readName more rest with
      | .error e => .error e
      | .ok ⟨r, h⟩ => .ok ⟨r, by simp only [List.length_cons]; omega⟩
    else .error (.behind .noIdent rest)

/-- Reads a number after its sign. -/
def readNumber (negative : Bool) (bs : Octets) : Reading Json bs.length :=
  match h : Numeral.read negative bs with
  | .error e => .error e
  | .ok (n, rest) => .ok (number n, ⟨rest, Numeral.length_of_read h⟩)

/-- Steps over the colon behind a key. -/
def readColon (bs : Octets) : Reading Unit bs.length :=
  match h : skipGaps bs with
  | [] => .error (.within .endInObject [])
  | b :: rest =>
    if b = 0x3a then
      .ok ((), ⟨rest, length_of_skipGaps h⟩)
    else .error (.within .noColon (b :: rest))

/-- What a container does next: end behind its closing bracket, or go on with an element. -/
inductive Turn (n : Nat) where
  | close (rest : Shorter n)
  | element (rest : { r : Octets // r.length ≤ n })

/-- Looks for the end of a list or the start of its next item, behind a comma if it is not the
first. -/
def listTurn (first : Bool) (bs : Octets) : Except Stop (Turn bs.length) :=
  match h : skipGaps bs with
  | [] => .error (.within .endInList [])
  | b :: rest =>
    have hl : rest.length < bs.length := length_of_skipGaps h
    if b = 0x5d then .ok (.close ⟨rest, hl⟩)
    else if first then
      .ok (.element ⟨b :: rest, hl⟩)
    else if b = 0x2c then
      match h' : skipGaps rest with
      | [] => .error (.within .endInValue [])
      | c :: more =>
        if c = 0x5d then .error (.within .trailingComma (c :: more))
        else .ok (.element ⟨c :: more, by
          have := length_of_skipGaps h'; rw [List.length_cons]; omega⟩)
    else .error (.within .noListEnd (b :: rest))

/-- Looks for the end of an object or the quote that opens its next key, behind a comma if it is
not the first. -/
def objectTurn (first : Bool) (bs : Octets) : Except Stop (Turn bs.length) :=
  match h : skipGaps bs with
  | [] => .error (.within .endInObject [])
  | b :: rest =>
    have hl : rest.length < bs.length := length_of_skipGaps h
    if b = 0x7d then .ok (.close ⟨rest, hl⟩)
    else if first then
      if b = 0x22 then .ok (.element ⟨rest, Nat.le_of_lt hl⟩)
      else .error (.within .keyNotString (b :: rest))
    else if b = 0x2c then
      match h' : skipGaps rest with
      | [] => .error (.within .endInValue [])
      | c :: more =>
        if c = 0x22 then .ok (.element ⟨more, by have := length_of_skipGaps h'; omega⟩)
        else if c = 0x7d then .error (.within .trailingComma (c :: more))
        else .error (.within .keyNotString (c :: more))
    else .error (.within .noObjectEnd (b :: rest))

mutual

/-- Reads one value. `depth` more containers may open inside each other; `whole` bounds what is
left behind the value. -/
def readValue (depth : Nat) (whole bs : Octets) (h : bs.length ≤ whole.length) :
    Reading Json whole.length :=
  match hs : skipGaps bs with
  | [] => .error (.within .endInValue [])
  | b :: rest =>
    have hl : rest.length < bs.length := length_of_skipGaps hs
    have hn : rest.length ≤ whole.length := by omega
    let named (name : Octets) (v : Json) : Reading Json whole.length :=
      match readName name rest with
      | .error e => .error e
      | .ok ⟨r, hr⟩ => .ok (v, ⟨r, by omega⟩)
    if b = 0x6e then named [0x75, 0x6c, 0x6c] null
    else if b = 0x74 then named [0x72, 0x75, 0x65] (bool true)
    else if b = 0x66 then named [0x61, 0x6c, 0x73, 0x65] (bool false)
    else if b = 0x2d then
      match readNumber true rest with
      | .error e => .error e
      | .ok (v, ⟨r, hr⟩) => .ok (v, ⟨r, by omega⟩)
    else if Numeral.isDigit b then
      match readNumber false (b :: rest) with
      | .error e => .error e
      | .ok (v, ⟨r, hr⟩) => .ok (v, ⟨r, by rw [List.length_cons] at hr; omega⟩)
    else if b = 0x22 then
      match readText rest rest [] rest (Nat.le_refl _) with
      | .error e => .error e
      | .ok (s, ⟨r, hr⟩) => .ok (string s, ⟨r, by omega⟩)
    else if b = 0x5b then
      match depth with
      | 0 => .error (.within .tooDeep (b :: rest))
      | depth + 1 => readItems depth whole true [] rest hn
    else if b = 0x7b then
      match depth with
      | 0 => .error (.within .tooDeep (b :: rest))
      | depth + 1 => readMembers depth whole true [] rest hn
    else .error (.within .noValue (b :: rest))
termination_by (bs.length, 0)

/-- Reads the items of a list. Those read so far are kept in reverse. -/
def readItems (depth : Nat) (whole : Octets) (first : Bool) (seen : List Json) (bs : Octets)
    (h : bs.length ≤ whole.length) : Reading Json whole.length :=
  match listTurn first bs with
  | .error e => .error e
  | .ok (.close ⟨rest, hr⟩) => .ok (array seen.reverse, ⟨rest, by omega⟩)
  | .ok (.element ⟨rest, hr⟩) =>
    match readValue depth bs rest hr with
    | .error e => .error e
    | .ok (v, ⟨rest', hv⟩) => readItems depth whole false (v :: seen) rest' (by omega)
termination_by (bs.length, 1)
decreasing_by
  all_goals simp only [Prod.lex_def]
  all_goals omega

/-- Reads the members of an object and files each where its key belongs. -/
def readMembers (depth : Nat) (whole : Octets) (first : Bool) (seen : List (String × Json))
    (bs : Octets) (h : bs.length ≤ whole.length) : Reading Json whole.length :=
  match objectTurn first bs with
  | .error e => .error e
  | .ok (.close ⟨rest, hr⟩) => .ok (object seen, ⟨rest, by omega⟩)
  | .ok (.element ⟨rest, hr⟩) =>
    match readText rest bs [] rest hr with
    | .error e => .error e
    | .ok (k, ⟨rest₁, h₁⟩) =>
      match readColon rest₁ with
      | .error e => .error e
      | .ok ((), ⟨rest₂, h₂⟩) =>
        match readValue depth bs rest₂ (by omega) with
        | .error e => .error e
        | .ok (v, ⟨rest₃, h₃⟩) =>
          readMembers depth whole false (Entries.put k v seen) rest₃ (by omega)
termination_by (bs.length, 1)
decreasing_by
  all_goals simp only [Prod.lex_def]
  all_goals omega

end

/-- Reads a text that holds one value. -/
def read (bs : Octets) : Except ReadError Json :=
  match readValue maxDepth bs bs (Nat.le_refl _) with
  | .error stop => .error (stop.place bs)
  | .ok (v, ⟨rest, _⟩) =>
    match skipGaps rest with
    | [] => .ok v
    | left => .error ((Stop.within .trailingCharacters left).place bs)

/-- Reads a text that holds one value. -/
def parse (s : String) : Except ReadError Json := read (Utf8.encode s)

end Json

end SchemaGate
