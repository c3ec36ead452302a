import SchemaGate.Pattern.Expr
import SchemaGate.Pattern.Flags

/-!
# Escapes in patterns

A backslash makes an ordinary character of a special one, or a special one of a letter. Letters
without a meaning are errors, and so are digits, which would refer back to a group.
-/

namespace SchemaGate.Pattern

/-- What an escape stands for. `octet` tells a character given by two digits, which is an octet
where a pattern is not about Unicode. -/
inductive Escape where
  | char (c : Char) (octet : Bool)
  | set (s : CharSet)
  | look (condition : Look)

/-- The characters that a pattern gives a meaning, which a backslash takes away. -/
def special : List Char := "\\.+*?()|[]\x7b\x7d^$#&-~".toList

/-- Whether a backslash before a character leaves it as it is. -/
def isPlainEscape (c : Char) : Bool :=
  special.contains c || (c.toNat < 0x80 && !c.isAlphanum && c != '<' && c != '>')

/-- The first place of a text within another, as what stands before it and after it. -/
def splitAt? (mark : List Char) : List Char → Option (List Char × List Char)
  | [] => none
  | c :: rest =>
    if mark.isPrefixOf (c :: rest) then some ([], (c :: rest).drop mark.length)
    else (splitAt? mark rest).map fun (a, b) => (c :: a, b)

/-- The set that the text between the braces of a named set means. -/
def setInBraces? (text : List Char) : Option (Bool × CharSet) :=
  let byValue (negated : Bool) (parts : List Char × List Char) : Option (Bool × CharSet) :=
    (CharSet.valued? (String.ofList parts.1) (String.ofList parts.2)).map fun s => (negated, s)
  match splitAt? ['!', '='] text with
  | some parts => byValue true parts
  | none =>
    match splitAt? [':'] text with
    | some parts => byValue false parts
    | none =>
      match splitAt? ['='] text with
      | some parts => byValue false parts
      | none => (CharSet.named? (String.ofList text)).map fun s => (false, s)

/-- The set as the flags see it. -/
def withCase (flags : Flags) (s : CharSet) : CharSet :=
  if flags.insensitive then .folded flags.unicode s else s

/-- The set or the characters outside it. -/
def negateIf (negated : Bool) (s : CharSet) : CharSet := if negated then .complement s else s

/-- Reads a set of the standard after its letter. -/
def readNamedSet (flags : Flags) (negated : Bool) (cs : List Char) : Read CharSet :=
  if !flags.unicode then none
  else
    match skip flags cs with
    | [] => none
    | '\x7b' :: rest =>
      let inside := rest.takeWhile (· != '\x7d')
      match rest.dropWhile (· != '\x7d') with
      | [] => none
      | _ :: after =>
        let text := if flags.extended then inside.filter (!Text.isBlank ·) else inside
        (setInBraces? text).map fun (other, s) =>
          (negateIf (negated != other) (withCase flags s), after)
    | '\\' :: _ => none
    | c :: rest =>
      (CharSet.named? c.toString).map fun s =>
        (negateIf negated (withCase flags s), skip flags rest)

/-- Reads the name in braces that a word boundary may have. A brace that opens no name is left
for a repetition to read. -/
def readEdgeName (flags : Flags) (cs : List Char) : Read WordEdge :=
  match cs with
  | '\x7b' :: rest =>
    let isNamed (c : Char) : Bool := c.isAlpha || c == '-'
    match skip flags rest with
    | [] => none
    | c :: more =>
      if isNamed c then
        let text := if flags.extended then (c :: more).filter (!Text.isBlank ·) else c :: more
        match text.dropWhile isNamed with
        | '\x7d' :: _ =>
          let after := ((c :: more).dropWhile (· != '\x7d')).drop 1
          match String.ofList (text.takeWhile isNamed) with
          | "start" => some (.front, after)
          | "end" => some (.back, after)
          | "start-half" => some (.frontHalf, after)
          | "end-half" => some (.backHalf, after)
          | _ => none
        | _ => none
      else some (.edge, cs)
  | _ => some (.edge, cs)

/-- Reads a set with a letter of its own. Outside Unicode its complement would hold parts of
characters, which no pattern may match. -/
def letterSet (flags : Flags) (s : Bool → CharSet) (negated : Bool) (rest : List Char) :
    Read Escape :=
  if negated && !flags.unicode then none
  else some (.set (negateIf negated (s flags.unicode)), rest)

/-- Reads an escape after its backslash. -/
def readEscape (flags : Flags) : List Char → Read Escape
  | [] => none
  | c :: rest =>
    let char (c : Char) : Read Escape := some (.char c false, rest)
    let word (place : WordEdge) : Read Escape := some (.look (.word place flags.unicode), rest)
    if isPlainEscape c then char c
    else
      match c with
      | 'x' | 'u' | 'U' =>
        (readCode flags c rest).map fun (d, after) =>
          (.char d (c == 'x' && 0x80 ≤ d.toNat && d.toNat < 0x100), after)
      | 'p' => (readNamedSet flags false rest).map fun (s, after) => (.set s, after)
      | 'P' => (readNamedSet flags true rest).map fun (s, after) => (.set s, after)
      | 'd' => letterSet flags CharSet.digits false rest
      | 'D' => letterSet flags CharSet.digits true rest
      | 's' => letterSet flags CharSet.blanks false rest
      | 'S' => letterSet flags CharSet.blanks true rest
      | 'w' => letterSet flags CharSet.wordChars false rest
      | 'W' => letterSet flags CharSet.wordChars true rest
      | 'a' => char '\x07'
      | 'f' => char '\x0c'
      | 't' => char '\t'
      | 'n' => char '\n'
      | 'r' => char '\r'
      | 'v' => char '\x0b'
      | 'A' => some (.look .textStart, rest)
      | 'z' => some (.look .textEnd, rest)
      | 'b' =>
        (readEdgeName flags rest).map fun (place, after) =>
          (.look (.word place flags.unicode), after)
      | 'B' => word .inside
      | '<' => word .front
      | '>' => word .back
      | _ => none

end SchemaGate.Pattern
