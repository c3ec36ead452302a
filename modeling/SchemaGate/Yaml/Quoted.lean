import SchemaGate.Yaml.Line

/-!
# Quoted scalars

A scalar between quotes may run over several lines, which are folded as `Gap.appendTo` says.
Between single quotes only the quote itself is special, and is written twice; between double
quotes a reverse solidus starts an escape.
-/

namespace SchemaGate.Yaml

/-- The number that a hexadecimal digit stands for. -/
def hexDigit? (c : Char) : Option Nat :=
  if c.isDigit then some (c.toNat - '0'.toNat)
  else if 'a' ≤ c ∧ c ≤ 'f' then some (c.toNat - 'a'.toNat + 10)
  else if 'A' ≤ c ∧ c ≤ 'F' then some (c.toNat - 'A'.toNat + 10)
  else none

/-- The number that exactly `n` hexadecimal digits at the front stand for. -/
def hexNumber? (value : Nat) : Nat → List Char → Option Nat
  | 0, _ => some value
  | _ + 1, [] => none
  | n + 1, c :: rest => (hexDigit? c).bind fun d => hexNumber? (16 * value + d) n rest

/-- The character that `n` hexadecimal digits name, and how many characters the escape takes. -/
def hexEscape? (n : Nat) (rest : List Char) : Option (Char × Nat) :=
  (hexNumber? 0 n rest).bind fun value =>
    if value.isValidChar then some (Char.ofNat value, n + 1) else none

/-- The character that the text behind a reverse solidus names, and how many characters of it
are used. -/
def escape? : List Char → Option (Char × Nat)
  | [] => none
  | c :: rest =>
    match c with
    | '0' => some ('\x00', 1)
    | 'a' => some ('\x07', 1)
    | 'b' => some ('\x08', 1)
    | 't' => some ('\t', 1)
    | '\t' => some ('\t', 1)
    | 'n' => some ('\n', 1)
    | 'v' => some ('\x0b', 1)
    | 'f' => some ('\x0c', 1)
    | 'r' => some ('\r', 1)
    | 'e' => some ('\x1b', 1)
    | ' ' => some (' ', 1)
    | '"' => some ('"', 1)
    | '/' => some ('/', 1)
    | '\\' => some ('\\', 1)
    | 'N' => some ('\u0085', 1)
    | '_' => some ('\u00a0', 1)
    | 'L' => some ('\u2028', 1)
    | 'P' => some ('\u2029', 1)
    | 'x' => hexEscape? 2 rest
    | 'u' => hexEscape? 4 rest
    | 'U' => hexEscape? 8 rest
    | _ => none

/-- Reads on behind the opening quote: the text up to the closing one, and the cursor behind
that. `text` is what was read so far, newest first. A document mark at a line's start is
refused, as is the end of the text. -/
def quoted? (double : Bool) (text : List Char) (gap : Gap) (p : Place) :
    List Char → Option (String × Cursor)
  | [] => none
  | c :: rest =>
    if p.column = 0 && isDocumentMark (c :: rest) then none
    else if isSpacing c then quoted? double text (gap.addSpacing c) p.next rest
    else if isBreak c then quoted? double text (gap.addBreak c) p.newLine rest
    else
      let text := gap.appendTo text
      if double then
        if c = '"' then some (String.ofList text.reverse, ⟨rest, p.next⟩)
        else if c = '\\' then
          match _ : rest with
          | [] => none
          | d :: after =>
            if isBreak d then quoted? double text (.lineEnds none []) p.next.newLine after
            else
              match escape? (d :: after) with
              | none => none
              | some (e, n) => quoted? double (e :: text) .none (p.skip (n + 1)) ((d :: after).drop n)
        else quoted? double (c :: text) .none p.next rest
      else if c = '\'' then
        match _ : rest with
        | '\'' :: after => quoted? double ('\'' :: text) .none (p.skip 2) after
        | _ => some (String.ofList text.reverse, ⟨rest, p.next⟩)
      else quoted? double (c :: text) .none p.next rest
termination_by cs => cs.length
decreasing_by all_goals (simp only [List.length_cons, List.length_drop]; omega)

/-- Reads a quoted scalar; the cursor stands at the opening quote. -/
def Cursor.quoted? (double : Bool) (c : Cursor) : Option (String × Cursor) :=
  Yaml.quoted? double [] .none c.place.next (c.rest.drop 1)

end SchemaGate.Yaml
