import SchemaGate.Pattern.CharSet

/-!
# Quoted texts for people

A text between quotes in which every character can be seen: line breaks, tabs, quotes and
backslashes are escaped, and so is a character that prints nothing or joins the one before it,
by its code point.
-/

namespace SchemaGate.Text

/-- Categories of characters that show nothing of their own. -/
def unseenCategories : List String := ["Cc", "Cf", "Co", "Zl", "Zp", "Zs"]

/-- Whether a character has a shape of its own. -/
def isShown (c : Char) : Bool :=
  c == ' ' ||
    (CharSet.assigned.holds c.toNat &&
      !unseenCategories.any (CharSet.inCategory · c.toNat) &&
      !CharSet.hasProperty "Grapheme_Extend" c.toNat)

/-- A character as it stands between the quotes. -/
def shown (c : Char) : String :=
  if c = '"' then "\\\""
  else if c = '\\' then "\\\\"
  else if c = '\n' then "\\n"
  else if c = '\r' then "\\r"
  else if c = '\t' then "\\t"
  else if c.toNat = 0 then "\\0"
  else if 0x20 ≤ c.toNat && c.toNat < 0x7f then c.toString
  else if isShown c then c.toString
  else "\\u\x7b" ++ String.ofList (Nat.toDigits 16 c.toNat) ++ "\x7d"

/-- A text between quotes. -/
def quoted (s : String) : String := "\"" ++ String.join (s.toList.map shown) ++ "\""

/-- Texts between brackets. -/
def quotedList (texts : List String) : String :=
  "[" ++ String.intercalate ", " (texts.map quoted) ++ "]"

end SchemaGate.Text
