/-!
# Blank characters

The characters with the Unicode property White_Space, and trimming by that property. ASCII
blanks alone are a proper subset: a no-break space or an ideographic space is blank too, while
the zero-width space and the byte-order mark are not.

* `Text.isBlank` is the class;
* `Text.trim` drops blanks at both ends and nothing else.
-/

namespace SchemaGate.Text

/-- Membership in White_Space. -/
def isBlank (c : Char) : Bool :=
  let n := c.toNat
  (9 ≤ n && n ≤ 13) || n == 0x20 || n == 0x85 || n == 0xa0 || n == 0x1680 ||
    (0x2000 ≤ n && n ≤ 0x200a) || n == 0x2028 || n == 0x2029 || n == 0x202f ||
    n == 0x205f || n == 0x3000

/-- The characters from the first to the last that is not blank. -/
def trimChars (cs : List Char) : List Char :=
  ((cs.dropWhile isBlank).reverse.dropWhile isBlank).reverse

/-- A text without the blanks around it. -/
def trim (s : String) : String := String.ofList (trimChars s.toList)

end SchemaGate.Text
