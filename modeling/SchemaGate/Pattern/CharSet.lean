import SchemaGate.Text.Blank
import SchemaGate.Unicode.Category
import SchemaGate.Unicode.Folding
import SchemaGate.Unicode.Property
import SchemaGate.Unicode.Script

/-!
# Sets of characters in patterns

A set is kept as it was written: ranges and named sets of the Unicode standard under set
operations. `CharSet.holds` is membership; names are looked up by `CharSet.named?`, which
ignores case, blanks, hyphens, underscores and a leading `is`.
-/

namespace SchemaGate

/-- A set of characters. -/
inductive CharSet where
  | none
  | range (low high : Nat)
  | blank
  | category (name : String)
  | script (name : String)
  | property (name : String)
  | union (a b : CharSet)
  | meet (a b : CharSet)
  | without (a b : CharSet)
  | either (a b : CharSet)
  | complement (a : CharSet)
  | folded (unicode : Bool) (a : CharSet)
  deriving DecidableEq

namespace CharSet

open Unicode

/-- The first row of a table that bears a name. -/
def row? (table : List (List String × Runs)) (name : String) : Option Runs :=
  (table.find? (·.1.contains name)).map (·.2)

/-- Membership in a general category of two letters. -/
def inCategory (name : String) (n : Nat) : Bool :=
  ((row? categories name).getD []).holds n

/-- Membership in a binary property. -/
def hasProperty (name : String) (n : Nat) : Bool :=
  match properties.find? (·.names.contains name) with
  | some p => (p.categories.any (inCategory · n) || p.added.holds n) && !p.removed.holds n
  | Option.none => false

/-- The ASCII letter of the other case; another code point is its own partner. -/
def asciiPartner (n : Nat) : Nat :=
  if 0x41 ≤ n && n ≤ 0x5a then n + 32 else if 0x61 ≤ n && n ≤ 0x7a then n - 32 else n

/-- Membership of a code point. -/
def holds : CharSet → Nat → Bool
  | none, _ => false
  | range low high, n => low ≤ n && n ≤ high
  | blank, n => Text.isBlank (Char.ofNat n)
  | category name, n => inCategory name n
  | script name, n => ((row? scripts name).getD []).holds n
  | property name, n => hasProperty name n
  | union a b, n => a.holds n || b.holds n
  | meet a b, n => a.holds n && b.holds n
  | without a b, n => a.holds n && !b.holds n
  | either a b, n => a.holds n != b.holds n
  | complement a, n => !a.holds n
  | folded true a, n => (orbit n).any a.holds
  | folded false a, n => a.holds n || a.holds (asciiPartner n)

/-- The set of one character. -/
def single (c : Char) : CharSet := range c.toNat c.toNat

/-- The union of sets. -/
def unions (sets : List CharSet) : CharSet := sets.foldl union none

/-- Every character. -/
def any : CharSet := complement none

/-- The characters that are in ASCII. -/
def ascii : CharSet := range 0 0x7f

/-- Decimal digits, of every writing system or of ASCII. -/
def digits (unicode : Bool) : CharSet :=
  if unicode then category "Nd" else range 0x30 0x39

/-- Blanks, of Unicode or of ASCII. -/
def blanks (unicode : Bool) : CharSet :=
  if unicode then blank else union (range 9 13) (single ' ')

/-- Characters of words: letters, marks, digits and connectors, or those of ASCII. -/
def wordChars (unicode : Bool) : CharSet :=
  if unicode then
    unions [property "Alphabetic", category "Mn", category "Mc", category "Me", category "Nd",
      category "Pc", property "Join_Control"]
  else unions [range 0x30 0x39, range 0x41 0x5a, single '_', range 0x61 0x7a]

/-- The classes that have a name between colons. -/
def classNamed? (name : String) : Option CharSet :=
  match name with
  | "alnum" => some (unions [range 0x30 0x39, range 0x41 0x5a, range 0x61 0x7a])
  | "alpha" => some (union (range 0x41 0x5a) (range 0x61 0x7a))
  | "ascii" => some ascii
  | "blank" => some (union (single '\t') (single ' '))
  | "cntrl" => some (union (range 0 0x1f) (range 0x7f 0x7f))
  | "digit" => some (range 0x30 0x39)
  | "graph" => some (range 0x21 0x7e)
  | "lower" => some (range 0x61 0x7a)
  | "print" => some (range 0x20 0x7e)
  | "punct" => some (unions [range 0x21 0x2f, range 0x3a 0x40, range 0x5b 0x60, range 0x7b 0x7e])
  | "space" => some (blanks false)
  | "upper" => some (range 0x41 0x5a)
  | "word" => some (wordChars false)
  | "xdigit" => some (unions [range 0x30 0x39, range 0x41 0x46, range 0x61 0x66])
  | _ => Option.none

/-! ## Names of the standard -/

/-- What two spellings of one name have in common. -/
def plainName (name : String) : String :=
  let cs := name.toList
  let (is_, body) := match cs with
    | a :: b :: rest => if a.toLower = 'i' && b.toLower = 's' then (true, rest) else (false, cs)
    | _ => (false, cs)
  let kept := (body.filter fun c => c != ' ' && c != '_' && c != '-' && c.toNat < 0x80).map
    Char.toLower
  if is_ && kept == ['c'] then "isc" else String.ofList kept

/-- The unions of categories, under the names of the unions. -/
def categoryGroups : List (List String × List String) := [
  (["L", "Letter"], ["Lu", "Ll", "Lt", "Lm", "Lo"]),
  (["LC", "Cased_Letter"], ["Lu", "Ll", "Lt"]),
  (["M", "Mark", "Combining_Mark"], ["Mn", "Mc", "Me"]),
  (["N", "Number"], ["Nd", "Nl", "No"]),
  (["P", "Punctuation", "punct"], ["Pc", "Pd", "Ps", "Pe", "Pi", "Pf", "Po"]),
  (["S", "Symbol"], ["Sm", "Sc", "Sk", "So"]),
  (["Z", "Separator"], ["Zs", "Zl", "Zp"])]

/-- The characters that belong to some category other than the unassigned. -/
def assigned : CharSet :=
  unions (Unicode.categoryTable.map fun r => category (r.1.headD ""))

/-- A general category, or a union of them. -/
def categoryNamed? (plain : String) : Option CharSet :=
  let matching (names : List String) : Bool := names.any fun n => plainName n == plain
  if plain == "any" then some any
  else if plain == "assigned" then some assigned
  else if plain == "ascii" then some ascii
  else if matching ["Cn", "Unassigned"] then some (complement assigned)
  else if matching ["C", "Other"] then
    some (union (complement assigned) (unions [category "Cc", category "Cf", category "Co"]))
  else
    match categoryGroups.find? fun g => matching g.1 with
    | some g => some (unions (g.2.map category))
    | Option.none =>
      (Unicode.categoryTable.find? fun r => matching r.1).map fun r => category (r.1.headD "")

/-- A script. -/
def scriptNamed? (plain : String) : Option CharSet :=
  (Unicode.scriptTable.find? fun r => r.1.any fun n => plainName n == plain).map fun r =>
    script (r.1.headD "")

/-- A binary property. -/
def propertyNamed? (plain : String) : Option CharSet :=
  if plain == "whitespace" || plain == "wspace" || plain == "space" then some blank
  else
    (Unicode.propertyTable.find? fun r => r.names.any fun n => plainName n == plain).map fun r =>
      property (r.names.headD "")

/-- The set that a bare name stands for: a property, a category or a script, in this order. Three
short names that properties share with categories mean the categories. -/
def named? (name : String) : Option CharSet :=
  let plain := plainName name
  let asProperty :=
    if plain == "cf" || plain == "sc" || plain == "lc" then Option.none else propertyNamed? plain
  (asProperty.or (categoryNamed? plain)).or (scriptNamed? plain)

/-- The set that a name and a value stand for. -/
def valued? (name value : String) : Option CharSet :=
  let plain := plainName name
  if plain == "gc" || plain == "generalcategory" then categoryNamed? (plainName value)
  else if plain == "sc" || plain == "script" || plain == "scx" || plain == "scriptextensions" then
    scriptNamed? (plainName value)
  else Option.none

end CharSet

end SchemaGate
