import SchemaGate.Entries
import SchemaGate.Format.Address
import SchemaGate.Format.Calendar
import SchemaGate.Format.Coded
import SchemaGate.Text.Quoted

/-!
# Formats of strings

A format is a named test of a text. A registry holds the formats that schemas may call by name;
a name that nobody registered stands for no test at all.

* `FormatCheck.complaint` is what a test says of a text, nothing if the text passes;
* `FormatRegistry.builtin` holds the formats that every registry starts with.
-/

namespace SchemaGate

/-- A named test. -/
structure FormatCheck where
  name : String
  complaint : String → Option String

/-- Tests by name, in the order of the names. -/
structure FormatRegistry where
  checks : Entries FormatCheck

namespace FormatCheck

/-- A test of characters with one complaint. -/
def ofTest (name complaint : String) (test : List Char → Bool) : FormatCheck :=
  ⟨name, fun s => if test s.toList then none else some complaint⟩

/-- How a test shows itself. -/
def describe (c : FormatCheck) : String :=
  "FormatCheck \x7b name: " ++ Text.quoted c.name ++ ", .. \x7d"

end FormatCheck

namespace FormatRegistry

/-- No formats. -/
def empty : FormatRegistry := ⟨[]⟩

/-- Adds a test; one of the same name gives way. -/
def register (check : FormatCheck) (r : FormatRegistry) : FormatRegistry :=
  ⟨Entries.file check.name check r.checks⟩

/-- The test of a name. -/
def get? (r : FormatRegistry) (name : String) : Option FormatCheck := Entries.get? name r.checks

/-- Whether a name has a test. -/
def contains (r : FormatRegistry) (name : String) : Bool := (r.get? name).isSome

/-- The registered names in order. -/
def names (r : FormatRegistry) : List String := Entries.keys r.checks

/-- How a registry shows itself. -/
def describe (r : FormatRegistry) : String :=
  "FormatRegistry \x7b formats: " ++ Text.quotedList r.names ++ " \x7d"

/-- The formats that every registry starts with. -/
def standard : List FormatCheck := [
  .ofTest "date" "value should be date format" Calendar.isDate,
  .ofTest "date-time" "value should be datetime format" Calendar.isDateTime,
  .ofTest "email" "value should be valid email" Address.isEmail,
  .ofTest "uuid" "value should be uuid" Coded.isUuid,
  .ofTest "byte" "value should be base64-encoded string" Coded.isBase64,
  .ofTest "ipv4" "value should be valid ipv4 address" Address.isIpv4,
  .ofTest "ipv6" "value should be valid ipv6 address" Address.isIpv6,
  .ofTest "hostname" "value should be valid hostname" Address.isHostname]

/-- The registry of the standard formats. -/
def builtin : FormatRegistry := standard.foldl (fun r c => r.register c) empty

end FormatRegistry

end SchemaGate
