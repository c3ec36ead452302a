import SchemaGate.Json.Value
import SchemaGate.Text.Utf8

/-!
# Presence

What a validator is handed: nothing at all, an explicit null, a value, or a binary payload.
A validator treats the first two differently, so a bare value would not do.
-/

namespace SchemaGate

open Utf8 (Octets)

/-- The state of one input. -/
inductive Field where
  | absent
  | null
  | value (v : Json)
  | binary (payload : Octets)

namespace Field

instance : Inhabited Field := ⟨absent⟩

/-- A value as an input; the null value is the explicit null. -/
def ofJson : Json → Field
  | .null => null
  | v => value v

/-- A value that may be missing. -/
def ofOption : Option Json → Field
  | none => absent
  | some v => ofJson v

/-- A text as an input. -/
def text (s : String) : Field := value (.string s)

/-- Whether nothing was given. -/
def isAbsent : Field → Bool
  | absent => true
  | _ => false

/-- Whether the input is null. A value that is null counts, however it came to be wrapped. -/
def isNull : Field → Bool
  | null => true
  | value .null => true
  | _ => false

/-- The value, if the input is one. -/
def value? : Field → Option Json
  | value v => some v
  | _ => none

/-- The value that stands for the input: none for nothing, and text for a binary payload. -/
def toJson? : Field → Option Json
  | absent => none
  | null => some .null
  | value v => some v
  | binary payload => some (.string (Utf8.decodeLossy payload))

/-- The name of the state, or of the value's kind. -/
def kind : Field → String
  | absent => "absent"
  | null => "null"
  | value v => v.kind
  | binary _ => "binary"

/-! ## Small laws -/

@[simp] theorem ofJson_null : ofJson .null = null := rfl

theorem toJson?_ofJson (v : Json) : (ofJson v).toJson? = some v := by
  cases v <;> rfl

theorem toJson?_eq_none_iff (f : Field) : f.toJson? = none ↔ f = absent := by
  cases f <;> simp [toJson?]

end Field

end SchemaGate
