import SchemaGate.Field
import SchemaGate.Format.Registry
import SchemaGate.Pattern.Parser

/-!
# Validators

A validator is a compiled schema: a tree whose nodes are of one of nine kinds. Every node has the
keywords of `Common`; the rules of a kind that do not involve other nodes are gathered in a
structure of their own, so that checking them needs no recursion.

Declared properties are in the order of their names, and so are the required names and the
targets of a discriminator.
-/

namespace SchemaGate

/-- The keywords of every schema. -/
structure Common where
  /-- Whether an explicit null is allowed. -/
  nullable : Bool := false
  /-- What stands in for an input that was not given. -/
  default? : Option Json := none
  /-- Whether the property must not come from a client. -/
  readOnly : Bool := false

/-- The widths of integers. -/
inductive IntegerFormat where
  | int32
  | int64
  deriving DecidableEq

/-- The widths of floating-point numbers; they are all checked alike. -/
inductive NumberFormat where
  | float
  | double
  deriving DecidableEq

/-- A limit on a number, which itself may be out of reach. -/
structure Limit where
  value : Number
  exclusive : Bool
  deriving DecidableEq

/-- Rules for integers. -/
structure IntegerRule where
  common : Common := {}
  format : Option IntegerFormat := none
  minimum : Option Limit := none
  maximum : Option Limit := none
  members : Option (List Json) := none

/-- Rules for numbers. -/
structure NumberRule where
  common : Common := {}
  format : Option NumberFormat := none
  minimum : Option Limit := none
  maximum : Option Limit := none
  members : Option (List Json) := none

/-- Rules for strings. The check is the one that was registered for the format. -/
structure StringRule where
  common : Common := {}
  format : Option String := none
  check : Option FormatCheck := none
  pattern : Option Pattern := none
  minLength : Option Nat := none
  maxLength : Option Nat := none
  members : Option (List Json) := none

/-- Rules for an array as a whole. -/
structure ArrayRule where
  common : Common := {}
  minItems : Option Nat := none
  maxItems : Option Nat := none
  uniqueItems : Bool := false

/-- Rules for an object as a whole. -/
structure ObjectRule where
  common : Common := {}
  required : List String := []
  minProperties : Option Nat := none
  maxProperties : Option Nat := none

/-- What becomes of members that no property declares. -/
inductive Additional (α : Type) where
  | allow
  | deny
  | schema (s : α)

/-- How a member of an object picks a branch: by its text, which must be one of the targets. -/
structure Discriminator where
  property : String
  targets : Entries Nat
  deriving DecidableEq

/-- A compiled schema. -/
inductive Validator where
  | integer (rule : IntegerRule)
  | number (rule : NumberRule)
  | string (rule : StringRule)
  | boolean (common : Common)
  | array (rule : ArrayRule) (items : Validator)
  | object (rule : ObjectRule) (properties : List (String × Validator))
      (additional : Additional Validator)
  | oneOf (common : Common) (branches : List Validator) (discriminator : Option Discriminator)
  | anyOf (common : Common) (branches : List Validator) (discriminator : Option Discriminator)
  | allOf (common : Common) (branches : List Validator)

namespace Validator

instance : Inhabited Validator := ⟨boolean {}⟩

/-- The keywords that every schema has. -/
def common : Validator → Common
  | integer rule => rule.common
  | number rule => rule.common
  | string rule => rule.common
  | boolean common => common
  | array rule _ => rule.common
  | object rule _ _ => rule.common
  | oneOf common _ _ => common
  | anyOf common _ _ => common
  | allOf common _ => common

/-- Whether the schema is for properties that clients must not send. -/
def isReadOnly (v : Validator) : Bool := v.common.readOnly

/-- The name of the node's kind. -/
def kind : Validator → String
  | integer _ => "integer"
  | number _ => "number"
  | string _ => "string"
  | boolean _ => "boolean"
  | array _ _ => "array"
  | object _ _ _ => "object"
  | oneOf _ _ _ => "oneOf"
  | anyOf _ _ _ => "anyOf"
  | allOf _ _ => "allOf"

end Validator

end SchemaGate
