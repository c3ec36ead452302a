import SchemaGate.Entries
import SchemaGate.Json.Number

/-!
# Values of a document

The data that schemas describe. Objects keep their members in declared order
(`Entries.put`, `Entries.withdraw`), but `Json.same` looks past that order.

* `Json.WellFormed` says that no object repeats a key;
* `Json.same` is equality of values, blind to the order of members.
-/

namespace SchemaGate

/-- A value of a document. -/
inductive Json where
  | null
  | bool (value : Bool)
  | number (value : Number)
  | string (value : String)
  | array (items : List Json)
  | object (members : List (String × Json))

namespace Json

instance : Inhabited Json := ⟨null⟩

/-- The name of a value's kind. -/
def kind : Json → String
  | null => "null"
  | bool _ => "boolean"
  | number _ => "number"
  | string _ => "string"
  | array _ => "array"
  | object _ => "object"

/-! ## Views -/

/-- The text of a string. -/
def string? : Json → Option String
  | string s => some s
  | _ => none

/-- The number. -/
def number? : Json → Option Number
  | number n => some n
  | _ => none

/-- The truth value. -/
def bool? : Json → Option Bool
  | bool b => some b
  | _ => none

/-- The items of an array. -/
def array? : Json → Option (List Json)
  | array items => some items
  | _ => none

/-- The members of an object. -/
def object? : Json → Option (Entries Json)
  | object members => some members
  | _ => none

/-- A number without a sign that is written as an integer. -/
def natural? : Json → Option Nat
  | number (.int n) => if 0 ≤ n.val then some n.val.toNat else none
  | _ => none

/-- The member under a key, if the value is an object that has one. -/
def member? (key : String) (v : Json) : Option Json := v.object?.bind (Entries.get? key)

theorem bind_string?_eq_some_iff {v : Option Json} {s : String} :
    v.bind string? = some s ↔ v = some (.string s) := by
  cases v with
  | none => simp
  | some x => cases x <;> simp [string?]

theorem bind_object?_eq_some_iff {v : Option Json} {members : Entries Json} :
    v.bind object? = some members ↔ v = some (.object members) := by
  cases v with
  | none => simp
  | some x => cases x <;> simp [object?]

/-- Whether the value is null. -/
def isNull : Json → Bool
  | null => true
  | _ => false

/-- An integer of 64 bits as a value; null for a larger one. -/
def ofInt (n : Int) : Json :=
  match WideInt.ofInt? n with
  | some w => number (.int w)
  | none => null

/-! ## Equality -/

mutual

/-- Equality of values. Members of objects are compared by key. -/
def same : Json → Json → Bool
  | null, null => true
  | bool a, bool b => a == b
  | number a, number b => a.same b
  | string a, string b => a == b
  | array xs, array ys => sameItems xs ys
  | object xs, object ys => xs.length == ys.length && sameMembers xs ys
  | _, _ => false

/-- Equality of items, position by position. -/
def sameItems : List Json → List Json → Bool
  | [], [] => true
  | x :: xs, y :: ys => same x y && sameItems xs ys
  | _, _ => false

/-- Whether each member has an equal partner under its key. -/
def sameMembers : List (String × Json) → List (String × Json) → Bool
  | [], _ => true
  | (k, x) :: xs, ys =>
    (match Entries.get? k ys with
      | some y => same x y
      | none => false) && sameMembers xs ys

end

/-! ## Well-formed values -/

mutual

/-- No object in the value has two members under one key. -/
def WellFormed : Json → Prop
  | array items => WellFormedItems items
  | object members => (Entries.keys members).Nodup ∧ WellFormedMembers members
  | _ => True

/-- Every item is well-formed. -/
def WellFormedItems : List Json → Prop
  | [] => True
  | x :: xs => WellFormed x ∧ WellFormedItems xs

/-- Every member's value is well-formed. -/
def WellFormedMembers : List (String × Json) → Prop
  | [] => True
  | (_, x) :: xs => WellFormed x ∧ WellFormedMembers xs

end

end Json

end SchemaGate
