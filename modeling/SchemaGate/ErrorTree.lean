import SchemaGate.Json.Printer

/-!
# Error trees

What is wrong with an input, in the shape of the input: a message, or errors under the names of
members and the indices of items. A tree is written as the value that it looks like, with its
keys in order.

* `ErrorTree.toJson` and `ErrorTree.ofJson?` go between trees and such values;
* `ErrorTree.serialize` writes a tree in any format that has texts and tables, and does not say
  which of the two a tree is;
* `ErrorTree.WellFormed` says that keys are sorted and distinct at every level, which
  `ErrorTree.ofJson?` and `Entries.file` see to.
-/

namespace SchemaGate

/-- An error message, or errors by key. -/
inductive ErrorTree where
  | message (text : String)
  | nested (errors : List (String × ErrorTree))

/-- Errors by key. -/
abbrev ErrorMap := Entries ErrorTree

namespace ErrorTree

instance : Inhabited ErrorTree := ⟨nested []⟩

/-- One error under a key. -/
def under (key : String) (error : ErrorTree) : ErrorTree := nested [(key, error)]

/-- The text of a message. -/
def message? : ErrorTree → Option String
  | message text => some text
  | nested _ => none

/-- The errors by key. -/
def nested? : ErrorTree → Option ErrorMap
  | message _ => none
  | nested errors => some errors

/-- The error under a key. -/
def get? (key : String) (e : ErrorTree) : Option ErrorTree := e.nested?.bind (Entries.get? key)

/-! ## As values -/

mutual

/-- The value that a tree looks like. -/
def toJson : ErrorTree → Json
  | message text => .string text
  | nested errors => .object (toMembers errors)

/-- The members that errors by key look like. -/
def toMembers : List (String × ErrorTree) → List (String × Json)
  | [] => []
  | (k, e) :: rest => (k, toJson e) :: toMembers rest

end

mutual

/-- The tree that a value of texts and objects looks like. -/
def ofJson? : Json → Option ErrorTree
  | .string text => some (message text)
  | .object members => (ofMembers? members []).map nested
  | _ => none

/-- Files the trees of members, in turn, among those read so far. -/
def ofMembers? : List (String × Json) → ErrorMap → Option ErrorMap
  | [], seen => some seen
  | (k, v) :: rest, seen =>
    match ofJson? v with
    | some e => ofMembers? rest (Entries.file k e seen)
    | none => none

end

/-! ## In any format -/

/-- A format with texts and tables. A table is begun, takes entries one by one and is closed. -/
structure Target (α β : Type) where
  text : String → α
  opening : β
  entry : β → String → α → β
  closing : β → α

namespace Target

/-- Values. An entry is put into an object. -/
def value : Target Json (Entries Json) where
  text := .string
  opening := []
  entry members key v := Entries.put key v members
  closing := .object

/-- Text without blanks. A comma stands before every entry but the first. -/
def compact : Target String (Option String) where
  text := Json.quote
  opening := none
  entry written key v :=
    let part := Json.quote key ++ ":" ++ v
    match written with
    | none => some part
    | some before => some (before ++ "," ++ part)
  closing written := "\x7b" ++ written.getD "" ++ "\x7d"

end Target

section

variable {α β : Type}

mutual

/-- Writes a tree: a message as a text, errors by key as a table. -/
def serialize (target : Target α β) : ErrorTree → α
  | message text => target.text text
  | nested errors => target.closing (serializeErrors target target.opening errors)

/-- Writes errors by key, in turn, behind the entries of a table. -/
def serializeErrors (target : Target α β) : β → List (String × ErrorTree) → β
  | table, [] => table
  | table, (k, e) :: rest => serializeErrors target (target.entry table k (serialize target e)) rest

end

end

/-- A tree in words: the message, or the errors by key as text. -/
def display : ErrorTree → String
  | message text => text
  | nested errors => serialize .compact (nested errors)

/-! ## Well-formed trees -/

mutual

/-- Keys ascend strictly at every level. -/
def WellFormed : ErrorTree → Prop
  | message _ => True
  | nested errors =>
    (Entries.keys errors).Pairwise (fun a b : String => a < b) ∧ WellFormedErrors errors

/-- Every tree under a key is well-formed. -/
def WellFormedErrors : List (String × ErrorTree) → Prop
  | [] => True
  | (_, e) :: rest => WellFormed e ∧ WellFormedErrors rest

end

end ErrorTree

end SchemaGate
