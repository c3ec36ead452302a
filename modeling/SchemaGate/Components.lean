import SchemaGate.CompileError
import SchemaGate.Json.Value

/-!
# Components

The definitions that a document shares: a table of sections, each a table of definitions by
name. A reference is resolved by its last two segments, the section and the name; what stands
before them is not looked at.

* `Reference.split?` finds the two segments;
* `Components.resolve` looks them up.
-/

namespace SchemaGate

namespace Reference

/-- The characters after the last slash, and those before it if there is one. -/
def splitLast (cs : List Char) : List Char × Option (List Char) :=
  let last := (cs.reverse.takeWhile (· != '/')).reverse
  match cs.reverse.dropWhile (· != '/') with
  | [] => (last, none)
  | _ :: front => (last, some front.reverse)

/-- The section and the name of a reference: its last two segments, neither of them empty. -/
def split? (reference : String) : Option (String × String) :=
  match splitLast reference.toList with
  | (_, none) => none
  | (name, some front) =>
    let section_ := (splitLast front).1
    if name ≠ [] ∧ section_ ≠ [] then some (String.ofList section_, String.ofList name) else none

/-- The section and the name of a reference, or what is wrong with it. -/
def split (reference : String) : Except CompileError (String × String) :=
  match split? reference with
  | some parts => .ok parts
  | none => .error (.malformedRef reference)

/-- What stands after the last slash, the whole reference if there is none. -/
def lastSegment (reference : String) : String :=
  String.ofList (splitLast reference.toList).1

end Reference

/-- The shared definitions of a document, by section. -/
structure Components where
  sections : Entries Json

namespace Components

/-- No definitions. -/
def empty : Components := ⟨[]⟩

/-- The definitions that a value holds. -/
def ofJson : Json → Except CompileError Components
  | .object sections => .ok ⟨sections⟩
  | v => .error (.invalidDocument s!"components must be an object, found {v.kind}")

/-- Whether there is no section. -/
def isEmpty (c : Components) : Bool := c.sections.isEmpty

/-- The definitions of a section. -/
def section? (c : Components) (name : String) : Option (Entries Json) :=
  (Entries.get? name c.sections).bind Json.object?

/-- A definition by section and name. -/
def get? (c : Components) (sectionName name : String) : Option Json :=
  (c.section? sectionName).bind (Entries.get? name)

/-- The definition that a reference leads to. -/
def resolve (c : Components) (reference : String) : Except CompileError Json :=
  match Reference.split reference with
  | .error e => .error e
  | .ok (sectionName, name) =>
    match c.get? sectionName name with
    | some v => .ok v
    | none => .error (.unresolvedRef reference)

end Components

end SchemaGate
