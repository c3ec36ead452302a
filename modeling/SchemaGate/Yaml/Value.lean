import SchemaGate.Yaml.Lexeme
import SchemaGate.Yaml.Node
import SchemaGate.Yaml.Scalar

/-!
# Values of YAML texts

A text holds one value. Mappings become objects, whose keys are the texts of scalars, tags
aside; of entries with the same key the last counts. An alias stands for a copy of its node.

* `Json.ofYaml?` is the value of a text;
* `maxDepth` bounds how deep collections may be nested, `Node.steps` how often aliases may be
  followed, so that a small text does not unfold without end.
-/

namespace SchemaGate.Yaml

/-- How deep collections may be nested. -/
def maxDepth : Nat := 128

/-- How many aliases may be followed for each step through the tree. -/
def aliasesPerStep : Nat := 100

/-- What building values needs: the number of aliases that may still be followed. -/
abbrev Budget := StateT Nat Option

/-- The node itself, or the one that an alias stands for. -/
def follow? (anchored : List (Nat × Node)) : Node → Budget Node
  | .aliasOf a => do
    let left ← get
    if left = 0 then failure
    set (left - 1)
    (anchored.lookup a).elim failure pure
  | n => pure n

/-- The text of a scalar as a key. -/
def keyText? (anchored : List (Nat × Node)) (n : Node) : Budget String := do
  match ← follow? anchored n with
  | .scalar _ _ text => pure text
  | _ => failure

/-- The value of a node, where collections may be nested this deep. -/
def value (anchored : List (Nat × Node)) (depth : Nat) (n : Node) : Budget Json := do
  match ← follow? anchored n with
  | .aliasOf _ => failure
  | .scalar p plain text => (scalarValue? p.tag plain text).elim failure pure
  | .sequence p items =>
    match depth with
    | 0 => failure
    | depth + 1 =>
      if p.tag = some .own then failure
      return .array (← items.mapM (value anchored depth))
  | .mapping p entries =>
    match depth with
    | 0 => failure
    | depth + 1 =>
      if p.tag = some .own then failure
      return .object (← entries.foldlM (fun members (k, v) => do
        let key ← keyText? anchored k
        return Entries.put key (← value anchored depth v) members) [])

/-- The value of a tree. -/
def Node.toJson? (n : Node) : Option Json :=
  ((value (n.anchored []) maxDepth n).run (aliasesPerStep * n.steps)).map Prod.fst

end SchemaGate.Yaml

namespace SchemaGate

/-- The value of a YAML text. JSON texts are YAML texts too. -/
def Json.ofYaml? (text : String) : Option Json :=
  ((Yaml.tokens? text).bind Yaml.document?).bind Yaml.Node.toJson?

end SchemaGate
