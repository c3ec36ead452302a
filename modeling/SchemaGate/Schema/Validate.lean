import SchemaGate.Schema.Scalar

/-!
# Validation

A validator takes an input and answers with the output, in which texts are read and defaults are
filled in, or with an error tree in the shape of the input. `raw` says that texts may stand for
other kinds of values.

* Items of an array are validated in order, and the first failure is the answer.
* Members of an object are all validated, and every failure is reported. Declared properties come
  first in the output; the other members follow in the order that taking the declared ones away
  leaves (`ObjectRule.leftovers`).
* Branches of a combinator see the same input, and their failures are not reported.
-/

namespace SchemaGate

/-- What a node answers. -/
abbrev Outcome := Except ErrorTree Field

/-! ## Arrays -/

namespace ArrayRule

/-- The items of a raw text: what stands between commas, nothing for the empty text. -/
def splitRaw (s : String) : List Json :=
  if s.isEmpty then []
  else (Address.splitOn ',' s.toList).map fun part => .string (String.ofList part)

/-- The items that an input holds, or that a raw text lists. -/
def read (input : Field) (raw : Bool) : Option (List Json) :=
  match input with
  | .value (.array items) => some items
  | .value (.string s) => if raw then some (splitRaw s) else none
  | _ => none

/-- Validates items from the given index on. The first failure is reported under its index. -/
def collect (item : Json → Outcome) (index : Nat) : List Json → Except ErrorTree (List Json)
  | [] => .ok []
  | x :: rest =>
    match item x with
    | .error e => .error (.under (toString index) e)
    | .ok output =>
      match collect item (index + 1) rest with
      | .error e => .error e
      | .ok outputs => .ok (output.toJson?.getD .null :: outputs)

/-- Whether no two items are equal. -/
def allDistinct : List Json → Bool
  | [] => true
  | x :: rest => !rest.any (fun y => x.same y) && allDistinct rest

/-- The checks of the items as a whole. -/
def checks (r : ArrayRule) (items : List Json) : List (Bool × ErrorTree) :=
  (match r.minItems with
    | none => []
    | some k => [(decide (k ≤ items.length),
        .message ("number of items must be more than " ++ toString k))]) ++
  (match r.maxItems with
    | none => []
    | some k => [(decide (items.length ≤ k),
        .message ("number of items must be less than " ++ toString k))]) ++
  (if r.uniqueItems then [(allDistinct items, .message "all items must be unique")] else [])

/-- Validates an array, given how to validate an item. -/
def validate (r : ArrayRule) (item : Json → Outcome) (input : Field) (raw : Bool) : Outcome :=
  match r.common.settle "list" input with
  | .error e => .error e
  | .ok (.done output) => .ok output
  | .ok (.check input) =>
    match read input raw with
    | none => .error (typeError "list")
    | some items =>
      match collect item 0 items with
      | .error e => .error e
      | .ok outputs =>
        match checkAll (r.checks outputs) with
        | .error e => .error e
        | .ok () => .ok (.value (.array outputs))

end ArrayRule

/-! ## Objects -/

namespace ObjectRule

/-- The failures among outcomes, by name. -/
def failures (outcomes : Entries Outcome) : ErrorMap :=
  Entries.sorted (outcomes.filterMap fun (name, r) =>
    match r with
    | .error e => some (name, e)
    | .ok _ => none)

/-- The values among outcomes, in order. -/
def outputs (outcomes : Entries Outcome) : Entries Json :=
  outcomes.filterMap fun (name, r) =>
    match r with
    | .error _ => none
    | .ok f => f.toJson?.map fun v => (name, v)

/-- The members that no property declares. -/
def leftovers (names : List String) (members : Entries Json) : Entries Json :=
  names.foldl (fun left name => Entries.withdraw name left) members

/-- The errors for names that are required and not there. Properties that clients must not send
are not asked for. -/
def missing (r : ObjectRule) (readOnly : List String) (members : Entries Json) : ErrorMap :=
  Entries.sorted <|
    ((r.required.filter fun name => !Entries.has name members).filter
      fun name => !readOnly.contains name).map fun name => (name, .message "required property")

/-- The checks of the output as a whole. -/
def checks (r : ObjectRule) (members : Entries Json) : List (Bool × ErrorTree) :=
  (match r.minProperties with
    | none => []
    | some k => [(decide (k ≤ members.length),
        .message ("number of properties must be more than " ++ toString k))]) ++
  (match r.maxProperties with
    | none => []
    | some k => [(decide (members.length ≤ k),
        .message ("number of properties must be less than " ++ toString k))])

/-- Puts the outcomes of all members together. -/
def conclude (r : ObjectRule) (outcomes : Entries Outcome) : Outcome :=
  match failures outcomes with
  | [] =>
    let members := outputs outcomes
    match checkAll (r.checks members) with
    | .error e => .error e
    | .ok () => .ok (.value (.object members))
  | errors => .error (.nested errors)

end ObjectRule

/-- The outcome for a declared property that clients must not send. -/
def readOnlyOutcome (value : Option Json) : Outcome :=
  match value with
  | some _ => .error (.message "property is read-only")
  | none => .ok .absent

/-! ## Combinators -/

namespace Combinator

/-- The complaint of a combinator. -/
def failed (keyword : String) : ErrorTree := .message ("fail to validate " ++ keyword)

/-- Settles absent inputs, and null ones if the combinator allows null itself. -/
def settle (c : Common) (input : Field) : Stage :=
  let input := c.substitute input
  if input.isAbsent then .done .absent
  else if c.nullable && input.isNull then .done .null
  else .check input

/-- The outputs among outcomes, in order. -/
def accepted (outcomes : List Outcome) : List Field :=
  outcomes.filterMap fun r =>
    match r with
    | .ok f => some f
    | .error _ => none

/-- The one output among outcomes. -/
def exactlyOne (outcomes : List Outcome) : Outcome :=
  match accepted outcomes with
  | [f] => .ok f
  | _ => .error (failed "oneOf")

/-- The first output among outcomes. -/
def firstOf (outcomes : List Outcome) : Outcome :=
  match accepted outcomes with
  | f :: _ => .ok f
  | [] => .error (failed "anyOf")

/-- The members of an output that is an object. -/
def members? : Field → Option (Entries Json)
  | .value (.object members) => some members
  | _ => none

/-- The members of all outputs, if each output is an object. -/
def allMembers : List Field → Option (List (Entries Json))
  | [] => some []
  | f :: rest =>
    match members? f, allMembers rest with
    | some m, some ms => some (m :: ms)
    | _, _ => none

/-- Outputs of all branches as one. Objects are merged, later members going before earlier ones
of the same name; else the last output counts. Absent outputs do not count. -/
def merge (outputs : List Field) : Field :=
  let present := outputs.filter fun f => !f.isAbsent
  match present.getLast? with
  | none => .absent
  | some last =>
    match allMembers present with
    | some ms => .value (.object (ms.foldl (fun acc m => Entries.putAll m acc) []))
    | none => last

/-- All outputs together, if every branch has one. -/
def everyOne (outcomes : List Outcome) : Outcome :=
  let outputs := accepted outcomes
  if outputs.length = outcomes.length then .ok (merge outputs) else .error (failed "allOf")

end Combinator

namespace Discriminator

/-- The branch that an input asks for. -/
def select (d : Discriminator) (input : Field) : Except ErrorTree Nat :=
  match input with
  | .value (.object members) =>
    match Entries.get? d.property members with
    | none => .error (.under d.property (.message "is required"))
    | some v =>
      match v.string?.bind fun name => Entries.get? name d.targets with
      | some index => .ok index
      | none =>
        let names := d.targets.map fun t => Json.quote t.1
        .error (.under d.property
          (.message ("must be one of [" ++ String.intercalate ", " names ++ "]")))
  | _ => .error (typeError "dict")

end Discriminator

/-! ## Trees -/

namespace Validator

/-- The names of the declared properties that clients must not send. -/
def readOnlyNames (properties : Entries Validator) : List String :=
  (properties.filter fun p => p.2.isReadOnly).map Prod.fst

mutual

/-- Validates an input. -/
def validate (v : Validator) (input : Field) (raw : Bool) : Outcome :=
  match v with
  | integer rule => rule.validate input raw
  | number rule => rule.validate input raw
  | string rule => rule.validate input
  | boolean common => common.validateBool input raw
  | array rule items => rule.validate (fun x => validate items (.ofJson x) raw) input raw
  | object rule properties additional =>
    match rule.common.settle "dict" input with
    | .error e => .error e
    | .ok (.done output) => .ok output
    | .ok (.check (.value (.object members))) =>
      match rule.missing (readOnlyNames properties) members with
      | [] =>
        let rest := ObjectRule.leftovers (properties.map Prod.fst) members
        rule.conclude (propertyOutcomes properties members raw ++
          rest.map fun (name, x) => (name, validateAdditional additional x raw))
      | errors => .error (.nested errors)
    | .ok (.check _) => .error (typeError "dict")
  | oneOf common branches discriminator =>
    match Combinator.settle common input with
    | .done output => .ok output
    | .check input =>
      match discriminator with
      | none => Combinator.exactlyOne (branchOutcomes branches input raw)
      | some d => dispatch branches d input raw "oneOf"
  | anyOf common branches discriminator =>
    match Combinator.settle common input with
    | .done output => .ok output
    | .check input =>
      match discriminator with
      | none => Combinator.firstOf (branchOutcomes branches input raw)
      | some d => dispatch branches d input raw "anyOf"
  | allOf common branches =>
    match Combinator.settle common input with
    | .done output => .ok output
    | .check input => Combinator.everyOne (branchOutcomes branches input raw)

/-- The outcomes of the declared properties, by name. -/
def propertyOutcomes (properties : List (String × Validator)) (members : Entries Json)
    (raw : Bool) : Entries Outcome :=
  match properties with
  | [] => []
  | (name, v) :: rest =>
    (name,
      if v.isReadOnly then readOnlyOutcome (Entries.get? name members)
      else validate v (.ofOption (Entries.get? name members)) raw) ::
    propertyOutcomes rest members raw

/-- The outcome of a member that no property declares. -/
def validateAdditional (additional : Additional Validator) (x : Json) (raw : Bool) : Outcome :=
  match additional with
  | .allow => .ok (.value x)
  | .deny => .error (.message "additional property not allowed")
  | .schema v => validate v (.ofJson x) raw

/-- The outcomes of the branches, in order. -/
def branchOutcomes (branches : List Validator) (input : Field) (raw : Bool) : List Outcome :=
  match branches with
  | [] => []
  | v :: rest => validate v input raw :: branchOutcomes rest input raw

/-- The outcome of one branch, if there is such a branch. -/
def branchOutcome (branches : List Validator) (index : Nat) (input : Field) (raw : Bool) :
    Option Outcome :=
  match branches, index with
  | [], _ => none
  | v :: _, 0 => some (validate v input raw)
  | _ :: rest, index + 1 => branchOutcome rest index input raw

/-- Validates an input with the branch that it asks for. -/
def dispatch (branches : List Validator) (d : Discriminator) (input : Field) (raw : Bool)
    (keyword : String) : Outcome :=
  match d.select input with
  | .error e => .error e
  | .ok index =>
    match branchOutcome branches index input raw with
    | some (.ok output) => .ok output
    | _ => .error (Combinator.failed keyword)

end

/-- Validates a value. -/
def validateValue (v : Validator) (x : Json) (raw : Bool) : Outcome := v.validate (.ofJson x) raw

end Validator

end SchemaGate
