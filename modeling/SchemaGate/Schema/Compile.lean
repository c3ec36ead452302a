import SchemaGate.Schema.Keyword

/-!
# Compilation

From a schema to a validator. A reference stands for the definition that it leads to; what stands
beside it does not count. Every place that refers to a definition gets a tree of its own.

A reference that leads back to itself can have no tree. The compiler therefore carries the
references that it may still follow (`pending`): following one takes it off the list for all that
lies below. At first these are all references of the schema and of the definitions, so that one
that is missing is one that is being followed already. Each step down either follows a reference,
which shortens the list, or goes to a part of the schema, which is smaller; so compilation ends
for every input.
-/

namespace SchemaGate

/-- A member is smaller than the object, which is what compilation goes down by. -/
theorem Entries.sizeOf_get?_lt {key : String} {members : Entries Json} {v : Json}
    (h : Entries.get? key members = some v) : sizeOf v < sizeOf members := by
  induction members with
  | nil => simp [Entries.get?] at h
  | cons e rest ih =>
    obtain ⟨k, x⟩ := e
    simp only [Entries.get?] at h
    split at h
    · simp only [Option.some.injEq] at h
      subst h
      simp only [List.cons.sizeOf_spec, Prod.mk.sizeOf_spec]
      omega
    · have := ih h
      simp only [List.cons.sizeOf_spec]
      omega

namespace Json

mutual

/-- Every text that stands under a reference keyword somewhere in a value. -/
def references : Json → List String
  | array items => referencesOfItems items
  | object members => referencesOfMembers members
  | _ => []

/-- The references in items. -/
def referencesOfItems : List Json → List String
  | [] => []
  | x :: rest => references x ++ referencesOfItems rest

/-- The references in members, and those that members are. -/
def referencesOfMembers : List (String × Json) → List String
  | [] => []
  | (k, x) :: rest =>
    (match x with
      | string r => if k = "$ref" then [r] else []
      | x => references x) ++ referencesOfMembers rest

end

end Json

namespace Validator

/-- What schemas are compiled against. -/
structure Context where
  components : Option Components
  formats : FormatRegistry

theorem length_without_lt {r : String} {pending : List String} (h : r ∈ pending) :
    (pending.filter (· != r)).length < pending.length :=
  List.length_filter_lt_length_iff_exists.2 ⟨r, h, by simp⟩

mutual

/-- Compiles a schema, following references that are pending. -/
def compileWith (ctx : Context) (pending : List String) (schema : Json) :
    Except CompileError Validator :=
  match schema with
  | .object members =>
    match Entries.get? "$ref" members with
    | some (.string r) =>
      match ctx.components with
      | none => .error .missingComponents
      | some components =>
        if h : r ∈ pending then
          match components.resolve r with
          | .error e => .error e
          | .ok target =>
            have := length_without_lt h
            compileWith ctx (pending.filter (· != r)) target
        else .error (.cyclicRef r)
    | some _ => Keyword.invalid "$ref" "must be a string"
    | none =>
      match Keyword.common members with
      | .error e => .error e
      | .ok common => compileBody ctx pending common members
  | _ => Keyword.invalid "schema" "must be an object"
termination_by (pending.length, sizeOf schema, 0)
decreasing_by
  all_goals simp_wf
  · exact Prod.Lex.left _ _ this
  · apply Prod.Lex.right
    apply Prod.Lex.left
    omega

/-- Compiles a schema that is no reference, given the keywords that every schema has. -/
def compileBody (ctx : Context) (pending : List String) (common : Common)
    (members : List (String × Json)) : Except CompileError Validator :=
  match h₁ : Entries.get? "oneOf" members with
  | some (.array (b :: bs)) => do
    have := Entries.sizeOf_get?_lt h₁
    let branches ← compileAll ctx pending (b :: bs)
    .ok (.oneOf common branches (← Keyword.discriminator members (b :: bs)))
  | some _ => Keyword.invalid "oneOf" "must be a non-empty list of schemas"
  | none =>
    match h₂ : Entries.get? "anyOf" members with
    | some (.array (b :: bs)) => do
      have := Entries.sizeOf_get?_lt h₂
      let branches ← compileAll ctx pending (b :: bs)
      .ok (.anyOf common branches (← Keyword.discriminator members (b :: bs)))
    | some _ => Keyword.invalid "anyOf" "must be a non-empty list of schemas"
    | none =>
      match h₃ : Entries.get? "allOf" members with
      | some (.array (b :: bs)) => do
        have := Entries.sizeOf_get?_lt h₃
        .ok (.allOf common (← compileAll ctx pending (b :: bs)))
      | some _ => Keyword.invalid "allOf" "must be a non-empty list of schemas"
      | none =>
        match Entries.get? "type" members with
        | none => .error .missingType
        | some (.string type) => compileTyped ctx pending common members type
        | some v => .error (.unknownType v.render)
termination_by (pending.length, sizeOf members, 2)
decreasing_by
  all_goals simp_wf
  all_goals apply Prod.Lex.right
  · apply Prod.Lex.left
    simp at this
    omega
  · apply Prod.Lex.left
    simp at this
    omega
  · apply Prod.Lex.left
    simp at this
    omega
  · apply Prod.Lex.right
    omega

/-- Compiles a schema of a type. -/
def compileTyped (ctx : Context) (pending : List String) (common : Common)
    (members : List (String × Json)) (type : String) : Except CompileError Validator :=
  match type with
  | "integer" => return .integer (← Keyword.integerRule common members)
  | "number" => return .number (← Keyword.numberRule common members)
  | "string" => return .string (← Keyword.stringRule ctx.formats common members)
  | "boolean" => .ok (.boolean common)
  | "array" =>
    match h : Entries.get? "items" members with
    | none => Keyword.invalid "items" "is required for arrays"
    | some schema => do
      have := Entries.sizeOf_get?_lt h
      let items ← compileWith ctx pending schema
      return .array (← Keyword.arrayRule common members) items
  | "object" => do
    let properties ← match h : Entries.get? "properties" members with
      | none => .ok []
      | some (.object declared) => do
        have := Entries.sizeOf_get?_lt h
        let compiled ← compileMembers ctx pending declared
        .ok (Entries.sorted compiled)
      | some _ => Keyword.invalid "properties" "must be an object"
    let required ← Keyword.required members
    let additional ← match h : Entries.get? "additionalProperties" members with
      | none => .ok .allow
      | some (.bool true) => .ok .allow
      | some (.bool false) => .ok .deny
      | some (.object schema) => do
        have := Entries.sizeOf_get?_lt h
        let v ← compileWith ctx pending (.object schema)
        .ok (.schema v)
      | some _ => Keyword.invalid "additionalProperties" "must be a boolean or a schema"
    return .object (← Keyword.objectRule common required members) properties additional
  | _ => .error (.unknownType type)
termination_by (pending.length, sizeOf members, 1)
decreasing_by
  all_goals simp_wf
  all_goals apply Prod.Lex.right
  all_goals apply Prod.Lex.left
  · omega
  · simp at this
    omega
  · simp at this
    omega

/-- Compiles schemas in order. -/
def compileAll (ctx : Context) (pending : List String) (schemas : List Json) :
    Except CompileError (List Validator) :=
  match schemas with
  | [] => .ok []
  | s :: rest => do
    let v ← compileWith ctx pending s
    return v :: (← compileAll ctx pending rest)
termination_by (pending.length, sizeOf schemas, 0)
decreasing_by
  all_goals simp_wf
  all_goals apply Prod.Lex.right
  all_goals apply Prod.Lex.left
  all_goals omega

/-- Compiles schemas that have names, in order. -/
def compileMembers (ctx : Context) (pending : List String) (schemas : List (String × Json)) :
    Except CompileError (Entries Validator) :=
  match schemas with
  | [] => .ok []
  | (name, s) :: rest => do
    let v ← compileWith ctx pending s
    return (name, v) :: (← compileMembers ctx pending rest)
termination_by (pending.length, sizeOf schemas, 0)
decreasing_by
  all_goals simp_wf
  all_goals apply Prod.Lex.right
  all_goals apply Prod.Lex.left
  all_goals omega

end

/-- The references that a schema may lead to. -/
def reachable (ctx : Context) (schema : Json) : List String :=
  schema.references ++
    match ctx.components with
    | some c => Json.referencesOfMembers c.sections
    | none => []

/-- Compiles a schema. -/
def compile (ctx : Context) (schema : Json) : Except CompileError Validator :=
  compileWith ctx (reachable ctx schema) schema

end Validator

end SchemaGate
