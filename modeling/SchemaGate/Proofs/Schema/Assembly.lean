import SchemaGate.Proofs.Entries
import SchemaGate.Proofs.Lists
import SchemaGate.Proofs.Schema.Keywords
import SchemaGate.Proofs.Schema.Output
import SchemaGate.Schema.Compile

/-!
# Assembling a node

Of the schemas below it, a schema that is no reference needs to know nothing but what they are
compiled to. `Validator.assemble` makes a node from such results, and compilation is the assembly
of every node that it comes to (`Validator.compileWith_object_eq`).

The schemas below are those at the places that the compiler visits (`Form.subschemas`): the branches
of a combinator, else the items of an array, else the properties and the other members of an object.
-/

namespace SchemaGate

/-! ## Places for schemas -/

/-- What a schema that is no reference is, with the value of the keyword that decides it. -/
inductive Form where
  | oneOf (branches : Json)
  | anyOf (branches : Json)
  | allOf (branches : Json)
  | typed (type : Json)
  | untyped

namespace Form

/-- The form of a schema with these members: a combinator goes before a type. -/
def ofMembers (members : Entries Json) : Form :=
  match Entries.get? "oneOf" members with
  | some v => .oneOf v
  | none =>
    match Entries.get? "anyOf" members with
    | some v => .anyOf v
    | none =>
      match Entries.get? "allOf" members with
      | some v => .allOf v
      | none =>
        match Entries.get? "type" members with
        | some v => .typed v
        | none => .untyped

/-- The schemas of declared properties. -/
def declared (members : Entries Json) : Entries Json :=
  match Entries.get? "properties" members with
  | some (.object schemas) => schemas
  | _ => []

/-- The schema for members that no property declares, if there is one. -/
def additional (members : Entries Json) : List Json :=
  match Entries.get? "additionalProperties" members with
  | some (.object schema) => [.object schema]
  | _ => []

/-- The schemas that a schema with these members is put together from. -/
def subschemas (members : Entries Json) : List Json :=
  match ofMembers members with
  | .oneOf v => v.array?.getD []
  | .anyOf v => v.array?.getD []
  | .allOf v => v.array?.getD []
  | .typed (.string "array") => (Entries.get? "items" members).toList
  | .typed (.string "object") => (declared members).map Prod.snd ++ additional members
  | _ => []

end Form

namespace Validator

/-! ## Assembly -/

section Assembly

variable (formats : FormatRegistry) (compile : Json → Except CompileError Validator)

/-- The branches of a combinator. -/
def assembleBranches (keyword : String) (branches : Json) :
    Except CompileError (List Validator) :=
  match branches with
  | .array (b :: bs) => (b :: bs).mapM compile
  | _ => Keyword.invalid keyword "must be a non-empty list of schemas"

/-- A combinator that may choose its branch by a discriminator. -/
def assembleChoice (node : List Validator → Option Discriminator → Validator) (keyword : String)
    (members : Entries Json) (value : Json) : Except CompileError Validator := do
  let branches ← assembleBranches compile keyword value
  .ok (node branches (← Keyword.discriminator members (value.array?.getD [])))

/-- The trees of named schemas. -/
def assembleNamed (schemas : Entries Json) : Except CompileError (Entries Validator) :=
  schemas.mapM fun m => do
    let v ← compile m.2
    return (m.1, v)

/-- The declared properties of an object. -/
def assembleProperties (members : Entries Json) : Except CompileError (Entries Validator) :=
  match Entries.get? "properties" members with
  | none => .ok []
  | some (.object schemas) => do
    let compiled ← assembleNamed compile schemas
    .ok (Entries.sorted compiled)
  | some _ => Keyword.invalid "properties" "must be an object"

/-- What an object does with its other members. -/
def assembleAdditional (members : Entries Json) :
    Except CompileError (Additional Validator) :=
  match Entries.get? "additionalProperties" members with
  | none => .ok .allow
  | some (.bool true) => .ok .allow
  | some (.bool false) => .ok .deny
  | some (.object schema) => do
    let v ← compile (.object schema)
    .ok (.schema v)
  | some _ => Keyword.invalid "additionalProperties" "must be a boolean or a schema"

/-- The node for an array. -/
def assembleArray (common : Common) (members : Entries Json) : Except CompileError Validator :=
  match Entries.get? "items" members with
  | none => Keyword.invalid "items" "is required for arrays"
  | some schema => do
    let items ← compile schema
    return .array (← Keyword.arrayRule common members) items

/-- The node for an object. -/
def assembleObject (common : Common) (members : Entries Json) :
    Except CompileError Validator := do
  let properties ← assembleProperties compile members
  let required ← Keyword.required members
  let additional ← assembleAdditional compile members
  return .object (← Keyword.objectRule common required members) properties additional

/-- The node for a type. -/
def assembleTyped (common : Common) (members : Entries Json) (type : String) :
    Except CompileError Validator :=
  match type with
  | "integer" => return .integer (← Keyword.integerRule common members)
  | "number" => return .number (← Keyword.numberRule common members)
  | "string" => return .string (← Keyword.stringRule formats common members)
  | "boolean" => .ok (.boolean common)
  | "array" => assembleArray compile common members
  | "object" => assembleObject compile common members
  | _ => .error (.unknownType type)

/-- The node for a schema with these members, given the keywords that every schema has. -/
def assembleBody (common : Common) (members : Entries Json) : Except CompileError Validator :=
  match Form.ofMembers members with
  | .oneOf v => assembleChoice compile (.oneOf common) "oneOf" members v
  | .anyOf v => assembleChoice compile (.anyOf common) "anyOf" members v
  | .allOf v => do .ok (.allOf common (← assembleBranches compile "allOf" v))
  | .typed (.string type) => assembleTyped formats compile common members type
  | .typed v => .error (.unknownType v.render)
  | .untyped => .error .missingType

/-- The node for a schema with these members, given what the schemas below are compiled to. -/
def assemble (members : Entries Json) : Except CompileError Validator := do
  let common ← Keyword.common members
  assembleBody formats compile common members

end Assembly

/-! ## Compilation is assembly -/

section

variable (ctx : Context) (pending : List String)

theorem compileAll_eq (schemas : List Json) :
    compileAll ctx pending schemas = schemas.mapM (compileWith ctx pending) := by
  induction schemas with
  | nil => rw [compileAll]; rfl
  | cons s rest ih =>
      rw [compileAll, List.mapM_cons, ih]

theorem compileMembers_eq (schemas : Entries Json) :
    compileMembers ctx pending schemas = assembleNamed (compileWith ctx pending) schemas := by
  induction schemas with
  | nil => rw [compileMembers, assembleNamed, List.mapM_nil]; rfl
  | cons m rest ih =>
      obtain ⟨name, s⟩ := m
      rw [compileMembers, ih, assembleNamed, assembleNamed, List.mapM_cons]
      cases compileWith ctx pending s with
      | error e => rfl
      | ok v => rfl

/-- A schema with a type is assembled from what its subschemas are compiled to. -/
theorem compileTyped_eq (common : Common) (members : Entries Json) (type : String) :
    compileTyped ctx pending common members type =
      assembleTyped ctx.formats (compileWith ctx pending) common members type := by
  unfold compileTyped
  split
  · rfl
  · rfl
  · rfl
  · rfl
  · show _ = assembleArray (compileWith ctx pending) common members
    unfold assembleArray
    split
    · rename_i hitems
      simp only [hitems]
    · rename_i schema hitems
      simp only [hitems]
  · show _ = assembleObject (compileWith ctx pending) common members
    unfold assembleObject assembleProperties assembleAdditional
    simp only [compileMembers_eq]
    -- by what becomes of other members, then by what is declared
    split
    all_goals rename_i hadditional
    all_goals simp only [hadditional]
    all_goals split
    all_goals rename_i hproperties
    all_goals simp only [hproperties, bind_assoc]
  · rename_i hinteger hnumber hstring hboolean harray hobject
    unfold assembleTyped
    split
    · exact absurd rfl hinteger
    · exact absurd rfl hnumber
    · exact absurd rfl hstring
    · exact absurd rfl hboolean
    · exact absurd rfl harray
    · exact absurd rfl hobject
    · rfl

theorem assembleBranches_of_ne {compile : Json → Except CompileError Validator}
    (keyword : String) {branches : Json} (h : ∀ b bs, branches ≠ .array (b :: bs)) :
    assembleBranches compile keyword branches =
      Keyword.invalid keyword "must be a non-empty list of schemas" := by
  unfold assembleBranches
  split
  · rename_i b bs
    exact absurd rfl (h b bs)
  · rfl

/-- So is a schema of any form. The recursion of compilation is in its argument alone. -/
theorem compileBody_eq (common : Common) (members : Entries Json) :
    compileBody ctx pending common members =
      assembleBody ctx.formats (compileWith ctx pending) common members := by
  unfold compileBody assembleBody assembleChoice Form.ofMembers
  simp only [compileAll_eq, compileTyped_eq]
  split
  · rename_i hone
    simp only [hone]
    rfl
  · rename_i v hnot hone
    simp only [hone]
    rw [assembleBranches_of_ne "oneOf" hnot]
    rfl
  · rename_i hone
    split
    · rename_i hany
      simp only [hone, hany]
      rfl
    · rename_i v hnot hany
      simp only [hone, hany]
      rw [assembleBranches_of_ne "anyOf" hnot]
      rfl
    · rename_i hany
      split
      · rename_i hall
        simp only [hone, hany, hall]
        rfl
      · rename_i v hnot hall
        simp only [hone, hany, hall]
        rw [assembleBranches_of_ne "allOf" hnot]
        rfl
      · rename_i hall
        simp only [hone, hany, hall]
        cases htype : Entries.get? "type" members with
        | none => rfl
        | some v => cases v <;> rfl

/-- A schema that is no reference is put together from what the schemas below are compiled to. -/
theorem compileWith_object_eq {members : Entries Json} (href : Entries.get? "$ref" members = none) :
    compileWith ctx pending (.object members) =
      assemble ctx.formats (compileWith ctx pending) members := by
  rw [compileWith, href]
  show _ = (Keyword.common members >>= fun common => _)
  cases Keyword.common members with
  | error e => rfl
  | ok common => exact compileBody_eq ctx pending common members

end

/-! ## A node and the trees below it -/

/-- The node merges or tries at least one branch, if it is a combinator. -/
def HasBranches : Validator → Prop
  | oneOf _ branches _ => branches ≠ []
  | anyOf _ branches _ => branches ≠ []
  | allOf _ branches => branches ≠ []
  | _ => True

theorem HasBranches.mergesSome {v : Validator} (h : v.HasBranches) : v.MergesSome := by
  cases v with
  | allOf common branches => exact h
  | _ => exact trivial

section

variable {formats : FormatRegistry} {compile : Json → Except CompileError Validator}
  {common : Common} {members : Entries Json}

/-- The node is put together from what these schemas are compiled to. -/
structure BuiltFrom (compile : Json → Except CompileError Validator) (schemas : List Json)
    (v : Validator) : Prop where
  compiled : ∀ s ∈ schemas, ∃ w, compile s = .ok w
  origin : ∀ w ∈ v.children, ∃ s ∈ schemas, compile s = .ok w
  branches : v.HasBranches
  names : v.NamesDistinct

theorem builtFrom_leaf {v : Validator} (hc : v.children = []) (hb : v.HasBranches)
    (hn : v.NamesDistinct) : BuiltFrom compile [] v := by
  refine ⟨fun s hs => absurd hs List.not_mem_nil, fun w hw => ?_, hb, hn⟩
  rw [hc] at hw
  exact absurd hw List.not_mem_nil

/-- Trees of schemas, one by one. -/
theorem compiled_and_origin {schemas : List Json} {vs : List Validator}
    (h : List.Forall₂ (fun s v => compile s = .ok v) schemas vs) :
    (∀ s ∈ schemas, ∃ w, compile s = .ok w) ∧ ∀ w ∈ vs, ∃ s ∈ schemas, compile s = .ok w := by
  refine ⟨exists_forall₂_iff.mp ⟨vs, h⟩, fun w hw => ?_⟩
  induction h with
  | nil => exact absurd hw List.not_mem_nil
  | cons hv _ ih =>
      rcases List.mem_cons.mp hw with rfl | hrest
      · exact ⟨_, List.mem_cons_self, hv⟩
      · obtain ⟨s, hs, hw⟩ := ih hrest
        exact ⟨s, List.mem_cons_of_mem _ hs, hw⟩

theorem of_assembleBranches {keyword : String} {value : Json} {vs : List Validator}
    (h : assembleBranches compile keyword value = .ok vs) :
    List.Forall₂ (fun s v => compile s = .ok v) (value.array?.getD []) vs ∧ vs ≠ [] := by
  unfold assembleBranches at h
  split at h
  · have hall := mapM_eq_ok_iff.mp h
    refine ⟨hall, ?_⟩
    rintro rfl
    cases hall
  · cases h

/-- A choice has one tree for each of its schemas, at least one, and the discriminator that its
members define. -/
theorem of_assembleChoice {node : List Validator → Option Discriminator → Validator}
    {keyword : String} {value : Json} {v : Validator}
    (h : assembleChoice compile node keyword members value = .ok v) :
    ∃ branches d, v = node branches d ∧ branches ≠ [] ∧
      List.Forall₂ (fun s w => compile s = .ok w) (value.array?.getD []) branches ∧
      Keyword.discriminator members (value.array?.getD []) = .ok d := by
  obtain ⟨branches, hbranches, h⟩ := bind_eq_ok_iff.mp h
  obtain ⟨d, hd, heq⟩ := bind_eq_ok_iff.mp h
  cases heq
  obtain ⟨hall, hne⟩ := of_assembleBranches hbranches
  exact ⟨branches, d, rfl, hne, hall, hd⟩

theorem of_assembleNamed {schemas : Entries Json} {vs : Entries Validator}
    (h : assembleNamed compile schemas = .ok vs) :
    List.Forall₂ (fun s v => compile s = .ok v) (schemas.map Prod.snd) (vs.map Prod.snd) := by
  have hall := mapM_eq_ok_iff.mp h
  rw [List.forall₂_map_left_iff, List.forall₂_map_right_iff]
  refine hall.imp fun m p hp => ?_
  obtain ⟨v, hv, heq⟩ := bind_eq_ok_iff.mp hp
  cases heq
  exact hv

/-- All declared schemas have trees, no other trees are there, and the names are distinct, however
often the source repeats one. -/
theorem of_assembleProperties {properties : Entries Validator}
    (h : assembleProperties compile members = .ok properties) :
    (∀ s ∈ (Form.declared members).map Prod.snd, ∃ w, compile s = .ok w) ∧
      (∀ w ∈ properties.map Prod.snd,
        ∃ s ∈ (Form.declared members).map Prod.snd, compile s = .ok w) ∧
      (Entries.keys properties).Nodup := by
  unfold assembleProperties at h
  unfold Form.declared
  split at h
  · rename_i hnone
    simp only [hnone]
    cases h
    exact ⟨fun s hs => absurd hs List.not_mem_nil, fun w hw => absurd hw List.not_mem_nil,
      List.nodup_nil⟩
  · rename_i schemas hschemas
    simp only [hschemas]
    obtain ⟨vs, hvs, heq⟩ := bind_eq_ok_iff.mp h
    cases heq
    obtain ⟨hcompiled, horigin⟩ := compiled_and_origin (of_assembleNamed hvs)
    refine ⟨hcompiled, fun w hw => ?_, (Entries.ascending_sorted vs).nodup⟩
    obtain ⟨p, hp, rfl⟩ := List.mem_map.mp hw
    exact horigin p.2 (List.mem_map_of_mem (Entries.mem_of_mem_sorted hp))
  · cases h

/-- The schema for other members has a tree if there is one, and a tree is there only for it. -/
theorem of_assembleAdditional {a : Additional Validator}
    (h : assembleAdditional compile members = .ok a) :
    (∀ s ∈ Form.additional members, ∃ w, compile s = .ok w) ∧
      ∀ w, a = .schema w → ∃ s ∈ Form.additional members, compile s = .ok w := by
  have hbool : ∀ b : Additional Validator, (∀ w, b ≠ .schema w) →
      (∀ s ∈ ([] : List Json), ∃ w, compile s = .ok w) ∧
        ∀ w, b = .schema w → ∃ s ∈ ([] : List Json), compile s = .ok w := by
    intro b hb
    exact ⟨fun s hs => absurd hs List.not_mem_nil, fun w hw => absurd hw (hb w)⟩
  unfold assembleAdditional at h
  unfold Form.additional
  split at h
  · rename_i hnone
    simp only [hnone]
    cases h
    exact hbool .allow (by simp)
  · rename_i htrue
    simp only [htrue]
    cases h
    exact hbool .allow (by simp)
  · rename_i hfalse
    simp only [hfalse]
    cases h
    exact hbool .deny (by simp)
  · rename_i schema hschema
    simp only [hschema]
    obtain ⟨v, hv, heq⟩ := bind_eq_ok_iff.mp h
    cases heq
    constructor
    · intro s hs
      rw [List.mem_singleton.mp hs]
      exact ⟨v, hv⟩
    · intro w hw
      cases hw
      exact ⟨_, List.mem_singleton_self _, hv⟩
  · cases h

theorem builtFrom_of_forall₂ {schemas : List Json} {v : Validator}
    (h : List.Forall₂ (fun s w => compile s = .ok w) schemas v.children) (hb : v.HasBranches)
    (hn : v.NamesDistinct) : BuiltFrom compile schemas v := by
  obtain ⟨hcompiled, horigin⟩ := compiled_and_origin h
  exact ⟨hcompiled, horigin, hb, hn⟩

theorem builtFrom_of_assembleArray {v : Validator}
    (h : assembleArray compile common members = .ok v) :
    BuiltFrom compile (Entries.get? "items" members).toList v := by
  unfold assembleArray at h
  split at h
  · cases h
  · rename_i schema hschema
    rw [hschema]
    obtain ⟨items, hitems, h⟩ := bind_eq_ok_iff.mp h
    obtain ⟨rule, hrule, heq⟩ := bind_eq_ok_iff.mp h
    cases heq
    exact builtFrom_of_forall₂ (.cons hitems .nil) trivial trivial

/-- An object has its trees from the declared schemas and from the one for other members. -/
theorem builtFrom_of_assembleObject {v : Validator}
    (h : assembleObject compile common members = .ok v) :
    BuiltFrom compile ((Form.declared members).map Prod.snd ++ Form.additional members) v := by
  obtain ⟨properties, hproperties, h⟩ := bind_eq_ok_iff.mp h
  obtain ⟨required, hrequired, h⟩ := bind_eq_ok_iff.mp h
  obtain ⟨additional, hadditional, h⟩ := bind_eq_ok_iff.mp h
  obtain ⟨rule, hrule, heq⟩ := bind_eq_ok_iff.mp h
  cases heq
  obtain ⟨hdeclared, horigin, hnames⟩ := of_assembleProperties hproperties
  obtain ⟨hother, hadded⟩ := of_assembleAdditional hadditional
  refine ⟨fun s hs => ?_, fun w hw => ?_, trivial, hnames⟩
  · rcases List.mem_append.mp hs with hs | hs
    · exact hdeclared s hs
    · exact hother s hs
  · have hbelow : w ∈ properties.map Prod.snd ∨ additional = .schema w := by
      cases additional with
      | allow => exact .inl hw
      | deny => exact .inl hw
      | schema t =>
          rcases List.mem_cons.mp hw with rfl | hw
          · exact .inr rfl
          · exact .inl hw
    rcases hbelow with hw | hw
    · obtain ⟨s, hs, hv⟩ := horigin w hw
      exact ⟨s, List.mem_append_left _ hs, hv⟩
    · obtain ⟨s, hs, hv⟩ := hadded w hw
      exact ⟨s, List.mem_append_right _ hs, hv⟩

/-- A node with a type has its trees from the subschemas of its form, scalars from none. -/
theorem builtFrom_of_assembleTyped {type : String} {v : Validator}
    (h : assembleTyped formats compile common members type = .ok v)
    (hform : Form.ofMembers members = .typed (.string type)) :
    BuiltFrom compile (Form.subschemas members) v := by
  unfold Form.subschemas
  rw [hform]
  unfold assembleTyped at h
  split at h
  · obtain ⟨rule, hrule, heq⟩ := bind_eq_ok_iff.mp h
    cases heq
    exact builtFrom_leaf rfl trivial trivial
  · obtain ⟨rule, hrule, heq⟩ := bind_eq_ok_iff.mp h
    cases heq
    exact builtFrom_leaf rfl trivial trivial
  · obtain ⟨rule, hrule, heq⟩ := bind_eq_ok_iff.mp h
    cases heq
    exact builtFrom_leaf rfl trivial trivial
  · cases h
    exact builtFrom_leaf rfl trivial trivial
  · exact builtFrom_of_assembleArray h
  · exact builtFrom_of_assembleObject h
  · cases h

/-- A node that could be assembled has a tree for every schema below it, and no other trees. -/
theorem builtFrom_of_assemble {v : Validator} (h : assemble formats compile members = .ok v) :
    BuiltFrom compile (Form.subschemas members) v := by
  obtain ⟨common, hcommon, h⟩ := bind_eq_ok_iff.mp h
  unfold assembleBody at h
  split at h
  all_goals rename_i hform
  · obtain ⟨branches, d, rfl, hne, hall, -⟩ := of_assembleChoice h
    simp only [Form.subschemas, hform]
    exact builtFrom_of_forall₂ hall hne trivial
  · obtain ⟨branches, d, rfl, hne, hall, -⟩ := of_assembleChoice h
    simp only [Form.subschemas, hform]
    exact builtFrom_of_forall₂ hall hne trivial
  · obtain ⟨branches, hbranches, heq⟩ := bind_eq_ok_iff.mp h
    cases heq
    obtain ⟨hall, hne⟩ := of_assembleBranches hbranches
    simp only [Form.subschemas, hform]
    exact builtFrom_of_forall₂ hall hne trivial
  · exact builtFrom_of_assembleTyped h hform
  · cases h
  · cases h

/-! ## Cycles come from below -/

variable {r : String}

/-- A run over a list that reports a cycle has it from one of the elements. -/
theorem cyclic_of_mapM {α β : Type} {f : α → Except CompileError β} {xs : List α}
    (h : xs.mapM f = .error (.cyclicRef r)) : ∃ x ∈ xs, f x = .error (.cyclicRef r) := by
  induction xs with
  | nil => cases h
  | cons x rest ih =>
      rw [List.mapM_cons] at h
      rcases bind_eq_error_iff.mp h with hx | ⟨b, _, h⟩
      · exact ⟨x, List.mem_cons_self, hx⟩
      · rcases bind_eq_error_iff.mp h with hrest | ⟨bs, _, heq⟩
        · obtain ⟨y, hy, hcyclic⟩ := ih hrest
          exact ⟨y, List.mem_cons_of_mem _ hy, hcyclic⟩
        · cases heq

theorem cyclic_of_assembleBranches {keyword : String} {value : Json}
    (h : assembleBranches compile keyword value = .error (.cyclicRef r)) :
    ∃ s ∈ value.array?.getD [], compile s = .error (.cyclicRef r) := by
  unfold assembleBranches at h
  split at h
  · exact cyclic_of_mapM h
  · cases h

theorem cyclic_of_assembleChoice {node : List Validator → Option Discriminator → Validator}
    {keyword : String} {value : Json}
    (h : assembleChoice compile node keyword members value = .error (.cyclicRef r)) :
    ∃ s ∈ value.array?.getD [], compile s = .error (.cyclicRef r) := by
  rcases bind_eq_error_iff.mp h with hbranches | ⟨branches, _, h⟩
  · exact cyclic_of_assembleBranches hbranches
  · exact absurd h ((Keyword.plain_discriminator members _).bind (fun d => Keyword.plain_ok _) r)

/-- A cycle that the properties report is one of a declared schema. -/
theorem cyclic_of_assembleProperties
    (h : assembleProperties compile members = .error (.cyclicRef r)) :
    ∃ s ∈ (Form.declared members).map Prod.snd, compile s = .error (.cyclicRef r) := by
  unfold assembleProperties at h
  split at h
  · cases h
  · rename_i schemas hschemas
    simp only [Form.declared, hschemas]
    rcases bind_eq_error_iff.mp h with h | ⟨vs, _, heq⟩
    · obtain ⟨m, hm, h⟩ := cyclic_of_mapM h
      rcases bind_eq_error_iff.mp h with hs | ⟨v, _, heq⟩
      · exact ⟨m.2, List.mem_map_of_mem hm, hs⟩
      · cases heq
    · cases heq
  · cases h

theorem cyclic_of_assembleAdditional
    (h : assembleAdditional compile members = .error (.cyclicRef r)) :
    ∃ s ∈ Form.additional members, compile s = .error (.cyclicRef r) := by
  unfold assembleAdditional at h
  split at h
  · cases h
  · cases h
  · cases h
  · rename_i schema hschema
    simp only [Form.additional, hschema]
    rcases bind_eq_error_iff.mp h with hs | ⟨v, _, heq⟩
    · exact ⟨_, List.mem_singleton_self _, hs⟩
    · cases heq
  · cases h

theorem cyclic_of_assembleArray
    (h : assembleArray compile common members = .error (.cyclicRef r)) :
    ∃ s ∈ (Entries.get? "items" members).toList, compile s = .error (.cyclicRef r) := by
  unfold assembleArray at h
  split at h
  · cases h
  · rename_i schema hschema
    rw [hschema]
    rcases bind_eq_error_iff.mp h with hs | ⟨items, _, h⟩
    · exact ⟨schema, List.mem_singleton_self _, hs⟩
    · exact absurd h ((Keyword.plain_arrayRule members common).bind
        (fun rule => Keyword.plain_ok _) r)

/-- A cycle that an object reports is one of a declared schema or of the schema for other members,
since its own keywords report none. -/
theorem cyclic_of_assembleObject
    (h : assembleObject compile common members = .error (.cyclicRef r)) :
    ∃ s ∈ (Form.declared members).map Prod.snd ++ Form.additional members,
      compile s = .error (.cyclicRef r) := by
  rcases bind_eq_error_iff.mp h with hproperties | ⟨properties, _, h⟩
  · obtain ⟨s, hs, hcyclic⟩ := cyclic_of_assembleProperties hproperties
    exact ⟨s, List.mem_append_left _ hs, hcyclic⟩
  rcases bind_eq_error_iff.mp h with hrequired | ⟨required, _, h⟩
  · exact absurd hrequired (Keyword.plain_required members r)
  rcases bind_eq_error_iff.mp h with hadditional | ⟨additional, _, h⟩
  · obtain ⟨s, hs, hcyclic⟩ := cyclic_of_assembleAdditional hadditional
    exact ⟨s, List.mem_append_right _ hs, hcyclic⟩
  · exact absurd h ((Keyword.plain_objectRule members common required).bind
      (fun rule => Keyword.plain_ok _) r)

/-- A cycle that a node with a type reports is one of a subschema. -/
theorem cyclic_of_assembleTyped {type : String}
    (h : assembleTyped formats compile common members type = .error (.cyclicRef r))
    (hform : Form.ofMembers members = .typed (.string type)) :
    ∃ s ∈ Form.subschemas members, compile s = .error (.cyclicRef r) := by
  unfold Form.subschemas
  rw [hform]
  unfold assembleTyped at h
  split at h
  · exact absurd h ((Keyword.plain_integerRule members common).bind
      (fun rule => Keyword.plain_ok _) r)
  · exact absurd h ((Keyword.plain_numberRule members common).bind
      (fun rule => Keyword.plain_ok _) r)
  · exact absurd h ((Keyword.plain_stringRule members formats common).bind
      (fun rule => Keyword.plain_ok _) r)
  · cases h
  · exact cyclic_of_assembleArray h
  · exact cyclic_of_assembleObject h
  · cases h

/-- A node reports a cycle only if a schema below it does. -/
theorem cyclic_of_assemble (h : assemble formats compile members = .error (.cyclicRef r)) :
    ∃ s ∈ Form.subschemas members, compile s = .error (.cyclicRef r) := by
  rcases bind_eq_error_iff.mp h with hcommon | ⟨common, _, h⟩
  · exact absurd hcommon (Keyword.plain_common members r)
  unfold assembleBody at h
  split at h
  all_goals rename_i hform
  · simp only [Form.subschemas, hform]
    exact cyclic_of_assembleChoice h
  · simp only [Form.subschemas, hform]
    exact cyclic_of_assembleChoice h
  · rcases bind_eq_error_iff.mp h with hbranches | ⟨branches, _, h⟩
    · simp only [Form.subschemas, hform]
      exact cyclic_of_assembleBranches hbranches
    · exact absurd h (Keyword.plain_ok _ r)
  · exact cyclic_of_assembleTyped h hform
  · cases h
  · cases h

end

end Validator

end SchemaGate
