import SchemaGate.Proofs.Schema.Assembly

/-!
# Replacing the schemas below

Changing the schemas below a schema where they stand (`Form.mapSubschemas`). Assembly depends on
them only through what they are compiled to (`Validator.assemble_mapSubschemas`): a node of replaced
schemas is the node of the schemas that were there, if each is compiled to what its replacement is.
Only a discriminator sees more of its branches, namely their names.
-/

namespace SchemaGate

namespace Form

variable (g : Json → Json)

/-- Changes every item of an array. -/
def mapItems : Json → Json
  | .array items => .array (items.map g)
  | v => v

/-- Changes every member's value of an object. -/
def mapNamed : Json → Json
  | .object schemas => .object (Entries.mapValues g schemas)
  | v => v

/-- Changes a value that is an object. -/
def mapSchema : Json → Json
  | .object schema => g (.object schema)
  | v => v

/-- The same members with other schemas below. -/
def mapSubschemas (members : Entries Json) : Entries Json :=
  match ofMembers members with
  | .oneOf _ => Entries.adjust "oneOf" (mapItems g) members
  | .anyOf _ => Entries.adjust "anyOf" (mapItems g) members
  | .allOf _ => Entries.adjust "allOf" (mapItems g) members
  | .typed (.string "array") => Entries.adjust "items" g members
  | .typed (.string "object") =>
    Entries.adjust "additionalProperties" (mapSchema g)
      (Entries.adjust "properties" (mapNamed g) members)
  | _ => members

/-- Whether the schemas below are branches that a discriminator chooses from. -/
def Discriminates (members : Entries Json) : Prop :=
  match ofMembers members with
  | .oneOf _ => Entries.get? "discriminator" members ≠ none
  | .anyOf _ => Entries.get? "discriminator" members ≠ none
  | _ => False

variable {g} {members : Entries Json} {v : Json}

/-! ## The form of changed members -/

theorem get?_of_oneOf (h : ofMembers members = .oneOf v) :
    Entries.get? "oneOf" members = some v := by
  unfold ofMembers at h
  grind

theorem get?_of_anyOf (h : ofMembers members = .anyOf v) :
    Entries.get? "oneOf" members = none ∧ Entries.get? "anyOf" members = some v := by
  unfold ofMembers at h
  grind

theorem get?_of_allOf (h : ofMembers members = .allOf v) :
    Entries.get? "oneOf" members = none ∧ Entries.get? "anyOf" members = none ∧
      Entries.get? "allOf" members = some v := by
  unfold ofMembers at h
  grind

theorem get?_of_typed (h : ofMembers members = .typed v) :
    Entries.get? "oneOf" members = none ∧ Entries.get? "anyOf" members = none ∧
      Entries.get? "allOf" members = none ∧ Entries.get? "type" members = some v := by
  unfold ofMembers at h
  grind

theorem sameOwn_adjust {key : String} (hkey : key ∈ Keyword.places) (f : Json → Json)
    (members : Entries Json) : Keyword.SameOwn members (Entries.adjust key f members) := by
  intro keyword hkeyword
  refine Entries.get?_adjust_of_ne ?_ f members
  rintro rfl
  exact hkeyword hkey

/-- Changing the subschemas leaves alone the keywords that are the node's own. -/
theorem sameOwn_mapSubschemas (g : Json → Json) (members : Entries Json) :
    Keyword.SameOwn members (mapSubschemas g members) := by
  unfold mapSubschemas
  split
  · exact sameOwn_adjust (by decide) _ _
  · exact sameOwn_adjust (by decide) _ _
  · exact sameOwn_adjust (by decide) _ _
  · exact sameOwn_adjust (by decide) _ _
  · intro keyword hkeyword
    rw [sameOwn_adjust (by decide) _ _ keyword hkeyword,
      sameOwn_adjust (by decide) _ _ keyword hkeyword]
  · intro keyword _
    rfl

/-- The form stays, with the changed branches. -/
theorem ofMembers_mapSubschemas (g : Json → Json) (members : Entries Json) :
    ofMembers (mapSubschemas g members) =
      match ofMembers members with
      | .oneOf v => .oneOf (mapItems g v)
      | .anyOf v => .anyOf (mapItems g v)
      | .allOf v => .allOf (mapItems g v)
      | form => form := by
  cases hform : ofMembers members with
  | oneOf v =>
      have hone := get?_of_oneOf hform
      simp only [mapSubschemas, ofMembers, Entries.get?_adjust_self, hone, Option.map_some]
  | anyOf v =>
      obtain ⟨hone, hany⟩ := get?_of_anyOf hform
      simp [mapSubschemas, ofMembers, Entries.get?_adjust_self,
        Entries.get?_adjust_of_ne, hone, hany]
  | allOf v =>
      obtain ⟨hone, hany, hall⟩ := get?_of_allOf hform
      simp [mapSubschemas, ofMembers, Entries.get?_adjust_self,
        Entries.get?_adjust_of_ne, hone, hany, hall]
  | typed v =>
      obtain ⟨hone, hany, hall, htype⟩ := get?_of_typed hform
      unfold mapSubschemas
      rw [hform]
      dsimp only
      split
      all_goals simp_all [ofMembers, Entries.get?_adjust_of_ne]
  | untyped => simp only [mapSubschemas, hform]

theorem mapItems_congr {g' : Json → Json} (h : ∀ s ∈ v.array?.getD [], g s = g' s) :
    mapItems g v = mapItems g' v := by
  cases v with
  | array items =>
      have hitems : items.map g = items.map g' := List.map_congr_left h
      simp only [mapItems, hitems]
  | _ => rfl

theorem mapNamed_congr {g' : Json → Json} {schemas : Entries Json}
    (h : ∀ s ∈ schemas.map Prod.snd, g s = g' s) :
    mapNamed g (.object schemas) = mapNamed g' (.object schemas) := by
  have hentry : ∀ m ∈ schemas, (m.1, g m.2) = (m.1, g' m.2) := by
    intro m hm
    rw [h m.2 (List.mem_map_of_mem hm)]
  simp only [mapNamed, Entries.mapValues, List.map_congr_left hentry]

/-- The change is decided by the schemas below. -/
theorem mapSubschemas_congr {g' : Json → Json} (h : ∀ s ∈ subschemas members, g s = g' s) :
    mapSubschemas g members = mapSubschemas g' members := by
  unfold mapSubschemas
  unfold subschemas at h
  split
  all_goals rename_i hform
  all_goals simp only [hform] at h
  · refine Entries.adjust_congr fun v hv => mapItems_congr ?_
    cases (get?_of_oneOf hform).symm.trans hv
    exact h
  · refine Entries.adjust_congr fun v hv => mapItems_congr ?_
    cases (get?_of_anyOf hform).2.symm.trans hv
    exact h
  · refine Entries.adjust_congr fun v hv => mapItems_congr ?_
    cases (get?_of_allOf hform).2.2.symm.trans hv
    exact h
  · refine Entries.adjust_congr fun v hv => h v ?_
    rw [hv]
    exact List.mem_singleton_self v
  · have hdeclared : Entries.adjust "properties" (mapNamed g) members =
        Entries.adjust "properties" (mapNamed g') members := by
      refine Entries.adjust_congr fun v hv => ?_
      cases v with
      | object schemas =>
          refine mapNamed_congr fun s hs => h s (List.mem_append_left _ ?_)
          simp only [declared, Option.mem_def.mp hv]
          exact hs
      | _ => rfl
    rw [hdeclared]
    -- the change of the properties is not seen under the other keyword
    refine Entries.adjust_congr fun v hv => ?_
    rw [Option.mem_def, Entries.get?_adjust_of_ne (by decide)] at hv
    cases v with
    | object schema =>
        refine h _ (List.mem_append_right _ ?_)
        simp only [additional, hv]
        exact List.mem_singleton_self _
    | _ => rfl
  · rfl

/-- Nothing changes if every schema is replaced by itself. -/
theorem mapSubschemas_id (members : Entries Json) : mapSubschemas id members = members := by
  have hitems : mapItems id = id := by
    funext v
    cases v <;> simp [mapItems]
  have hnamed : mapNamed id = id := by
    funext v
    cases v <;> simp [mapNamed, Entries.mapValues]
  have hschema : mapSchema id = id := by
    funext v
    cases v <;> rfl
  unfold mapSubschemas
  rw [hitems, hnamed, hschema]
  simp only [Entries.adjust_id]
  split <;> rfl

end Form

namespace Validator

open Form

section

variable {formats : FormatRegistry} {f compile : Json → Except CompileError Validator}
  {g : Json → Json} {common : Common} {members other : Entries Json}

/-! ## Assembly of changed members -/

theorem assembleBranches_mapItems (keyword : String) {v : Json}
    (hf : ∀ s ∈ v.array?.getD [], f s = compile (g s)) :
    assembleBranches compile keyword (mapItems g v) = assembleBranches f keyword v := by
  cases v with
  | array items =>
      cases items with
      | nil => rfl
      | cons b bs =>
          show ((b :: bs).map g).mapM compile = (b :: bs).mapM f
          rw [List.mapM_map]
          exact mapM_congr_of_mem fun s hs => (hf s hs).symm
  | _ => rfl

theorem assembleNamed_mapValues {schemas : Entries Json}
    (hf : ∀ s ∈ schemas.map Prod.snd, f s = compile (g s)) :
    assembleNamed compile (Entries.mapValues g schemas) = assembleNamed f schemas := by
  unfold assembleNamed Entries.mapValues
  rw [List.mapM_map]
  refine mapM_congr_of_mem fun m hm => ?_
  rw [Function.comp_apply, hf m.2 (List.mem_map_of_mem hm)]

/-- Declared schemas may be changed first and compiled then. -/
theorem assembleProperties_congr
    (hget : Entries.get? "properties" other =
      (Entries.get? "properties" members).map (mapNamed g))
    (hf : ∀ s ∈ (declared members).map Prod.snd, f s = compile (g s)) :
    assembleProperties compile other = assembleProperties f members := by
  unfold assembleProperties
  rw [hget]
  unfold declared at hf
  cases hproperties : Entries.get? "properties" members with
  | none => rfl
  | some v =>
      rw [hproperties] at hf
      cases v with
      | object schemas =>
          simp only [Option.map_some, mapNamed]
          rw [assembleNamed_mapValues hf]
      | _ => rfl

/-- So may the schema for other members, if it stays an object. -/
theorem assembleAdditional_congr
    (hget : Entries.get? "additionalProperties" other =
      (Entries.get? "additionalProperties" members).map (mapSchema g))
    (hf : ∀ s ∈ additional members, f s = compile (g s))
    (hobject : ∀ schema, .object schema ∈ additional members →
      ∃ schema', g (.object schema) = .object schema') :
    assembleAdditional compile other = assembleAdditional f members := by
  unfold assembleAdditional
  rw [hget]
  unfold additional at hf hobject
  cases hadditional : Entries.get? "additionalProperties" members with
  | none => rfl
  | some v =>
      rw [hadditional] at hf hobject
      cases v with
      | object schema =>
          have hs := List.mem_singleton_self (Json.object schema)
          obtain ⟨schema', hschema'⟩ := hobject schema hs
          simp only [Option.map_some, mapSchema, hschema', hf _ hs]
      | bool b => cases b <;> rfl
      | _ => rfl

theorem assembleArray_congr (hsame : Keyword.SameOwn members other)
    (hget : Entries.get? "items" other = (Entries.get? "items" members).map g)
    (hf : ∀ s ∈ (Entries.get? "items" members).toList, f s = compile (g s)) :
    assembleArray compile common other = assembleArray f common members := by
  unfold assembleArray
  rw [hget]
  cases hitems : Entries.get? "items" members with
  | none => rfl
  | some v =>
      rw [hitems] at hf
      simp only [Option.map_some, hf v (List.mem_singleton_self v),
        Keyword.arrayRule_congr hsame]

theorem assembleObject_congr (hsame : Keyword.SameOwn members other)
    (hproperties : assembleProperties compile other = assembleProperties f members)
    (hadditional : assembleAdditional compile other = assembleAdditional f members) :
    assembleObject compile common other = assembleObject f common members := by
  unfold assembleObject
  rw [hproperties, hadditional, Keyword.required_congr hsame]
  simp only [Keyword.objectRule_congr hsame]

/-- A node with a type is put together from changed subschemas as it is from the results that these
have. -/
theorem assembleTyped_mapSubschemas {type : String}
    (hform : ofMembers members = .typed (.string type))
    (hf : ∀ s ∈ subschemas members, f s = compile (g s))
    (hobject : ∀ schema, .object schema ∈ subschemas members →
      ∃ schema', g (.object schema) = .object schema') :
    assembleTyped formats compile common (mapSubschemas g members) type =
      assembleTyped formats f common members type := by
  have hsame := sameOwn_mapSubschemas g members
  unfold assembleTyped
  split
  · rw [Keyword.integerRule_congr hsame]
  · rw [Keyword.numberRule_congr hsame]
  · rw [Keyword.stringRule_congr hsame]
  · rfl
  · simp only [subschemas, hform] at hf
    refine assembleArray_congr hsame ?_ hf
    simp only [mapSubschemas, hform]
    exact Entries.get?_adjust_self "items" g members
  · simp only [subschemas, hform, List.forall_mem_append] at hf hobject
    have hadded : ∀ schema, .object schema ∈ additional members →
        ∃ schema', g (.object schema) = .object schema' :=
      fun schema hs => hobject schema (List.mem_append_right _ hs)
    refine assembleObject_congr hsame (assembleProperties_congr ?_ hf.1)
      (assembleAdditional_congr ?_ hf.2 hadded)
    · simp only [mapSubschemas, hform]
      rw [Entries.get?_adjust_of_ne (by decide), Entries.get?_adjust_self]
    · simp only [mapSubschemas, hform]
      rw [Entries.get?_adjust_self, Entries.get?_adjust_of_ne (by decide)]
  · rfl

/-- A discriminator sees no change to branches that keep their names. -/
theorem discriminator_mapItems {v : Json}
    (hnames : Entries.get? "discriminator" members = none ∨
      ∀ s ∈ v.array?.getD [], Keyword.branchName (g s) = Keyword.branchName s) :
    Keyword.discriminator (mapSubschemas g members) ((mapItems g v).array?.getD []) =
      Keyword.discriminator members (v.array?.getD []) := by
  refine Keyword.discriminator_congr (sameOwn_mapSubschemas g members) (hnames.imp_right ?_)
  intro hnames
  cases v with
  | array items =>
      show (items.map g).map Keyword.branchName = items.map Keyword.branchName
      rw [List.map_map]
      exact List.map_congr_left hnames
  | _ => rfl

theorem assembleChoice_mapItems (node : List Validator → Option Discriminator → Validator)
    (keyword : String) {v : Json} (hf : ∀ s ∈ v.array?.getD [], f s = compile (g s))
    (hnames : Entries.get? "discriminator" members = none ∨
      ∀ s ∈ v.array?.getD [], Keyword.branchName (g s) = Keyword.branchName s) :
    assembleChoice compile node keyword (mapSubschemas g members) (mapItems g v) =
      assembleChoice f node keyword members v := by
  unfold assembleChoice
  rw [assembleBranches_mapItems keyword hf, discriminator_mapItems hnames]

/-- A node of replaced schemas is the node of what was there, if each schema is compiled to what
its replacement is and no discriminator tells them apart. -/
theorem assemble_mapSubschemas (hf : ∀ s ∈ subschemas members, f s = compile (g s))
    (hobject : ∀ schema, .object schema ∈ subschemas members →
      ∃ schema', g (.object schema) = .object schema')
    (hnames : ¬ Discriminates members ∨
      ∀ s ∈ subschemas members, Keyword.branchName (g s) = Keyword.branchName s) :
    assemble formats compile (mapSubschemas g members) = assemble formats f members := by
  unfold assemble
  rw [Keyword.common_congr (sameOwn_mapSubschemas g members)]
  congr 1
  funext common
  unfold assembleBody
  rw [ofMembers_mapSubschemas]
  unfold Discriminates at hnames
  unfold subschemas at hf hnames
  cases hform : ofMembers members with
  | oneOf v =>
      simp only [hform] at hf hnames ⊢
      exact assembleChoice_mapItems (.oneOf common) "oneOf" hf (hnames.imp_left not_not.mp)
  | anyOf v =>
      simp only [hform] at hf hnames ⊢
      exact assembleChoice_mapItems (.anyOf common) "anyOf" hf (hnames.imp_left not_not.mp)
  | allOf v =>
      simp only [hform] at hf ⊢
      rw [assembleBranches_mapItems "allOf" hf]
  | typed v =>
      cases v with
      | string type => exact assembleTyped_mapSubschemas hform hf hobject
      | _ => rfl
  | untyped => rfl

/-- Assembly asks for no other results than those of the schemas below. -/
theorem assemble_congr (hf : ∀ s ∈ subschemas members, f s = compile s) :
    assemble formats compile members = assemble formats f members := by
  rw [← assemble_mapSubschemas (g := id) hf (fun schema _ => ⟨schema, rfl⟩)
    (.inr fun s _ => rfl), mapSubschemas_id]

end

end Validator

end SchemaGate
