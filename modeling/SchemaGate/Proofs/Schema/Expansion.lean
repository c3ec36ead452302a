import Mathlib
import SchemaGate.Proofs.Schema.Cycles

/-!
# Expanding references

A reference stands for the definition that it leads to. Replacing every reference that compilation
comes to by its definition, references in that one replaced as well, gives a schema without
references (`Validator.Expands`). It is compiled to the same tree with no definitions at hand
(`Validator.compile_expanded`): nothing else about a reference counts, neither what stands beside
it, nor where it stands, nor which references were followed to get there.

The exception are the branches of a combinator with a discriminator, which go by the names of their
references (`Form.Discriminates`).
-/

namespace SchemaGate.Validator

variable {ctx : Context} {followed : List String} {schema expanded s : Json}

/-! ## Expansion -/

/-- The schema with every reference that compilation comes to replaced by its definition, and so
on in that definition. -/
inductive Expands (ctx : Context) : Json → Json → Prop
  | definition {schema target expanded : Json} {r : String} {c : Components} :
      Refers schema r → ctx.components = some c → c.resolve r = .ok target →
      Expands ctx target expanded → Expands ctx schema expanded
  | node {members : Entries Json} {expansion : Json → Json} :
      Entries.get? "$ref" members = none →
      (∀ s ∈ Form.subschemas members, Expands ctx s (expansion s)) →
      Expands ctx (.object members) (.object (Form.mapSubschemas expansion members))

theorem Expands.isObject (h : Expands ctx schema expanded) :
    ∃ members, expanded = .object members := by
  induction h with
  | definition _ _ _ _ ih => exact ih
  | node _ _ _ => exact ⟨_, rfl⟩

/-- There is one way to replace all references. -/
theorem Expands.unique {other : Json} (h : Expands ctx schema expanded)
    (h' : Expands ctx schema other) : expanded = other := by
  induction h generalizing other with
  | definition href hc htarget _ ih =>
      cases h' with
      | definition href' hc' htarget' h' =>
          cases href.symm.trans href'
          cases hc.symm.trans hc'
          cases htarget.symm.trans htarget'
          exact ih h'
      | node hnone _ => cases href.symm.trans hnone
  | node hnone _ ih =>
      cases h' with
      | definition href' _ _ _ => cases href'.symm.trans hnone
      | node _ h' => rw [Form.mapSubschemas_congr fun s hs => ih s hs (h' s hs)]

/-! ## Compilation of an expanded schema -/

/-- No combinator that compilation comes to chooses its branch by a discriminator. -/
def Undiscriminated (ctx : Context) (schema : Json) : Prop :=
  ∀ members, Leads ctx schema (.object members) → Entries.get? "$ref" members = none →
    ¬ Form.Discriminates members

theorem Undiscriminated.visits (h : Undiscriminated ctx schema) (hs : Visits ctx schema s) :
    Undiscriminated ctx s :=
  fun members hleads => h members (.head hs hleads)

/-- The same formats, but no definitions. -/
def Context.alone (ctx : Context) : Context := { ctx with components := none }

/-- One node: if each schema below is compiled to what its expansion is, so is the schema. -/
theorem compile_mapSubschemas {members : Entries Json} {expansion : Json → Json}
    {results : Json → Except CompileError Validator}
    (href : Entries.get? "$ref" members = none) (hplain : ¬ Form.Discriminates members)
    (hexpands : ∀ s ∈ Form.subschemas members, Expands ctx s (expansion s))
    (hresults : ∀ s ∈ Form.subschemas members,
      results s = compile ctx.alone (expansion s)) :
    compile ctx.alone (.object (Form.mapSubschemas expansion members)) =
      assemble ctx.formats results members := by
  have hnone : Entries.get? "$ref" (Form.mapSubschemas expansion members) = none := by
    rw [Form.sameOwn_mapSubschemas expansion members "$ref" (by decide), href]
  rw [compile_object_eq hnone]
  exact assemble_mapSubschemas hresults (fun schema hs => (hexpands _ hs).isObject) (.inl hplain)

/-- A validator, and the expansion that is compiled to it alone. -/
theorem expands_of_returns {x : Except CompileError Validator} (h : Returns ctx followed schema x)
    {v : Validator} (hx : x = .ok v) (hplain : Undiscriminated ctx schema) :
    ∃ expanded, Expands ctx schema expanded ∧ compile ctx.alone expanded = .ok v := by
  induction h generalizing v with
  | fault _ => cases hx
  | follow ht _ ih =>
      obtain ⟨expanded, hexpands, hcompile⟩ := ih hx (hplain.visits (visits_of_follow ht))
      obtain ⟨href, -, c, hc, htarget⟩ := turn_eq_follow_iff.mp ht
      exact ⟨expanded, .definition href hc htarget hexpands, hcompile⟩
  | @node followed schema members results ht _ ih =>
      obtain ⟨rfl, href⟩ := turn_eq_node_iff.mp ht
      have hbelow : ∀ s, ∃ e, s ∈ Form.subschemas members →
          Expands ctx s e ∧ compile ctx.alone e = results s := by
        intro s
        by_cases hs : s ∈ Form.subschemas members
        · obtain ⟨w, hw⟩ := (builtFrom_of_assemble hx).compiled s hs
          obtain ⟨e, hexpands, hcompile⟩ := ih s hs hw (hplain.visits (visits_of_node ht hs))
          exact ⟨e, fun _ => ⟨hexpands, hcompile.trans hw.symm⟩⟩
        · exact ⟨s, fun hin => absurd hin hs⟩
      -- the schemas that are not below may be mapped to anything
      choose expansion hexpansion using hbelow
      have hexpands := fun s hs => (hexpansion s hs).1
      refine ⟨_, .node href hexpands, ?_⟩
      rw [← hx]
      exact compile_mapSubschemas href (hplain members .refl href) hexpands
        fun s hs => (hexpansion s hs).2.symm

/-- Where no definitions are at hand, a validator is only found without references. -/
theorem no_reference_of_leads {v : Validator} (h : compile ctx.alone schema = .ok v)
    (hleads : Leads ctx.alone schema s) : s.member? "$ref" = none := by
  obtain ⟨more, w, -, hw⟩ := returns_of_leads (compile_eq_iff.mp h) hleads
  generalize hx : Except.ok w = x at hw
  cases hw with
  | fault _ => cases hx
  | follow ht _ =>
      obtain ⟨-, -, c, hc, -⟩ := turn_eq_follow_iff.mp ht
      cases hc
  | node ht _ =>
      obtain ⟨rfl, hnone⟩ := turn_eq_node_iff.mp ht
      exact hnone

/-- References are transparent: a schema that has a validator has one expansion. It leads to no
reference, and on its own it has the same validator. -/
theorem compile_expanded {v : Validator} (hplain : Undiscriminated ctx schema)
    (h : compile ctx schema = .ok v) :
    ∃ expanded, (∀ t, Expands ctx schema t ↔ t = expanded) ∧
      (∀ s, Leads ctx.alone expanded s → s.member? "$ref" = none) ∧
      compile ctx.alone expanded = .ok v := by
  obtain ⟨expanded, hexpands, hcompile⟩ := expands_of_returns (compile_eq_iff.mp h) rfl hplain
  refine ⟨expanded, fun t => ⟨fun ht => ht.unique hexpands, ?_⟩, ?_, hcompile⟩
  · rintro rfl
    exact hexpands
  · exact fun s hleads => no_reference_of_leads hcompile hleads

/-! ## A list of numbers by reference -/

/-- A number. -/
def codeSchema : Json := .object [("type", .string "integer")]

/-- The reference to the number, in another spelling than that of its list. -/
def codeRef : Json := .object [("$ref", .string "other.yaml/schemas/Code")]

/-- A list of numbers. -/
def codesSchema : Json := .object [("type", .string "array"), ("items", codeRef)]

/-- The reference to the list; what stands beside it does not count. -/
def codesRef : Json :=
  .object [("$ref", .string "#/components/schemas/Codes"), ("nullable", .bool true)]

/-- A truth value. -/
def markSchema : Json := .object [("type", .string "boolean")]

/-- A list of numbers or a truth value. -/
def codesOrMark : Json := .object [("oneOf", .array [codesRef, markSchema])]

/-- The definitions of the number and of its list. -/
def codeContext : Context :=
  ⟨some ⟨[("schemas", .object [("Code", codeSchema), ("Codes", codesSchema)])]⟩, .empty⟩

/-- Both references, one below the other, are transparent. -/
theorem codesOrMark_expanded :
    compile codeContext codesOrMark = .ok (.oneOf {} [.array {} (.integer {}), .boolean {}] none) ∧
      ∃ expanded, (∀ t, Expands codeContext codesOrMark t ↔ t = expanded) ∧
        (∀ s, Leads codeContext.alone expanded s → s.member? "$ref" = none) ∧
        compile codeContext.alone expanded =
          .ok (.oneOf {} [.array {} (.integer {}), .boolean {}] none) := by
  have hcompile : compile codeContext codesOrMark =
      .ok (.oneOf {} [.array {} (.integer {}), .boolean {}] none) := by cbv
  have hplain : Undiscriminated codeContext codesOrMark := by
    intro members hleads href
    have hmem : .object members ∈
        [codesOrMark, codesRef, codesSchema, codeRef, codeSchema, markSchema] := by
      refine mem_of_leads ?_ List.mem_cons_self hleads
      have h₁ : successors codeContext codesOrMark = [codesRef, markSchema] := by cbv
      have h₂ : successors codeContext codesRef = [codesSchema] := by cbv
      have h₃ : successors codeContext codesSchema = [codeRef] := by cbv
      have h₄ : successors codeContext codeRef = [codeSchema] := by cbv
      have h₅ : successors codeContext codeSchema = [] := by cbv
      have h₆ : successors codeContext markSchema = [] := by cbv
      simp [h₁, h₂, h₃, h₄, h₅, h₆]
    simp only [codesOrMark, codesRef, codesSchema, codeRef, codeSchema, markSchema, List.mem_cons,
      Json.object.injEq, List.not_mem_nil, or_false] at hmem
    rcases hmem with rfl | rfl | rfl | rfl | rfl | rfl
    all_goals intro h
    all_goals simp [Form.Discriminates, Form.ofMembers] at h
  exact ⟨hcompile, compile_expanded hplain hcompile⟩

end SchemaGate.Validator
