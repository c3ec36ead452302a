import Mathlib
import SchemaGate.Proofs.Schema.Following

/-!
# Cycles of references

Where compilation of a schema comes to: the schemas below, and the definitions of references
(`Validator.Visits`, `Validator.Leads`). A reference is a cycle if its definition leads to a schema
that is the same reference again (`Validator.LeadsBack`).

Compilation always ends, and it finds the cycles that are there and no others
(`Validator.compile_detectsCycles`). One direction follows the fault up to where it was raised, the
other a validator down to the reference that would have to be followed twice.
-/

namespace SchemaGate.Validator

/-! ## Where compilation comes to -/

/-- The schema is this reference. -/
def Refers (schema : Json) (r : String) : Prop :=
  schema.member? "$ref" = some (.string r)

/-- One step of compilation: to a schema below, or to the definition of a reference. -/
inductive Visits (ctx : Context) : Json → Json → Prop
  | below {members : Entries Json} {s : Json} : Entries.get? "$ref" members = none →
      s ∈ Form.subschemas members → Visits ctx (.object members) s
  | definition {schema target : Json} {r : String} {c : Components} : Refers schema r →
      ctx.components = some c → c.resolve r = .ok target → Visits ctx schema target

/-- Any number of such steps. -/
def Leads (ctx : Context) : Json → Json → Prop := Relation.ReflTransGen (Visits ctx)

/-- The definition of a reference leads to the same reference again. -/
def LeadsBack (ctx : Context) (r : String) : Prop :=
  ∃ c target s, ctx.components = some c ∧ c.resolve r = .ok target ∧ Leads ctx target s ∧ Refers s r

variable {ctx : Context} {followed : List String} {schema s : Json} {r : String}

theorem visits_of_node {members : Entries Json} (ht : turn ctx followed schema = .node members)
    (hs : s ∈ Form.subschemas members) : Visits ctx schema s := by
  obtain ⟨rfl, href⟩ := turn_eq_node_iff.mp ht
  exact .below href hs

theorem visits_of_follow {target : Json} (ht : turn ctx followed schema = .follow r target) :
    Visits ctx schema target := by
  obtain ⟨href, -, c, hc, htarget⟩ := turn_eq_follow_iff.mp ht
  exact .definition href hc htarget

/-- The schemas one step away. -/
def successors (ctx : Context) (schema : Json) : List Json :=
  match turn ctx [] schema with
  | .fault _ => []
  | .follow _ target => [target]
  | .node members => Form.subschemas members

/-- One step of compilation leads to what is listed and to nothing else, so that cycles can be
looked for among finitely many schemas. -/
theorem mem_successors_iff : s ∈ successors ctx schema ↔ Visits ctx schema s := by
  unfold successors
  constructor
  · intro hs
    split at hs
    · exact absurd hs List.not_mem_nil
    · rename_i ht
      rw [List.mem_singleton.mp hs]
      exact visits_of_follow ht
    · rename_i ht
      exact visits_of_node ht hs
  · intro hs
    cases hs with
    | below href hs =>
        rw [turn_eq_node_iff.mpr ⟨rfl, href⟩]
        exact hs
    | definition href hc htarget =>
        rw [turn_eq_follow_iff.mpr ⟨href, List.not_mem_nil, _, hc, htarget⟩]
        exact List.mem_singleton_self _

/-- Schemas that compilation does not leave. -/
theorem mem_of_leads {schemas : List Json}
    (hclosed : ∀ t ∈ schemas, ∀ u ∈ successors ctx t, u ∈ schemas) (hschema : schema ∈ schemas)
    (hleads : Leads ctx schema s) : s ∈ schemas := by
  induction hleads with
  | refl => exact hschema
  | tail _ hstep ih => exact hclosed _ ih _ (mem_successors_iff.mpr hstep)

/-! ## A reported cycle is one -/

/-- A reference that is reported is followed already, or found again below its own definition. -/
theorem cyclic_of_returns {x : Except CompileError Validator} (h : Returns ctx followed schema x)
    (hx : x = .error (.cyclicRef r)) :
    (∃ s, Leads ctx schema s ∧ Refers s r) ∧ (r ∈ followed ∨ LeadsBack ctx r) := by
  -- on the way up from the fault, until the reference is the one that is being followed
  induction h with
  | fault ht =>
      cases hx
      obtain ⟨href, hr⟩ := of_turn_eq_cyclic ht
      exact ⟨⟨_, .refl, href⟩, .inl hr⟩
  | @follow followed schema target q result ht _ ih =>
      obtain ⟨⟨s, hleads, hs⟩, hr⟩ := ih hx
      refine ⟨⟨s, .head (visits_of_follow ht) hleads, hs⟩, ?_⟩
      rcases hr with hr | hback
      · rcases List.mem_cons.mp hr with rfl | hr
        · -- the reference that is followed here is the one that is found again
          obtain ⟨-, -, c, hc, htarget⟩ := turn_eq_follow_iff.mp ht
          exact .inr ⟨c, target, s, hc, htarget, hleads, hs⟩
        · exact .inl hr
      · exact .inr hback
  | node ht _ ih =>
      obtain ⟨t, ht', hcyclic⟩ := cyclic_of_assemble hx
      obtain ⟨⟨s, hleads, hs⟩, hr⟩ := ih t ht' hcyclic
      exact ⟨⟨s, .head (visits_of_node ht ht') hleads, hs⟩, hr⟩

/-! ## A cycle has no validator -/

/-- A reference that has a validator is a new one, and its definition has that validator below
the reference. -/
theorem returns_definition {v : Validator} (h : Returns ctx followed schema (.ok v))
    (href : Refers schema r) :
    r ∉ followed ∧ ∃ c target, ctx.components = some c ∧ c.resolve r = .ok target ∧
      Returns ctx (r :: followed) target (.ok v) := by
  generalize hx : Except.ok v = x at h
  cases h with
  | fault _ => cases hx
  | follow ht htarget =>
      obtain ⟨hq, hnew, c, hc, hresolve⟩ := turn_eq_follow_iff.mp ht
      cases href.symm.trans hq
      exact ⟨hnew, c, _, hc, hresolve, hx ▸ htarget⟩
  | node ht _ =>
      obtain ⟨rfl, hnone⟩ := turn_eq_node_iff.mp ht
      cases href.symm.trans hnone

/-- A node that has a validator has one for every subschema, below the same references. -/
theorem returns_below {members : Entries Json} {v : Validator}
    (h : Returns ctx followed (.object members) (.ok v))
    (href : Entries.get? "$ref" members = none) (hs : s ∈ Form.subschemas members) :
    ∃ w, Returns ctx followed s (.ok w) := by
  generalize hx : Except.ok v = x at h
  cases h with
  | fault _ => cases hx
  | follow ht _ =>
      obtain ⟨hq, -⟩ := turn_eq_follow_iff.mp ht
      cases hq.symm.trans href
  | node ht hresults =>
      obtain ⟨heq, -⟩ := turn_eq_node_iff.mp ht
      cases heq
      obtain ⟨w, hw⟩ := (builtFrom_of_assemble hx.symm).compiled s hs
      exact ⟨w, hw ▸ hresults s hs⟩

/-- A validator comes with one for every schema that compilation comes to, below the same
references and more. -/
theorem returns_of_leads {v : Validator} (h : Returns ctx followed schema (.ok v))
    (hleads : Leads ctx schema s) :
    ∃ more w, followed ⊆ more ∧ Returns ctx more s (.ok w) := by
  induction hleads with
  | refl => exact ⟨followed, v, List.Subset.refl _, h⟩
  | tail _ hstep ih =>
      obtain ⟨more, w, hsub, hw⟩ := ih
      cases hstep with
      | below href hs =>
          obtain ⟨w', hw'⟩ := returns_below hw href hs
          exact ⟨more, w', hsub, hw'⟩
      | definition href hc htarget =>
          obtain ⟨-, c', target', hc', htarget', hw'⟩ := returns_definition hw href
          cases hc.symm.trans hc'
          cases htarget.symm.trans htarget'
          exact ⟨_, w, List.Subset.trans hsub (List.subset_cons_self _ _), hw'⟩

/-- Following a cycle, the reference would be followed a second time. -/
theorem not_ok_of_leadsBack (hleads : Leads ctx schema s) (href : Refers s r)
    (hback : LeadsBack ctx r) (v : Validator) : compile ctx schema ≠ .ok v := by
  intro hv
  obtain ⟨c, target, t, hc, htarget, hagain, ht⟩ := hback
  obtain ⟨more, w, -, hw⟩ := returns_of_leads (compile_eq_iff.mp hv) hleads
  obtain ⟨-, c', target', hc', htarget', hbelow⟩ := returns_definition hw href
  cases hc.symm.trans hc'
  cases htarget.symm.trans htarget'
  -- all that lies below the definition has a validator below the reference
  obtain ⟨deep, w', hsub, hw'⟩ := returns_of_leads hbelow hagain
  obtain ⟨hnew, -⟩ := returns_definition hw' ht
  exact hnew (hsub List.mem_cons_self)

/-! ## Compilation ends and finds the cycles -/

/-- Compilation of a schema ends, and it finds the cycles of its references. -/
structure DetectsCycles (ctx : Context) (schema : Json) : Prop where
  /-- Following the references comes to an end, with the result of compilation and no other. -/
  ends : ∀ x, Returns ctx [] schema x ↔ x = compile ctx schema
  /-- A reported cycle is one, and the schema leads to it. -/
  real : ∀ r, compile ctx schema = .error (.cyclicRef r) →
    (∃ s, Leads ctx schema s ∧ Refers s r) ∧ LeadsBack ctx r
  /-- A schema that leads to a cycle has no validator. -/
  found : ∀ s r, Leads ctx schema s → Refers s r → LeadsBack ctx r →
    ∃ e, compile ctx schema = .error e
  /-- What other branches refer to does not count: on its own, one of them has the cycle. -/
  apart : ∀ members, schema = .object members → Entries.get? "$ref" members = none →
    ∀ r, compile ctx schema = .error (.cyclicRef r) →
      ∃ s ∈ Form.subschemas members, compile ctx s = .error (.cyclicRef r)

/-- Every schema is compiled in finitely many steps. The result reports a cycle only if there is
one, and it is a fault whenever there is one. -/
theorem compile_detectsCycles (ctx : Context) (schema : Json) : DetectsCycles ctx schema where
  ends x := by
    rw [← compile_eq_iff]
    exact eq_comm
  real r h := by
    obtain ⟨hleads, hr⟩ := cyclic_of_returns (compile_eq_iff.mp h) rfl
    exact ⟨hleads, hr.resolve_left List.not_mem_nil⟩
  found s r hleads href hback := by
    cases hx : compile ctx schema with
    | error e => exact ⟨e, rfl⟩
    | ok v => exact absurd hx (not_ok_of_leadsBack hleads href hback v)
  apart members hschema href r h := by
    rw [hschema, compile_object_eq href] at h
    exact cyclic_of_assemble h

/-- Of two spellings for one definition it is the one inside that comes back. -/
example :
    compile ⟨some ⟨[("schemas", .object [("Loop", .object [("$ref", .string "b/schemas/Loop")])])]⟩,
        .empty⟩ (.object [("$ref", .string "a/schemas/Loop")]) =
      .error (.cyclicRef "b/schemas/Loop") := by
  cbv

end SchemaGate.Validator
