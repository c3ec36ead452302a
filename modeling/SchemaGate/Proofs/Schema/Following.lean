import SchemaGate.Proofs.Schema.Replacement

/-!
# Following references

Compilation as a relation (`Validator.Returns`): a schema below the references `followed` is
compiled to a result. It is a fault where the schema stands, or what the definition of a reference
is compiled to with the reference added to `followed`, or the node that is assembled from the
results of the schemas below. The relation has derivations that are finite and no bound on them,
so a schema has a result in it only if following its references comes to an end.

`Validator.compile` finds the one result that there is (`returns_compile`, `Returns.unique`). The
list of pending references, by which its recursion ends, is the complement of `followed` in the
references that there are (`Validator.Tracks`).
-/

namespace SchemaGate

/-! ## Parts of values -/

namespace Json

theorem mem_referencesOfMembers_cons {r k : String} {x : Json} {rest : Entries Json} :
    r ∈ referencesOfMembers ((k, x) :: rest) ↔
      (k = "$ref" ∧ x = .string r) ∨ r ∈ x.references ∨ r ∈ referencesOfMembers rest := by
  cases x with
  | string s =>
      by_cases hk : k = "$ref"
      · simp [referencesOfMembers, references, hk, eq_comm]
      · simp [referencesOfMembers, references, hk]
  | _ => simp [referencesOfMembers]

/-- A smaller value, with no other references and no repeated keys unless the whole has some. -/
structure PartOf (part whole : Json) : Prop where
  references : ∀ r ∈ part.references, r ∈ whole.references
  size : sizeOf part < sizeOf whole
  wellFormed : whole.WellFormed → part.WellFormed

theorem PartOf.trans {a b c : Json} (h : a.PartOf b) (h' : b.PartOf c) : a.PartOf c :=
  ⟨fun r hr => h'.references r (h.references r hr), Nat.lt_trans h.size h'.size,
    fun hc => h.wellFormed (h'.wellFormed hc)⟩

theorem partOf_array {x : Json} {items : List Json} (h : x ∈ items) : x.PartOf (.array items) := by
  constructor
  · intro r hr
    rw [Json.references]
    induction items with
    | nil => exact absurd h List.not_mem_nil
    | cons y rest ih =>
        rw [referencesOfItems, List.mem_append]
        rcases List.mem_cons.mp h with rfl | hrest
        · exact .inl hr
        · exact .inr (ih hrest)
  · have hlt := List.sizeOf_lt_of_mem h
    simp only [array.sizeOf_spec]
    omega
  · exact fun hwf => wellFormed_array.mp hwf x h

theorem partOf_object {name : String} {x : Json} {members : Entries Json}
    (h : (name, x) ∈ members) : x.PartOf (.object members) := by
  constructor
  · intro r hr
    rw [Json.references]
    induction members with
    | nil => exact absurd h List.not_mem_nil
    | cons m rest ih =>
        obtain ⟨k, y⟩ := m
        rw [mem_referencesOfMembers_cons]
        rcases List.mem_cons.mp h with heq | hrest
        · cases heq
          exact .inr (.inl hr)
        · exact .inr (.inr (ih hrest))
  · have hlt := List.sizeOf_lt_of_mem h
    simp only [object.sizeOf_spec, Prod.mk.sizeOf_spec] at hlt ⊢
    omega
  · exact fun hwf => (wellFormed_object.mp hwf).2 _ h

/-- The reference that a schema itself is stands among the references in it. -/
theorem mem_references_of_ref {schema : Json} {r : String}
    (h : schema.member? "$ref" = some (.string r)) : r ∈ schema.references := by
  obtain ⟨members, hmembers, hget⟩ := Option.bind_eq_some_iff.mp h
  cases schema with
  | object ms =>
      cases hmembers
      have hmem := Entries.mem_of_get? hget
      clear h hget
      rw [Json.references]
      induction members with
      | nil => exact absurd hmem List.not_mem_nil
      | cons m rest ih =>
          obtain ⟨k, y⟩ := m
          rw [mem_referencesOfMembers_cons]
          rcases List.mem_cons.mp hmem with heq | hrest
          · cases heq
            exact .inl ⟨rfl, rfl⟩
          · exact .inr (.inr (ih hrest))
  | _ => cases hmembers

/-- What a definition refers to is among the references of the components, wherever in them the
definition stands. -/
theorem mem_references_of_resolve {c : Components} {r q : String} {target : Json}
    (h : c.resolve r = .ok target) (hq : q ∈ target.references) :
    q ∈ referencesOfMembers c.sections := by
  unfold Components.resolve at h
  split at h
  · cases h
  · rename_i sectionName name _
    split at h
    · rename_i v hfound
      cases h
      obtain ⟨entries, hsection, hget⟩ := Option.bind_eq_some_iff.mp hfound
      obtain ⟨value, hvalue, hobject⟩ := Option.bind_eq_some_iff.mp hsection
      cases value with
      | object ms =>
          cases hobject
          have htarget := partOf_object (Entries.mem_of_get? hget)
          have hms := partOf_object (Entries.mem_of_get? hvalue)
          exact hms.references q (htarget.references q hq)
      | _ => cases hobject
    · cases h

end Json

/-- The schemas below are parts of the schema. -/
theorem Form.partOf_of_mem_subschemas {members : Entries Json} {s : Json}
    (h : s ∈ Form.subschemas members) : s.PartOf (.object members) := by
  have hitem : ∀ {key : String} {v : Json}, Entries.get? key members = some v →
      s ∈ v.array?.getD [] → s.PartOf (.object members) := by
    intro key v hv hs
    cases v with
    | array items =>
        exact (Json.partOf_array hs).trans (Json.partOf_object (Entries.mem_of_get? hv))
    | _ => exact absurd hs List.not_mem_nil
  unfold Form.subschemas at h
  split at h
  · rename_i v hform
    exact hitem (Form.get?_of_oneOf hform) h
  · rename_i v hform
    exact hitem (Form.get?_of_anyOf hform).2 h
  · rename_i v hform
    exact hitem (Form.get?_of_allOf hform).2.2 h
  · cases hitems : Entries.get? "items" members with
    | none =>
        rw [hitems] at h
        exact absurd h List.not_mem_nil
    | some v =>
        rw [hitems] at h
        rw [List.mem_singleton.mp h]
        exact Json.partOf_object (Entries.mem_of_get? hitems)
  · rcases List.mem_append.mp h with h | h
    · obtain ⟨⟨name, x⟩, hx, rfl⟩ := List.mem_map.mp h
      unfold Form.declared at hx
      split at hx
      · rename_i schemas hschemas
        exact (Json.partOf_object hx).trans (Json.partOf_object (Entries.mem_of_get? hschemas))
      · exact absurd hx List.not_mem_nil
    · unfold Form.additional at h
      split at h
      · rename_i schema hschema
        rw [List.mem_singleton.mp h]
        exact Json.partOf_object (Entries.mem_of_get? hschema)
      · exact absurd h List.not_mem_nil
  · exact absurd h List.not_mem_nil

namespace Validator

/-! ## The relation -/

/-- What becomes of a schema: it is a fault, it stands for the definition of a reference, or it
is put together from the schemas below. -/
inductive Turn where
  | fault (e : CompileError)
  | follow (reference : String) (target : Json)
  | node (members : Entries Json)

/-- What becomes of a schema that is come to below the references `followed`. -/
def turn (ctx : Context) (followed : List String) : Json → Turn
  | .object members =>
    match Entries.get? "$ref" members with
    | none => .node members
    | some (.string r) =>
      match ctx.components with
      | none => .fault .missingComponents
      | some components =>
        if r ∈ followed then .fault (.cyclicRef r)
        else
          match components.resolve r with
          | .error e => .fault e
          | .ok target => .follow r target
    | some _ => .fault (.invalidKeyword "$ref" "must be a string")
  | _ => .fault (.invalidKeyword "schema" "must be an object")

section

variable {ctx : Context} {followed : List String} {schema : Json}

/-- Compilation goes on with the members of a schema exactly where it is an object and no reference.
-/
theorem turn_eq_node_iff {members : Entries Json} :
    turn ctx followed schema = .node members ↔
      schema = .object members ∧ Entries.get? "$ref" members = none := by
  constructor
  · intro h
    unfold turn at h
    split at h
    · split at h
      · rename_i href
        cases h
        exact ⟨rfl, href⟩
      · split at h
        · cases h
        · split at h
          · cases h
          · split at h <;> cases h
      · cases h
    · cases h
  · rintro ⟨rfl, href⟩
    simp only [turn, href]

/-- It follows a reference exactly where this is a new one and there is something under it. -/
theorem turn_eq_follow_iff {r : String} {target : Json} :
    turn ctx followed schema = .follow r target ↔
      schema.member? "$ref" = some (.string r) ∧ r ∉ followed ∧
        ∃ c, ctx.components = some c ∧ c.resolve r = .ok target := by
  constructor
  · intro h
    unfold turn at h
    split at h
    · split at h
      · cases h
      · rename_i href
        split at h
        · cases h
        · rename_i c hc
          split at h
          · cases h
          · rename_i hr
            split at h
            · cases h
            · rename_i htarget
              cases h
              exact ⟨href, hr, c, hc, htarget⟩
      · cases h
    · cases h
  · rintro ⟨href, hr, c, hc, htarget⟩
    cases schema with
    | object members =>
        have hget : Entries.get? "$ref" members = some (.string r) := href
        simp only [turn, hget, hc, hr, htarget, if_false]
    | _ => cases href

/-- The only cycle that a schema reports itself is a reference that is followed already. -/
theorem of_turn_eq_cyclic {r : String} (h : turn ctx followed schema = .fault (.cyclicRef r)) :
    schema.member? "$ref" = some (.string r) ∧ r ∈ followed := by
  unfold turn at h
  split at h
  · split at h
    · cases h
    · rename_i href
      split at h
      · cases h
      · split at h
        · rename_i hr
          cases h
          exact ⟨href, hr⟩
        · split at h
          · rename_i hresolve
            cases h
            unfold Components.resolve Reference.split at hresolve
            grind
          · cases h
    · cases h
  · cases h

end

/-- A schema below the references `followed` is compiled to a result. -/
inductive Returns (ctx : Context) : List String → Json → Except CompileError Validator → Prop
  | fault {followed : List String} {schema : Json} {e : CompileError} :
      turn ctx followed schema = .fault e → Returns ctx followed schema (.error e)
  | follow {followed : List String} {schema target : Json} {r : String}
      {result : Except CompileError Validator} :
      turn ctx followed schema = .follow r target → Returns ctx (r :: followed) target result →
      Returns ctx followed schema result
  | node {followed : List String} {schema : Json} {members : Entries Json}
      {results : Json → Except CompileError Validator} :
      turn ctx followed schema = .node members →
      (∀ s ∈ Form.subschemas members, Returns ctx followed s (results s)) →
      Returns ctx followed schema (assemble ctx.formats results members)

variable {ctx : Context} {followed pending : List String} {schema : Json}

section

variable {x : Except CompileError Validator} (h : Returns ctx followed schema x)

include h

theorem Returns.of_fault {e : CompileError} (ht : turn ctx followed schema = .fault e) :
    x = .error e := by
  cases h with
  | fault ht' =>
      rw [ht] at ht'
      cases ht'
      rfl
  | follow ht' _ => rw [ht] at ht'; cases ht'
  | node ht' _ => rw [ht] at ht'; cases ht'

theorem Returns.of_follow {r : String} {target : Json}
    (ht : turn ctx followed schema = .follow r target) : Returns ctx (r :: followed) target x := by
  cases h with
  | fault ht' => rw [ht] at ht'; cases ht'
  | follow ht' htarget =>
      rw [ht] at ht'
      cases ht'
      exact htarget
  | node ht' _ => rw [ht] at ht'; cases ht'

/-- A node has its result from results of its subschemas. -/
theorem Returns.of_node {members : Entries Json} (ht : turn ctx followed schema = .node members) :
    ∃ results : Json → Except CompileError Validator,
      (∀ s ∈ Form.subschemas members, Returns ctx followed s (results s)) ∧
        assemble ctx.formats results members = x := by
  cases h with
  | fault ht' => rw [ht] at ht'; cases ht'
  | follow ht' _ => rw [ht] at ht'; cases ht'
  | node ht' hresults =>
      rw [ht] at ht'
      cases ht'
      exact ⟨_, hresults, rfl⟩

end

/-- A schema has no two results. -/
theorem Returns.unique {x y : Except CompileError Validator} (hx : Returns ctx followed schema x)
    (hy : Returns ctx followed schema y) : x = y := by
  induction hx generalizing y with
  | fault ht => exact (hy.of_fault ht).symm
  | follow ht _ ih => exact ih (hy.of_follow ht)
  | node ht _ ih =>
      obtain ⟨results, hresults, rfl⟩ := hy.of_node ht
      exact (assemble_congr fun s hs => ih s hs (hresults s hs)).symm

/-! ## Compilation finds the result -/

/-- The pending references are those that there are but for the followed ones. -/
structure Tracks (ctx : Context) (followed pending : List String) (schema : Json) : Prop where
  fresh : ∀ r ∈ pending, r ∉ followed
  ofSchema : ∀ r ∈ schema.references, r ∈ pending ∨ r ∈ followed
  ofComponents : ∀ c, ctx.components = some c →
    ∀ r ∈ Json.referencesOfMembers c.sections, r ∈ pending ∨ r ∈ followed

theorem Tracks.part (h : Tracks ctx followed pending schema) {s : Json} (hs : s.PartOf schema) :
    Tracks ctx followed pending s :=
  ⟨h.fresh, fun r hr => h.ofSchema r (hs.references r hr), h.ofComponents⟩

/-- Following a reference takes it from the pending ones, and nothing that the definition refers to
is left out. -/
theorem Tracks.follow (h : Tracks ctx followed pending schema) {c : Components} {r : String}
    {target : Json} (hc : ctx.components = some c) (hr : c.resolve r = .ok target) :
    Tracks ctx (r :: followed) (pending.filter (· != r)) target := by
  -- the reference itself changes sides, every other one stays where it was
  have hmoved : ∀ q, q ∈ pending ∨ q ∈ followed →
      q ∈ pending.filter (· != r) ∨ q ∈ r :: followed := by
    intro q hq
    rw [List.mem_cons, List.mem_filter, bne_iff_ne]
    by_cases heq : q = r
    · exact .inr (.inl heq)
    · rcases hq with hpending | hfollowed
      · exact .inl ⟨hpending, heq⟩
      · exact .inr (.inr hfollowed)
  refine ⟨?_, ?_, ?_⟩
  · intro q hq hin
    obtain ⟨hpending, hne⟩ := List.mem_filter.mp hq
    rcases List.mem_cons.mp hin with rfl | hfollowed
    · simp at hne
    · exact h.fresh q hpending hfollowed
  · intro q hq
    exact hmoved q (h.ofComponents c hc q (Json.mem_references_of_resolve hr hq))
  · intro c' hc' q hq
    exact hmoved q (h.ofComponents c' hc' q hq)

theorem mem_pending_iff (h : Tracks ctx followed pending schema) {r : String}
    (hr : r ∈ schema.references) : r ∈ pending ↔ r ∉ followed := by
  constructor
  · exact h.fresh r
  · intro hn
    exact (h.ofSchema r hr).resolve_right hn

/-- One step of compilation: the turn decides. -/
theorem compileWith_eq (h : Tracks ctx followed pending schema) :
    compileWith ctx pending schema =
      match turn ctx followed schema with
      | .fault e => .error e
      | .follow r target => compileWith ctx (pending.filter (· != r)) target
      | .node members => assemble ctx.formats (compileWith ctx pending) members := by
  cases schema with
  | object members =>
      unfold turn
      cases href : Entries.get? "$ref" members with
      | none =>
          simp only [href]
          exact compileWith_object_eq ctx pending href
      | some v =>
          cases v with
          | string r =>
              have hmember : (Json.object members).member? "$ref" = some (.string r) := href
              have hpending := mem_pending_iff h (Json.mem_references_of_ref hmember)
              rw [compileWith]
              simp only [href]
              cases ctx.components with
              | none => rfl
              | some components =>
                  -- a reference that is not pending is one that is followed already
                  by_cases hr : r ∈ followed
                  · have hgone : r ∉ pending := fun hin => hpending.mp hin hr
                    simp only [hr, hgone, if_true, dif_neg, not_false_eq_true]
                  · have hin : r ∈ pending := hpending.mpr hr
                    simp only [hr, hin, if_false, dif_pos]
                    cases components.resolve r <;> rfl
          | _ =>
              rw [compileWith]
              simp only [href]
              rfl
  | _ =>
      rw [compileWith]
      · rfl
      · simp

/-- Compilation ends, with the result that following references has. -/
theorem returns_compileWith {followed pending : List String} {schema : Json}
    (h : Tracks ctx followed pending schema) :
    Returns ctx followed schema (compileWith ctx pending schema) := by
  rw [compileWith_eq h]
  cases ht : turn ctx followed schema with
  | fault e => exact .fault ht
  | follow r target =>
      obtain ⟨href, hr, c, hc, htarget⟩ := turn_eq_follow_iff.mp ht
      have hin := (mem_pending_iff h (Json.mem_references_of_ref href)).mpr hr
      -- following a reference leaves one less pending, however large its definition is
      have hlt := length_without_lt hin
      exact .follow ht (returns_compileWith (h.follow hc htarget))
  | node members =>
      obtain ⟨hschema, -⟩ := turn_eq_node_iff.mp ht
      refine .node ht fun s hs => ?_
      -- the schemas below are smaller, with the same references pending
      have hpart : s.PartOf schema := hschema ▸ Form.partOf_of_mem_subschemas hs
      exact returns_compileWith (h.part hpart)
termination_by (pending.length, sizeOf schema)
decreasing_by
  · exact Prod.Lex.left _ _ hlt
  · exact Prod.Lex.right _ hpart.size

theorem returns_compile (ctx : Context) (schema : Json) :
    Returns ctx [] schema (compile ctx schema) := by
  refine returns_compileWith ⟨fun r _ => List.not_mem_nil, fun r hr => ?_, fun c hc r hr => ?_⟩
  · exact .inl (List.mem_append_left _ hr)
  · refine .inl (List.mem_append_right _ ?_)
    rw [hc]
    exact hr

/-- The result of compilation is the only one. -/
theorem compile_eq_iff {x : Except CompileError Validator} :
    compile ctx schema = x ↔ Returns ctx [] schema x := by
  constructor
  · rintro rfl
    exact returns_compile ctx schema
  · intro h
    exact (returns_compile ctx schema).unique h

/-- A schema that is no reference is put together from what the schemas below are compiled to on
their own. -/
theorem compile_object_eq {members : Entries Json} (href : Entries.get? "$ref" members = none) :
    compile ctx (.object members) = assemble ctx.formats (compile ctx) members := by
  rw [compile_eq_iff]
  exact .node (turn_eq_node_iff.mpr ⟨rfl, href⟩) fun s _ => returns_compile ctx s

/-- A reference is compiled to what its definition is compiled to below it. -/
theorem compile_ref_eq {r : String} {c : Components} {target : Json}
    (href : schema.member? "$ref" = some (.string r)) (hc : ctx.components = some c)
    (htarget : c.resolve r = .ok target) :
    compile ctx schema = compileWith ctx ((reachable ctx schema).filter (· != r)) target := by
  have hpending : r ∈ reachable ctx schema :=
    List.mem_append_left _ (Json.mem_references_of_ref href)
  cases schema with
  | object members =>
      have hget : Entries.get? "$ref" members = some (.string r) := href
      rw [compile, compileWith]
      simp only [hget, hc, hpending, htarget, dif_pos]
  | _ => cases href

/-! ## Compiled trees -/

/-- What holds of every node that is put together holds everywhere in a compiled tree. -/
theorem everywhere_of_returns {P : Validator → Prop}
    (hP : ∀ {compile : Json → Except CompileError Validator} {members : Entries Json}
      {v : Validator}, assemble ctx.formats compile members = .ok v → P v)
    {x : Except CompileError Validator} (h : Returns ctx followed schema x) {v : Validator}
    (hx : x = .ok v) : v.Everywhere P := by
  induction h generalizing v with
  | fault _ => cases hx
  | follow _ _ ih => exact ih hx
  | node _ _ ih =>
      refine .node (hP hx) fun w hw => ?_
      obtain ⟨s, hs, hcompiled⟩ := (builtFrom_of_assemble hx).origin w hw
      exact ih s hs hcompiled

/-- In a compiled tree every combinator has a branch, and no object declares a name twice. -/
theorem everywhere_of_compile {v : Validator} (h : compile ctx schema = .ok v) :
    v.Everywhere fun n => n.HasBranches ∧ n.NamesDistinct := by
  refine everywhere_of_returns (fun hnode => ?_) (compile_eq_iff.mp h) rfl
  have hbuilt := builtFrom_of_assemble hnode
  exact ⟨hbuilt.branches, hbuilt.names⟩

/-- So every `allOf` in it merges at least one output. -/
theorem mergesSome_of_compile {v : Validator} (h : compile ctx schema = .ok v) :
    v.Everywhere MergesSome :=
  (everywhere_of_compile h).mono fun _ hn => hn.1.mergesSome

end Validator

end SchemaGate
