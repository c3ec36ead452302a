import Mathlib
import SchemaGate.Proofs.Schema.Output
import SchemaGate.Proofs.Schema.Rules

/-!
# Outputs conform

What a schema says about a value, without saying how a value is checked: `Validator.Conforms` has
one rule for each kind of node. An output that is not absent conforms to the tree, however the
input was read, split or filled in with defaults (`Validator.conforms_of_validate`).

Trees with an `allOf` node are left out, since the merged output of such a node need not conform
to each of its branches.
-/

namespace SchemaGate.Validator

mutual

/-- The field is what the tree describes. -/
inductive Conforms : Validator → Field → Prop
  | null {v : Validator} : v.common.nullable = true → Conforms v .null
  | integer {rule : IntegerRule} {n : WideInt} : rule.Admits n →
      Conforms (integer rule) (.value (.number (.int n)))
  | number {rule : NumberRule} {x : Binary64} : rule.Admits x →
      Conforms (number rule) (.value (.number (.float x)))
  | string {rule : StringRule} {s : String} : rule.Admits s →
      Conforms (string rule) (.value (.string s))
  | payload {rule : StringRule} {payload : Utf8.Octets} : rule.acceptsBinary = true →
      Conforms (string rule) (.binary payload)
  | boolean {c : Common} {b : Bool} : Conforms (boolean c) (.value (.bool b))
  | array {rule : ArrayRule} {items : Validator} {xs : List Json} : rule.Admits xs →
      (∀ x ∈ xs, Conforms items (.ofJson x)) →
      Conforms (array rule items) (.value (.array xs))
  | object {rule : ObjectRule} {properties : Entries Validator}
      {additional : Additional Validator} {ms : Entries Json} : rule.Admits ms →
      (∀ name ∈ rule.required, name ∉ readOnlyNames properties → name ∈ Entries.keys ms) →
      (∀ k x, Entries.get? k ms = some x → ConformsMember properties additional k x) →
      Conforms (object rule properties additional) (.value (.object ms))
  | oneOf {c : Common} {branches : List Validator} {discriminator : Option Discriminator}
      {b : Validator} {f : Field} : Answers branches discriminator b → Conforms b f →
      Conforms (oneOf c branches discriminator) f
  | anyOf {c : Common} {branches : List Validator} {discriminator : Option Discriminator}
      {b : Validator} {f : Field} : Answers branches discriminator b → Conforms b f →
      Conforms (anyOf c branches discriminator) f

/-- The member is one that the object may have: a property declares it, and not as read-only, or
no property does and the other members may be as it is. -/
inductive ConformsMember : Entries Validator → Additional Validator → String → Json → Prop
  | declared {properties : Entries Validator} {additional : Additional Validator} {k : String}
      {x : Json} {d : Validator} : (k, d) ∈ properties → d.isReadOnly = false →
      Conforms d (.ofJson x) → ConformsMember properties additional k x
  | allowed {properties : Entries Validator} {k : String} {x : Json} :
      k ∉ Entries.keys properties → ConformsMember properties .allow k x
  | additional {properties : Entries Validator} {s : Validator} {k : String} {x : Json} :
      k ∉ Entries.keys properties → Conforms s (.ofJson x) →
      ConformsMember properties (.schema s) k x

end

/-! ## Outputs within outputs -/

/-- What the tree puts into an array or an object conforms to it when it is read back. -/
def ConformsBack (raw : Bool) (v : Validator) : Prop :=
  ∀ (input f : Field) (y : Json), (∀ payload, input ≠ .binary payload) →
    v.validate input raw = .ok f → f.toJson? = some y → v.Conforms (.ofJson y)

/-- What the items of an array come out as conforms to the schema of the items. -/
theorem conforms_of_mem_items {items : Validator} {raw : Bool} {xs ys : List Json}
    (hm : items.Everywhere MergesSome) (hback : items.ConformsBack raw)
    (h : ArrayRule.collect (fun x => items.validate (.ofJson x) raw) 0 xs = .ok ys) :
    ∀ y ∈ ys, items.Conforms (.ofJson y) := by
  intro y hy
  obtain ⟨x, -, f, hf, hfy⟩ := ArrayRule.exists_item_of_collect h y hy
  obtain ⟨z, hz⟩ :=
    Field.exists_toJson? (ne_absent_of_validate hm (Field.ofJson_ne_absent x) hf)
  rw [hz] at hfy
  cases hfy
  exact hback _ f z (Field.ofJson_ne_binary x) hf hz

/-- What an object comes out with under a name is a member that it may have. -/
theorem conformsMember_of_outputs {rule : ObjectRule} {properties : Entries Validator}
    {additional : Additional Validator} {raw : Bool} {ms : Entries Json}
    (hm : (object rule properties additional).Everywhere MergesSome)
    (hback : ∀ c ∈ (object rule properties additional).children, c.ConformsBack raw)
    (hok : ∀ e ∈ memberOutcomes properties additional ms raw, ∃ f, e.2 = .ok f) {k : String}
    {x : Json} (hx : Entries.get? k
      (ObjectRule.outputs (memberOutcomes properties additional ms raw)) = some x) :
    ConformsMember properties additional k x := by
  rcases source_of_output hm hok hx with ⟨d, f, hd, hf, hfx⟩ | ⟨hk, y, f, -, hf, hfx⟩
  · rcases declaredOutcome_eq_ok_iff.mp hf with ⟨-, -, rfl⟩ | ⟨hreadOnly, hval⟩
    · cases hfx
    · refine .declared hd hreadOnly ?_
      exact hback d (mem_children_of_property hd) _ f x (Field.ofOption_ne_binary _) hval hfx
  · rcases validateAdditional_eq_ok_iff.mp hf with ⟨rfl, -⟩ | ⟨s, rfl, hval⟩
    · exact .allowed hk
    · refine .additional hk ?_
      exact hback s List.mem_cons_self _ f x (Field.ofJson_ne_binary y) hval hfx

/-! ## Whole trees -/

/-- Every output that is there is what the tree describes. -/
theorem conforms_of_validate {v : Validator} (hv : v.Everywhere fun n => ¬ n.IsAllOf)
    {input out : Field} {raw : Bool} (h : v.validate input raw = .ok out)
    (hout : out ≠ .absent) : v.Conforms out := by
  induction v using induct generalizing input out with
  | node v ih =>
    have hm : v.Everywhere MergesSome := hv.mono fun _ => MergesSome.of_not_isAllOf
    -- outputs of children are written into the output and read back from it
    have hback : ∀ c ∈ v.children, c.ConformsBack raw := by
      intro c hc input f y hbinary hf hy
      rw [(isPlain_of_validate hbinary hf).ofJson_eq hy]
      refine ih c hc (hv.child hc) hf ?_
      rintro rfl
      cases hy
    have haccepted := accepted_of_validate h
    cases haccepted with
    | absent _ => exact absurd rfl hout
    | null _ hnull => exact .null hnull
    | integer _ hchecks => exact .integer (IntegerRule.checks_hold_iff.mp hchecks)
    | number _ hchecks => exact .number (NumberRule.checks_hold_iff.mp hchecks)
    | payload _ hbinary => exact .payload hbinary
    | string _ hchecks => exact .string (StringRule.checks_hold_iff.mp hchecks)
    | boolean _ => exact .boolean
    | array _ hys hchecks =>
        refine .array (ArrayRule.checks_hold_iff.mp hchecks) ?_
        exact conforms_of_mem_items (hm.child List.mem_cons_self)
          (hback _ List.mem_cons_self) hys
    | object _ hrequired hok hchecks =>
        refine .object (ObjectRule.checks_hold_iff.mp hchecks) ?_ ?_
        · intro name hname hreadOnly
          exact mem_keys_outputs_of_given hm hok (hrequired name hname hreadOnly)
        · intro k x hx
          exact conformsMember_of_outputs hm hback hok hx
    | oneOf hb _ hvb => exact .oneOf hb (ih _ hb.mem (hv.child hb.mem) hvb hout)
    | anyOf hb _ hvb => exact .anyOf hb (ih _ hb.mem (hv.child hb.mem) hvb hout)
    | allOf _ _ => exact absurd trivial hv.here

/-! ## A ticket -/

/-- A ticket has a number that only the service gives it, a count and distinct tags. -/
def ticket : Validator :=
  .object { required := ["number", "tags"] }
    [("count", .integer
        { common := { default? := some (.number (.int ⟨1, by decide, by decide⟩)) }
          minimum := some ⟨.int ⟨1, by decide, by decide⟩, false⟩ }),
      ("number", .string { common := { readOnly := true } }),
      ("tags", .array { minItems := some 1, uniqueItems := true } (.string {}))]
    .deny

/-- A form with nothing but tags, as one text. -/
def ticketForm : Field := .value (.object [("tags", .string "new,open")])

/-- The ticket that the form stands for. -/
def ticketRead : Field :=
  .value (.object [("count", .number (.int ⟨1, by decide, by decide⟩)),
    ("tags", .array [.string "new", .string "open"])])

/-- The count is filled in, the text is split, and the number is not asked for. -/
theorem ticketRead_conforms :
    ticket.validate ticketForm true = .ok ticketRead ∧ ticket.Conforms ticketRead := by
  have haccepted : ticket.validate ticketForm true = .ok ticketRead := by cbv
  have hnodes : ticket.Everywhere fun n => ¬ n.IsAllOf := by
    refine .node id fun c hc => ?_
    rcases List.mem_cons.mp hc with rfl | hc
    · exact .leaf id rfl
    rcases List.mem_cons.mp hc with rfl | hc
    · exact .leaf id rfl
    cases List.mem_singleton.mp hc
    refine .node id fun c hc => ?_
    cases List.mem_singleton.mp hc
    exact .leaf id rfl
  exact ⟨haccepted, conforms_of_validate hnodes haccepted (by rintro ⟨⟩)⟩

end SchemaGate.Validator
