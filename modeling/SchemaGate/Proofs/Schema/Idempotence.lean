import Mathlib
import SchemaGate.Proofs.Schema.Output
import SchemaGate.Proofs.Schema.Rules

/-!
# Validation is idempotent

An output of a tree without combinators is accepted again, whether its texts are then taken for
raw ones or not, and the second output equals the first up to the order of members
(`Validator.validate_idempotent`). The order may change, since taking declared members away
reorders the others.

Keys are distinct throughout: those of the input, those of defaults and the names of declared
properties. All three are kept in tables that hold a key only once.

The steps are one for each way of building a value: `Common.settled_again` for what is not
examined at all, `ArrayRule.examine_again` for items, and `Validator.outcomeOf_again` for a single
member, from which `Validator.examineObject_again` puts objects together by look-up.
-/

namespace SchemaGate

/-! ## Absent and null -/

namespace Common

theorem substitute_absent_of {c : Common} {input : Field} (h : c.substitute input = .absent) :
    c.substitute .absent = .absent := by
  cases input with
  | absent => exact h
  | _ => cases h

/-- Nothing stays nothing and null stays null, so only what an examination answers counts. -/
theorem settled_again {c : Common} {type : String} {examine examine' : Field → Outcome}
    {input out : Field} (h : c.settled type examine input = .ok out)
    (again : examine (c.substitute input) = .ok out →
      out.IsGiven ∧ ∃ out', examine' out = .ok out' ∧ Field.Same out out') :
    ∃ out', c.settled type examine' out = .ok out' ∧ Field.Same out out' := by
  rcases settled_eq_ok_iff.mp h with ⟨habsent, rfl⟩ | ⟨-, hnull, rfl⟩ | ⟨-, hexamined⟩
  · exact ⟨.absent, settled_eq_ok_iff.mpr (.inl ⟨substitute_absent_of habsent, rfl⟩), .absent⟩
  · exact ⟨.null, settled_eq_ok_iff.mpr (.inr (.inl ⟨rfl, hnull, rfl⟩)), .null⟩
  · obtain ⟨hgiven, out', hout', hsame⟩ := again hexamined
    exact ⟨out', (settled_of_isGiven hgiven).mpr hout', hsame⟩

end Common

/-! ## Scalars -/

theorem IntegerRule.examine_again {r : IntegerRule} {f out : Field} {raw : Bool} (raw' : Bool)
    (h : r.examine f raw = .ok out) :
    out.IsGiven ∧ ∃ out', r.examine out raw' = .ok out' ∧ Field.Same out out' := by
  obtain ⟨n, -, hchecks, rfl⟩ := examine_eq_ok_iff.mp h
  refine ⟨⟨rfl, rfl⟩, _, examine_eq_ok_iff.mpr ⟨n, rfl, hchecks, rfl⟩, ?_⟩
  exact Field.Same.refl trivial

theorem NumberRule.examine_again {r : NumberRule} {f out : Field} {raw : Bool} (raw' : Bool)
    (h : r.examine f raw = .ok out) :
    out.IsGiven ∧ ∃ out', r.examine out raw' = .ok out' ∧ Field.Same out out' := by
  obtain ⟨x, -, hchecks, rfl⟩ := examine_eq_ok_iff.mp h
  refine ⟨⟨rfl, rfl⟩, _, examine_eq_ok_iff.mpr ⟨x, rfl, hchecks, rfl⟩, ?_⟩
  exact Field.Same.refl trivial

theorem StringRule.examine_again {r : StringRule} {f out : Field} (h : r.examine f = .ok out) :
    out.IsGiven ∧ ∃ out', r.examine out = .ok out' ∧ Field.Same out out' := by
  rcases examine_eq_ok_iff.mp h with ⟨payload, -, hbinary, rfl⟩ | ⟨s, -, hchecks, rfl⟩
  · refine ⟨⟨rfl, rfl⟩, _, examine_eq_ok_iff.mpr (.inl ⟨payload, rfl, hbinary, rfl⟩), ?_⟩
    exact .binary payload
  · refine ⟨⟨rfl, rfl⟩, _, examine_eq_ok_iff.mpr (.inr ⟨s, rfl, hchecks, rfl⟩), ?_⟩
    exact Field.Same.refl trivial

theorem Common.examineBool_again {f out : Field} {raw : Bool} (raw' : Bool)
    (h : examineBool f raw = .ok out) :
    out.IsGiven ∧ ∃ out', examineBool out raw' = .ok out' ∧ Field.Same out out' := by
  obtain ⟨b, -, rfl⟩ := examineBool_eq_ok_iff.mp h
  exact ⟨⟨rfl, rfl⟩, _, examineBool_eq_ok_iff.mpr ⟨b, rfl, rfl⟩, Field.Same.refl trivial⟩

/-! ## Arrays -/

namespace ArrayRule

/-- Items that equal admitted ones are admitted. -/
theorem Admits.map_of_same {r : ArrayRule} {ys : List Json} (h : r.Admits ys)
    (hwf : ∀ y ∈ ys, y.WellFormed) {g : Json → Json} (hg : ∀ y ∈ ys, y.same (g y) = true) :
    r.Admits (ys.map g) := by
  refine ⟨?_, ?_, fun hunique => ?_⟩
  · rw [List.length_map]
    exact h.minItems
  · rw [List.length_map]
    exact h.maxItems
  · rw [List.pairwise_map]
    refine (h.unique hunique).imp_of_mem fun {a b} ha hb hab => ?_
    -- were the new items equal, the old ones would be
    by_contra hne
    have hga : a.same (g b) = true := Json.same_trans (hg a ha) (by simpa using hne)
    have hab' : a.same b = true := Json.same_trans hga (Json.same_symm (hwf b hb) (hg b hb))
    rw [hab] at hab'
    cases hab'

/-- Items that are each accepted again make an array that is accepted again. -/
theorem examine_again {r : ArrayRule} {item item' : Json → Outcome} {f out : Field}
    {raw : Bool} (raw' : Bool) (h : r.examine item f raw = .ok out) (hwf : out.WellFormed)
    (again : ∀ xs, read f raw = some xs → ∀ x ∈ xs, ∀ g, item x = .ok g →
      ∃ g', item' (g.toJson?.getD .null) = .ok g' ∧
        (g.toJson?.getD .null).same (g'.toJson?.getD .null) = true) :
    out.IsGiven ∧ ∃ out', r.examine item' out raw' = .ok out' ∧ Field.Same out out' := by
  obtain ⟨xs, ys, hread, hys, hchecks, rfl⟩ := examine_eq_ok_iff.mp h
  have hitems : ∀ y ∈ ys, ∃ g', item' y = .ok g' ∧ y.same (g'.toJson?.getD .null) = true := by
    intro y hy
    obtain ⟨x, hx, g, hg, rfl⟩ := exists_item_of_collect hys y hy
    exact again xs hread x hx g hg
  -- the second pass item by item, as a function of the first output
  choose! g hg hsame using hitems
  have hcollect : collect item' 0 ys = .ok (ys.map fun y => (g y).toJson?.getD .null) := by
    refine collect_eq_ok_iff.mpr (List.forall₂_map_right_iff.mpr ?_)
    exact List.forall₂_same.mpr fun y hy => ⟨g y, hg y hy, rfl⟩
  have hadmitted := (checks_hold_iff.mp hchecks).map_of_same (Json.wellFormed_array.mp hwf) hsame
  refine ⟨⟨rfl, rfl⟩, _, examine_eq_ok_iff.mpr
    ⟨ys, _, rfl, hcollect, checks_hold_iff.mpr hadmitted, rfl⟩, .value ?_⟩
  refine Json.same_iff.mpr (.array (List.forall₂_map_right_iff.mpr ?_))
  exact List.forall₂_same.mpr hsame

end ArrayRule

namespace Validator

/-! ## Children of a node -/

/-- What the tree accepts it accepts again, with an equal output. -/
def AcceptsAgain (raw raw' : Bool) (v : Validator) : Prop :=
  ∀ input out, input.WellFormed → v.validate input raw = .ok out →
    ∃ out', v.validate out raw' = .ok out' ∧ Field.Same out out'

/-- An output that is put into an array or an object is accepted again when it is read back. -/
theorem AcceptsAgain.ofOption {raw raw' : Bool} {v : Validator} (h : v.AcceptsAgain raw raw')
    {input f : Field} (hi : input.WellFormed) (hbinary : ∀ payload, input ≠ .binary payload)
    (hf : v.validate input raw = .ok f) :
    ∃ f', v.validate (.ofOption f.toJson?) raw' = .ok f' ∧ Field.Same f f' := by
  have hplain : Field.ofOption f.toJson? = f := isPlain_of_validate hbinary hf
  rw [hplain]
  exact h input f hi hf

/-- An item that is put back into an array is accepted again, and put there once more as the same
value. -/
theorem item_again {raw raw' : Bool} {items : Validator} (hm : items.Everywhere MergesSome)
    (hc : items.AcceptsAgain raw raw') {x : Json} (hx : x.WellFormed) {g : Field}
    (hg : items.validate (.ofJson x) raw = .ok g) :
    ∃ g', items.validate (.ofJson (g.toJson?.getD .null)) raw' = .ok g' ∧
      (g.toJson?.getD .null).same (g'.toJson?.getD .null) = true := by
  obtain ⟨y, hy⟩ := Field.exists_toJson? (ne_absent_of_validate hm (Field.ofJson_ne_absent x) hg)
  obtain ⟨g', hg', hsame⟩ :=
    hc.ofOption (Field.wellFormed_ofJson hx) (Field.ofJson_ne_binary x) hg
  have hrel := hsame.toJson?
  rw [hy] at hg' hrel ⊢
  refine ⟨g', hg', ?_⟩
  generalize g'.toJson? = found at hrel ⊢
  cases hrel with
  | some h => exact h

/-! ## Objects -/

theorem declaredOutcome_again {raw raw' : Bool} {d : Validator} (hd : d.AcceptsAgain raw raw')
    {member : Option Json} (hm : ∀ x ∈ member, x.WellFormed) {f : Field}
    (hf : declaredOutcome d member raw = .ok f) :
    ∃ f', declaredOutcome d f.toJson? raw' = .ok f' ∧ Field.Same f f' := by
  rcases declaredOutcome_eq_ok_iff.mp hf with ⟨hreadOnly, -, rfl⟩ | ⟨hreadOnly, hval⟩
  · exact ⟨.absent, declaredOutcome_eq_ok_iff.mpr (.inl ⟨hreadOnly, rfl, rfl⟩), .absent⟩
  · obtain ⟨f', hf', hsame⟩ := hd.ofOption (Field.wellFormed_ofOption hm)
      (Field.ofOption_ne_binary member) hval
    exact ⟨f', declaredOutcome_eq_ok_iff.mpr (.inr ⟨hreadOnly, hf'⟩), hsame⟩

/-- A member that no property declares is kept, and what is kept is accepted again. -/
theorem validateAdditional_again {raw raw' : Bool} {additional : Additional Validator}
    (hs : ∀ s, additional = .schema s → s.Everywhere MergesSome ∧ s.AcceptsAgain raw raw')
    {x : Json} (hx : x.WellFormed) {f : Field} (hf : validateAdditional additional x raw = .ok f) :
    ∃ y f', f.toJson? = some y ∧ validateAdditional additional y raw' = .ok f' ∧
      Field.Same f f' := by
  obtain ⟨y, hy⟩ := exists_output_of_additional (fun s h => (hs s h).1) hf
  rcases validateAdditional_eq_ok_iff.mp hf with ⟨rfl, rfl⟩ | ⟨s, rfl, hval⟩
  · exact ⟨x, _, rfl, validateAdditional_eq_ok_iff.mpr (.inl ⟨rfl, rfl⟩), Field.Same.refl hx⟩
  · obtain ⟨f', hf', hsame⟩ := (hs s rfl).2.ofOption (Field.wellFormed_ofJson hx)
      (Field.ofJson_ne_binary x) hval
    rw [hy] at hf'
    exact ⟨y, f', hy, validateAdditional_eq_ok_iff.mpr (.inr ⟨s, rfl, hf'⟩), hsame⟩

/-- The outcome of a name in the second pass, where the first pass put its output under it. -/
theorem outcomeOf_again {additional : Additional Validator} {declared : Option Validator}
    {raw raw' : Bool} (hd : ∀ d ∈ declared, d.AcceptsAgain raw raw')
    (hs : ∀ s, additional = .schema s → s.Everywhere MergesSome ∧ s.AcceptsAgain raw raw')
    {member : Option Json} (hm : ∀ x ∈ member, x.WellFormed)
    (hok : ∀ r ∈ outcomeOf additional declared member raw, ∃ f, r = .ok f) {value : Option Json}
    (hvalue : value = (outcomeOf additional declared member raw).bind Outcome.json?) :
    (∀ r ∈ outcomeOf additional declared value raw', ∃ f, r = .ok f) ∧
      Option.Rel (fun x y => Json.same x y = true) value
        ((outcomeOf additional declared value raw').bind Outcome.json?) := by
  cases declared with
  | some d =>
      obtain ⟨f, hf : declaredOutcome d member raw = .ok f⟩ := hok _ rfl
      obtain ⟨f', hf', hsame⟩ := declaredOutcome_again (hd d rfl) hm hf
      have hout : value = f.toJson? := by rw [hvalue, outcomeOf, hf]; rfl
      rw [← hout] at hf'
      rw [outcomeOf, hf']
      refine ⟨?_, hout ▸ hsame.toJson?⟩
      rintro r ⟨⟩
      exact ⟨f', rfl⟩
  | none =>
      cases member with
      | none =>
          cases hvalue
          exact ⟨fun r hr => absurd hr (by rintro ⟨⟩), .none⟩
      | some x =>
          obtain ⟨f, hf : validateAdditional additional x raw = .ok f⟩ := hok _ rfl
          obtain ⟨y, f', hy, hf', hsame⟩ := validateAdditional_again hs (hm x rfl) hf
          have hout : value = some y := by
            rw [hvalue, outcomeOf, Option.map_some, hf]
            exact hy
          subst hout
          rw [outcomeOf, Option.map_some, hf']
          refine ⟨?_, hy ▸ hsame.toJson?⟩
          rintro r ⟨⟩
          exact ⟨f', rfl⟩

/-- Objects whose parts are accepted again are accepted again. Names are looked up one by one,
since the order of members may change. -/
theorem examineObject_again {rule : ObjectRule} {properties : Entries Validator}
    {additional : Additional Validator} {raw raw' : Bool}
    (hv : (object rule properties additional).Everywhere MergesSome)
    (hp : (Entries.keys properties).Nodup)
    (hc : ∀ c ∈ (object rule properties additional).children, c.AcceptsAgain raw raw')
    {f out : Field} (hf : f.WellFormed)
    (h : examineObject rule properties additional f raw = .ok out) :
    out.IsGiven ∧ ∃ out', examineObject rule properties additional out raw' = .ok out' ∧
      Field.Same out out' := by
  obtain ⟨ms, rfl, hrequired, hok, hchecks, rfl⟩ := examineObject_eq_ok_iff.mp h
  obtain ⟨hm, hmembers⟩ := Json.wellFormed_object.mp hf
  generalize hout : ObjectRule.outputs (memberOutcomes properties additional ms raw) = outs
  rw [hout] at hchecks
  have hn : (Entries.keys outs).Nodup :=
    hout ▸ ObjectRule.nodup_outputs (nodup_memberOutcomes hp hm)
  have hn' : (Entries.keys (memberOutcomes properties additional outs raw')).Nodup :=
    nodup_memberOutcomes hp hn
  -- each name by itself, whatever its place in the two outputs
  have hname : ∀ k,
      (∀ r ∈ outcomeOf additional (Entries.get? k properties) (Entries.get? k outs) raw',
        ∃ f, r = .ok f) ∧
      Option.Rel (fun x y => Json.same x y = true) (Entries.get? k outs)
        ((outcomeOf additional (Entries.get? k properties) (Entries.get? k outs) raw').bind
          Outcome.json?) := by
    intro k
    have hvalue : Entries.get? k outs =
        (outcomeOf additional (Entries.get? k properties) (Entries.get? k ms) raw).bind
          Outcome.json? := by
      rw [← get?_memberOutcomes hm, ← ObjectRule.get?_outputs (nodup_memberOutcomes hp hm), hout]
    refine outcomeOf_again ?_ ?_ ?_ ?_ hvalue
    · intro d hd
      exact hc d (mem_children_of_property (Entries.mem_of_get? hd))
    · rintro s rfl
      exact ⟨hv.child List.mem_cons_self, hc s List.mem_cons_self⟩
    · intro x hx
      exact hmembers _ (Entries.mem_of_get? hx)
    · intro r hr
      rw [← get?_memberOutcomes hm] at hr
      exact hok _ (Entries.mem_of_get? hr)
  have hsame : Json.same (.object outs)
      (.object (ObjectRule.outputs (memberOutcomes properties additional outs raw'))) = true := by
    refine Json.same_object hn (ObjectRule.nodup_outputs hn') fun k => ?_
    rw [ObjectRule.get?_outputs hn', get?_memberOutcomes hn]
    exact (hname k).2
  refine ⟨⟨rfl, rfl⟩, _, examineObject_eq_ok_iff.mpr ⟨outs, rfl, ?_, ?_, ?_, rfl⟩, .value hsame⟩
  · intro name hn hreadOnly
    exact hout ▸ mem_keys_outputs_of_given hv hok (hrequired name hn hreadOnly)
  · rintro ⟨k, r⟩ he
    refine (hname k).1 r ?_
    rw [← get?_memberOutcomes hn]
    exact (Entries.get?_eq_some_iff hn').mpr he
  · -- equal objects have the same number of members
    have hlen := (Json.keys_perm_of_same hn hsame).length_eq
    rw [Entries.keys, Entries.keys, List.length_map, List.length_map] at hlen
    have hadmitted := ObjectRule.checks_hold_iff.mp hchecks
    refine ObjectRule.checks_hold_iff.mpr ⟨?_, ?_⟩
    · exact hlen ▸ hadmitted.minProperties
    · exact hlen ▸ hadmitted.maxProperties

/-! ## Whole trees -/

/-- A second pass over an output changes nothing but the order of members. -/
theorem validate_idempotent {v : Validator} (hv : v.Everywhere IsTyped) (hs : v.Everywhere Sound)
    {input out : Field} (hi : input.WellFormed) {raw raw' : Bool}
    (h : v.validate input raw = .ok out) :
    ∃ out', v.validate out raw' = .ok out' ∧ Field.Same out out' := by
  induction v using induct generalizing input out with
  | node v ih =>
    have hmerges : v.Everywhere MergesSome := hv.mono fun _ => MergesSome.of_isTyped
    have hin : (v.common.substitute input).WellFormed :=
      Common.substitute_wellFormed hs.here.default hi
    -- the invariant that the induction carries from the children to the node
    have hchildren : ∀ c ∈ v.children, c.AcceptsAgain raw raw' :=
      fun c hc _ _ hi h => ih c hc (hv.child hc) (hs.child hc) hi h
    have hwf := wellFormed_of_validate hs hi h
    cases v with
    | integer rule =>
        rw [validate_integer_eq] at h ⊢
        exact Common.settled_again h (IntegerRule.examine_again raw')
    | number rule =>
        rw [validate_number_eq] at h ⊢
        exact Common.settled_again h (NumberRule.examine_again raw')
    | string rule =>
        rw [validate_string_eq] at h ⊢
        exact Common.settled_again h StringRule.examine_again
    | boolean c =>
        rw [validate_boolean_eq] at h ⊢
        exact Common.settled_again h (Common.examineBool_again raw')
    | array rule items =>
        rw [validate_array_eq] at h ⊢
        refine Common.settled_again h fun hexamined => ?_
        refine ArrayRule.examine_again raw' hexamined hwf fun xs hread x hx g hg => ?_
        exact item_again (hmerges.child List.mem_cons_self)
          (hchildren items List.mem_cons_self) (ArrayRule.wellFormed_of_read hin hread x hx) hg
    | object rule properties additional =>
        rw [validate_object_eq] at h
        simp only [validate_object_eq]
        refine Common.settled_again h fun hexamined => ?_
        exact examineObject_again hmerges hs.here.names hchildren hin hexamined
    | oneOf c branches discriminator => exact absurd hv.here id
    | anyOf c branches discriminator => exact absurd hv.here id
    | allOf c branches => exact absurd hv.here id

/-! ## A parcel -/

/-- A parcel has a count and may have any other texts. -/
def parcel : Validator :=
  .object {} [("count", .integer { format := some .int32 })] (.schema (.string {}))

/-- The fields of a form, all of them texts. -/
def parcelForm : Field :=
  .value (.object [("from", .string "a"), ("count", .string "2"), ("to", .string "b"),
    ("via", .string "c")])

/-- The parcel that the form stands for: the last field has moved to where the count was. -/
def parcelRead : Field :=
  .value (.object [("count", .number (.int ⟨2, by decide, by decide⟩)), ("from", .string "a"),
    ("via", .string "c"), ("to", .string "b")])

/-- The parcel is accepted again, and only the order of its members changes. -/
theorem parcelRead_again :
    parcel.validate parcelForm true = .ok parcelRead ∧
      ∃ out, parcel.validate parcelRead false = .ok out ∧ Field.Same parcelRead out := by
  have haccepted : parcel.validate parcelForm true = .ok parcelRead := by cbv
  have htyped : parcel.Everywhere IsTyped := by
    refine .node trivial fun c hc => ?_
    rcases List.mem_cons.mp hc with rfl | hc
    · exact .leaf trivial rfl
    cases List.mem_singleton.mp hc
    exact .leaf trivial rfl
  have hsound : parcel.Everywhere Sound := by
    refine .node ⟨by rintro d ⟨⟩, List.nodup_singleton "count"⟩ fun c hc => ?_
    rcases List.mem_cons.mp hc with rfl | hc
    · exact .leaf ⟨by rintro d ⟨⟩, trivial⟩ rfl
    cases List.mem_singleton.mp hc
    exact .leaf ⟨by rintro d ⟨⟩, trivial⟩ rfl
  have hform : parcelForm.WellFormed := by
    refine Json.wellFormed_object.mpr ⟨by decide, fun m hm => ?_⟩
    obtain ⟨k, x⟩ := m
    simp only [List.mem_cons, Prod.mk.injEq, List.not_mem_nil, or_false] at hm
    rcases hm with ⟨-, rfl⟩ | ⟨-, rfl⟩ | ⟨-, rfl⟩ | ⟨-, rfl⟩ <;> trivial
  exact ⟨haccepted, validate_idempotent htyped hsound hform haccepted⟩

end Validator

end SchemaGate
