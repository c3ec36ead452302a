import Mathlib
import SchemaGate.Proofs.Schema.Output

/-!
# Presence and kind

Validation reads texts, fills in defaults and rebuilds containers, but there is a side of an input
that it never changes: whether it is there at all, null, a binary payload, an object, or anything
else (`Field.presence`). Arrays, objects and `allOf` nodes rely on this of their children.

* `Validator.presence_of_validate`: an input that is there has an output of the same presence;
* `Validator.exists_array_of_validate` and `Validator.exists_object_of_validate`: the output for an
  array has as many items, and the output for an object has every name of the input;
* `Validator.validate_absent_eq`: an absent input is answered as the default is;
* `Validator.keepsPresence_of_mergesSome` gathers what follows for a node.
-/

namespace SchemaGate

/-- What can be said of an input without looking into its value. -/
inductive Presence where
  | absent
  | null
  | payload (octets : Utf8.Octets)
  | object
  | other

namespace Field

/-- The presence of a field. A wrapped null is null. -/
def presence : Field → Presence
  | absent => .absent
  | null => .null
  | value .null => .null
  | value (.object _) => .object
  | value _ => .other
  | binary payload => .payload payload

/-- The field is an object. -/
def IsObject (f : Field) : Prop := ∃ ms, f = .value (.object ms)

theorem presence_eq_absent_iff {f : Field} : f.presence = .absent ↔ f = .absent := by
  cases f with
  | value v => cases v <;> simp [presence]
  | _ => simp [presence]

theorem presence_eq_null_iff {f : Field} : f.presence = .null ↔ f.isNull = true := by
  cases f with
  | value v => cases v <;> simp [presence, isNull]
  | _ => simp [presence, isNull]

theorem presence_eq_payload_iff {f : Field} {payload : Utf8.Octets} :
    f.presence = .payload payload ↔ f = .binary payload := by
  cases f with
  | value v => cases v <;> simp [presence]
  | _ => simp [presence]

theorem presence_eq_object_iff {f : Field} : f.presence = .object ↔ f.IsObject := by
  cases f with
  | value v => cases v <;> simp [presence, IsObject]
  | _ => simp [presence, IsObject]

end Field

/-! ## What is read -/

theorem IntegerRule.presence_of_read {f : Field} {raw : Bool} {n : WideInt}
    (h : read f raw = some n) : f.presence = .other := by
  unfold read at h
  split at h
  · rfl
  · rfl
  · cases h

theorem NumberRule.presence_of_read {f : Field} {raw : Bool} {x : Binary64}
    (h : read f raw = some x) : f.presence = .other := by
  unfold read at h
  split at h
  · rfl
  · rfl
  · cases h

theorem Common.presence_of_readBool {f : Field} {raw : Bool} {b : Bool}
    (h : readBool f raw = some b) : f.presence = .other := by
  unfold readBool at h
  split at h
  · rfl
  · rfl
  · cases h

theorem ArrayRule.presence_of_read {f : Field} {raw : Bool} {xs : List Json}
    (h : read f raw = some xs) : f.presence = .other := by
  unfold read at h
  split at h
  · rfl
  · rfl
  · cases h

/-! ## Outputs that are merged -/

namespace Combinator

theorem exists_members_of_isObject {fs : List Field} (h : ∀ f ∈ fs, f.IsObject) :
    ∃ mss : List (Entries Json), fs = mss.map fun ms => .value (.object ms) := by
  induction fs with
  | nil => exact ⟨[], rfl⟩
  | cons f rest ih =>
      rw [List.forall_mem_cons] at h
      obtain ⟨ms, rfl⟩ := h.1
      obtain ⟨mss, rfl⟩ := ih h.2
      exact ⟨ms :: mss, rfl⟩

/-- One output that is no object is enough for them to be taken as they are. -/
theorem allMembers_eq_none {fs : List Field} {g : Field} (hg : g ∈ fs) (hother : ¬ g.IsObject) :
    allMembers fs = none := by
  refine Option.eq_none_iff_forall_ne_some.mpr fun mss hmss => ?_
  rw [allMembers_eq_some_iff.mp hmss] at hg
  obtain ⟨ms, -, rfl⟩ := List.mem_map.mp hg
  exact hother ⟨ms, rfl⟩

/-- Where every output is there, merging drops none. -/
theorem filter_present {fs : List Field} (h : ∀ f ∈ fs, f ≠ .absent) :
    (fs.filter fun f => !f.isAbsent) = fs := by
  rw [List.filter_eq_self]
  intro f hf
  cases hf' : f.isAbsent with
  | false => rfl
  | true => exact absurd (Field.isAbsent_iff.mp hf') (h f hf)

theorem merge_objects {mss : List (Entries Json)} (hne : mss ≠ []) :
    merge (mss.map fun ms => .value (.object ms)) =
      .value (.object (mss.foldl (fun acc m => Entries.putAll m acc) [])) := by
  have hthere : ∀ f ∈ mss.map fun ms => Field.value (.object ms), f ≠ .absent := by
    intro f hf
    obtain ⟨ms, -, rfl⟩ := List.mem_map.mp hf
    rintro ⟨⟩
  have hne' : (mss.map fun ms => Field.value (.object ms)) ≠ [] := by simpa using hne
  have htables : allMembers (mss.map fun ms => Field.value (.object ms)) = some mss :=
    allMembers_eq_some_iff.mpr rfl
  simp only [merge, filter_present hthere, List.getLast?_eq_some_getLast hne', htables]

theorem merge_others {fs : List Field} (hne : fs ≠ []) (hthere : ∀ f ∈ fs, f ≠ .absent)
    (hother : ∀ f ∈ fs, ¬ f.IsObject) : merge fs = fs.getLast hne := by
  have hnone : allMembers fs = none :=
    allMembers_eq_none (List.getLast_mem hne) (hother _ (List.getLast_mem hne))
  simp only [merge, filter_present hthere, List.getLast?_eq_some_getLast hne, hnone]

/-- Outputs of one presence are merged into an output of that presence. -/
theorem presence_merge {fs : List Field} (hne : fs ≠ []) {p : Presence} (hp : p ≠ .absent)
    (h : ∀ f ∈ fs, f.presence = p) : (merge fs).presence = p := by
  have hthere : ∀ f ∈ fs, f ≠ .absent := by
    intro f hf habsent
    rw [← h f hf, habsent] at hp
    exact hp rfl
  by_cases hobject : p = .object
  · subst hobject
    obtain ⟨mss, rfl⟩ :=
      exists_members_of_isObject fun f hf => Field.presence_eq_object_iff.mp (h f hf)
    rw [merge_objects (by simpa using hne)]
    rfl
  · have hother : ∀ f ∈ fs, ¬ f.IsObject := by
      intro f hf ho
      rw [← Field.presence_eq_object_iff, h f hf] at ho
      exact hobject ho
    rw [merge_others hne hthere hother]
    exact h _ (List.getLast_mem hne)

theorem mem_keys_merged {mss : List (Entries Json)} {ms : Entries Json} (hms : ms ∈ mss)
    {k : String} (hk : k ∈ Entries.keys ms) :
    k ∈ Entries.keys (mss.foldl (fun acc m => Entries.putAll m acc) []) := by
  -- a key is there from the time it is put, so the table to start from is arbitrary
  have hstep : ∀ acc : Entries Json, k ∈ Entries.keys acc ∨ (∃ ms ∈ mss, k ∈ Entries.keys ms) →
      k ∈ Entries.keys (mss.foldl (fun acc m => Entries.putAll m acc) acc) := by
    clear hms
    induction mss with
    | nil =>
        rintro acc (hacc | ⟨ms, hms, -⟩)
        · exact hacc
        · exact absurd hms List.not_mem_nil
    | cons m rest ih =>
        rintro acc (hacc | ⟨ms, hms, hk⟩)
        · exact ih _ (.inl (Entries.mem_keys_putAll.mpr (.inr hacc)))
        · rcases List.mem_cons.mp hms with rfl | hrest
          · exact ih _ (.inl (Entries.mem_keys_putAll.mpr (.inl hk)))
          · exact ih _ (.inr ⟨ms, hrest, hk⟩)
  exact hstep [] (.inr ⟨ms, hms, hk⟩)

end Combinator

namespace Validator

variable {v : Validator} {raw : Bool} {input out : Field}

/-- An `allOf` node that has branches has outputs to merge. -/
theorem outputs_ne_nil {branches : List Validator} (hne : branches ≠ []) {fs : List Field}
    (h : (branches.map fun b => b.validate input raw) = fs.map .ok) : fs ≠ [] := by
  rintro rfl
  rw [List.map_nil, List.map_eq_nil_iff] at h
  exact hne h

/-! ## Presence is kept -/

/-- An input that is there has an output of the same presence. -/
theorem presence_of_validate (hv : v.Everywhere MergesSome) (hi : input ≠ .absent)
    (h : v.validate input raw = .ok out) : out.presence = input.presence := by
  induction v using induct generalizing input out with
  | node v ih =>
    have hsame : v.common.substitute input = input := Common.substitute_of_ne_absent hi
    have haccepted := accepted_of_validate h
    cases haccepted with
    | absent habsent =>
        rw [hsame] at habsent
        exact absurd habsent hi
    | null hnull _ =>
        rw [hsame] at hnull
        exact (Field.presence_eq_null_iff.mpr hnull).symm
    | integer hread _ =>
        rw [← hsame]
        exact (IntegerRule.presence_of_read hread).symm
    | number hread _ =>
        rw [← hsame]
        exact (NumberRule.presence_of_read hread).symm
    | payload hp _ =>
        rw [← hsame]
        exact (congrArg Field.presence hp).symm
    | string hs _ =>
        rw [← hsame]
        exact (congrArg Field.presence hs).symm
    | boolean hread =>
        rw [← hsame]
        exact (Common.presence_of_readBool hread).symm
    | array hread _ _ =>
        rw [← hsame]
        exact (ArrayRule.presence_of_read hread).symm
    | object hms _ _ _ =>
        rw [← hsame]
        exact (congrArg Field.presence hms).symm
    | oneOf hb hne hvb =>
        rw [← hsame]
        exact ih _ hb.mem (hv.child hb.mem) hne hvb
    | anyOf hb hne hvb =>
        rw [← hsame]
        exact ih _ hb.mem (hv.child hb.mem) hne hvb
    | @allOf c branches _ fs hne hfs =>
        have hbranch : ∀ f ∈ fs, f.presence = input.presence := by
          intro f hf
          obtain ⟨b, hb, hvb⟩ := exists_branch_of_mem hfs hf
          rw [← hsame]
          exact ih b hb (hv.child hb) hne hvb
        have hthere : input.presence ≠ .absent := by
          intro habsent
          exact hi (Field.presence_eq_absent_iff.mp habsent)
        exact Combinator.presence_merge (outputs_ne_nil hv.here hfs) hthere hbranch

/-- No output is a wrapped null, not even that of an absent input. -/
theorem ne_wrapped_null (h : v.validate input raw = .ok out) : out ≠ .value .null := by
  induction v using induct generalizing input out with
  | node v ih =>
    have haccepted := accepted_of_validate h
    cases haccepted with
    | oneOf hb _ hvb => exact ih _ hb.mem hvb
    | anyOf hb _ hvb => exact ih _ hb.mem hvb
    | @allOf c branches _ fs _ hfs =>
        rcases Combinator.merge_cases fs with ⟨-, hm⟩ | ⟨mss, -, hm⟩ | ⟨hm, -⟩
        · rw [hm]
          rintro ⟨⟩
        · rw [hm]
          rintro ⟨⟩
        · obtain ⟨b, hb, hvb⟩ := exists_branch_of_mem hfs hm
          exact ih b hb hvb
    | _ => rintro ⟨⟩

/-- A null that is there has null for its output, and nothing else has. -/
theorem isNull_iff_eq_null (hv : v.Everywhere MergesSome) (hi : input ≠ .absent)
    (h : v.validate input raw = .ok out) : input.isNull = true ↔ out = .null := by
  have hkept := presence_of_validate hv hi h
  rw [← Field.presence_eq_null_iff, ← hkept, Field.presence_eq_null_iff]
  constructor
  · intro hnull
    cases out with
    | null => rfl
    | value x =>
        cases x with
        | null => exact absurd rfl (ne_wrapped_null h)
        | _ => cases hnull
    | _ => cases hnull
  · rintro rfl
    rfl

/-! ## Contents -/

/-- The output for an array is an array with as many items. -/
theorem exists_array_of_validate (hv : v.Everywhere MergesSome) {xs : List Json}
    (h : v.validate (.value (.array xs)) raw = .ok out) :
    ∃ ys, out = .value (.array ys) ∧ ys.length = xs.length := by
  induction v using induct generalizing out with
  | node v ih =>
    have haccepted := accepted_of_validate h
    cases haccepted with
    | absent habsent => cases habsent
    | null hnull _ => cases hnull
    | integer hread _ => cases hread
    | number hread _ => cases hread
    | payload hp _ => cases hp
    | string hs _ => cases hs
    | boolean hread => cases hread
    | array hread hys _ =>
        cases hread
        exact ⟨_, rfl, (ArrayRule.collect_eq_ok_iff.mp hys).length_eq.symm⟩
    | object hms _ _ _ => cases hms
    | oneOf hb _ hvb => exact ih _ hb.mem (hv.child hb.mem) hvb
    | anyOf hb _ hvb => exact ih _ hb.mem (hv.child hb.mem) hvb
    | @allOf c branches _ fs _ hfs =>
        have hbranch : ∀ f ∈ fs, ∃ ys, f = .value (.array ys) ∧ ys.length = xs.length := by
          intro f hf
          obtain ⟨b, hb, hvb⟩ := exists_branch_of_mem hfs hf
          exact ih b hb (hv.child hb) hvb
        have hne := outputs_ne_nil hv.here hfs
        -- no output is an object, so the last one counts
        have hlast : Combinator.merge fs = fs.getLast hne := by
          refine Combinator.merge_others hne ?_ ?_
          · intro f hf
            obtain ⟨ys, rfl, -⟩ := hbranch f hf
            rintro ⟨⟩
          · rintro f hf ⟨ms, hms⟩
            obtain ⟨ys, rfl, -⟩ := hbranch f hf
            cases hms
        rw [hlast]
        exact hbranch _ (List.getLast_mem hne)

/-- The output for an object is an object that has every name of the input. -/
theorem exists_object_of_validate (hv : v.Everywhere MergesSome) {ms : Entries Json}
    (h : v.validate (.value (.object ms)) raw = .ok out) :
    ∃ os, out = .value (.object os) ∧ ∀ k ∈ Entries.keys ms, k ∈ Entries.keys os := by
  induction v using induct generalizing out with
  | node v ih =>
    have haccepted := accepted_of_validate h
    cases haccepted with
    | absent habsent => cases habsent
    | null hnull _ => cases hnull
    | integer hread _ => cases hread
    | number hread _ => cases hread
    | payload hp _ => cases hp
    | string hs _ => cases hs
    | boolean hread => cases hread
    | array hread _ _ => cases hread
    | object hms _ hok _ =>
        cases hms
        exact ⟨_, rfl, fun k hk => mem_keys_outputs_of_given hv hok hk⟩
    | oneOf hb _ hvb => exact ih _ hb.mem (hv.child hb.mem) hvb
    | anyOf hb _ hvb => exact ih _ hb.mem (hv.child hb.mem) hvb
    | @allOf c branches _ fs _ hfs =>
        have hbranch : ∀ f ∈ fs, ∃ os, f = .value (.object os) ∧
            ∀ k ∈ Entries.keys ms, k ∈ Entries.keys os := by
          intro f hf
          obtain ⟨b, hb, hvb⟩ := exists_branch_of_mem hfs hf
          exact ih b hb (hv.child hb) hvb
        obtain ⟨mss, rfl⟩ := Combinator.exists_members_of_isObject fun f hf => by
          obtain ⟨os, hos, -⟩ := hbranch f hf
          exact ⟨os, hos⟩
        have hne : mss ≠ [] := by simpa using outputs_ne_nil hv.here hfs
        rw [Combinator.merge_objects hne]
        refine ⟨_, rfl, fun k hk => ?_⟩
        -- any branch will do, since each keeps the name
        obtain ⟨os, hos⟩ := List.exists_mem_of_ne_nil mss hne
        obtain ⟨_, heq, hkeys⟩ := hbranch _ (List.mem_map_of_mem hos)
        cases heq
        exact Combinator.mem_keys_merged hos (hkeys k hk)

/-- Each item of an accepted list stands for the output of an item that was read: no place is
filled with null for want of an output. -/
theorem items_of_validate {rule : ArrayRule} {items : Validator}
    (hv : (array rule items).Everywhere MergesSome) {xs : List Json}
    (hread : ArrayRule.read (rule.common.substitute input) raw = some xs)
    (h : (array rule items).validate input raw = .ok out) :
    ∃ ys, out = .value (.array ys) ∧
      List.Forall₂ (fun x y => ∃ f, items.validate (.ofJson x) raw = .ok f ∧ f.toJson? = some y)
        xs ys := by
  have hother := ArrayRule.presence_of_read hread
  have haccepted := accepted_of_validate h
  cases haccepted with
  | absent habsent =>
      have habsent' := Field.presence_eq_absent_iff.mpr habsent
      cases hother.symm.trans habsent'
  | null hnull _ =>
      have hnull' := Field.presence_eq_null_iff.mpr hnull
      cases hother.symm.trans hnull'
  | array hread' hys _ =>
      rw [hread] at hread'
      cases hread'
      refine ⟨_, rfl, (ArrayRule.collect_eq_ok_iff.mp hys).imp ?_⟩
      rintro x y ⟨f, hf, hy⟩
      have hthere : f ≠ .absent :=
        ne_absent_of_validate (hv.child List.mem_cons_self) (Field.ofJson_ne_absent x) hf
      obtain ⟨z, hz⟩ := Field.exists_toJson? hthere
      rw [hz] at hy
      exact ⟨f, hf, hy ▸ hz⟩

/-- The outputs that an `allOf` node merges are objects, or none of them is. -/
theorem all_or_none_isObject {c : Common} {branches : List Validator}
    (hv : (allOf c branches).Everywhere MergesSome) (hi : input ≠ .absent) {fs : List Field}
    (h : (branches.map fun b => b.validate input raw) = fs.map .ok) :
    (∀ f ∈ fs, f.IsObject) ∨ (∀ f ∈ fs, ¬ f.IsObject) := by
  have hbranch : ∀ f ∈ fs, f.IsObject ↔ input.IsObject := by
    intro f hf
    obtain ⟨b, hb, hvb⟩ := exists_branch_of_mem h hf
    rw [← Field.presence_eq_object_iff, ← Field.presence_eq_object_iff,
      presence_of_validate (hv.child hb) hi hvb]
  by_cases hobject : input.IsObject
  · left
    intro f hf
    exact (hbranch f hf).mpr hobject
  · right
    intro f hf hf'
    exact hobject ((hbranch f hf).mp hf')

/-! ## Absent inputs -/

/-- A node sees of its input only what is left once its default has stood in. -/
theorem validate_congr_substitute {input' : Field}
    (h : v.common.substitute input = v.common.substitute input') :
    v.validate input raw = v.validate input' raw := by
  rcases v.validate_withCommon raw with ⟨type, examine, hsettled⟩ | ⟨examine, hsettled⟩
  · have hv := hsettled v.common
    rw [withCommon_common] at hv
    rw [hv, hv]
    simp only [Common.settled, Common.settle, h]
  · have hv := hsettled v.common
    rw [withCommon_common] at hv
    rw [hv, hv]
    simp only [Combinator.settled, Combinator.settle, h]

/-- An absent input is answered as the default is. -/
theorem validate_absent_eq {d : Json} (hd : v.common.default? = some d) :
    v.validate .absent raw = v.validate (.ofJson d) raw := by
  apply validate_congr_substitute
  rw [Common.substitute_of_ne_absent (Field.ofJson_ne_absent d), Common.substitute, hd]
  rfl

/-- Where there is no default, nothing becomes of nothing. -/
theorem validate_absent_eq_absent (hd : v.common.default? = none) :
    v.validate .absent raw = .ok .absent := by
  have hstays : v.common.substitute .absent = .absent :=
    Common.substitute_of_default_eq_none hd .absent
  rcases v.validate_withCommon raw with ⟨type, examine, hsettled⟩ | ⟨examine, hsettled⟩
  · have hv := hsettled v.common .absent
    rw [withCommon_common] at hv
    rw [hv]
    exact Common.settled_eq_ok_iff.mpr (.inl ⟨hstays, rfl⟩)
  · have hv := hsettled v.common .absent
    rw [withCommon_common] at hv
    rw [hv]
    exact Combinator.settled_eq_ok_iff.mpr (.inl ⟨hstays, rfl⟩)

/-- A payload in the output is one that was handed in: a default is none. -/
theorem eq_binary_of_validate (hv : v.Everywhere MergesSome) {payload : Utf8.Octets}
    (h : v.validate input raw = .ok (.binary payload)) : input = .binary payload := by
  by_cases hi : input = .absent
  · subst hi
    cases hd : v.common.default? with
    | none =>
        rw [validate_absent_eq_absent hd] at h
        cases h
    | some d =>
        rw [validate_absent_eq hd] at h
        have hkept := presence_of_validate hv (Field.ofJson_ne_absent d) h
        have hbinary := Field.presence_eq_payload_iff.mp hkept.symm
        exact absurd hbinary (Field.ofJson_ne_binary d payload)
  · exact Field.presence_eq_payload_iff.mp (presence_of_validate hv hi h).symm

/-! ## Nodes -/

/-- What a node does to the presence and the kind of its inputs. -/
structure KeepsPresence (raw : Bool) (v : Validator) : Prop where
  byDefault : ∀ d ∈ v.common.default?, v.validate .absent raw = v.validate (.ofJson d) raw
  withoutDefault : v.common.default? = none → v.validate .absent raw = .ok .absent
  there : ∀ input out, input ≠ .absent → v.validate input raw = .ok out → out ≠ .absent
  /-- Null in either spelling, and nothing else, is answered with null. -/
  null : ∀ input out, input ≠ .absent → v.validate input raw = .ok out →
    (input.isNull = true ↔ out = .null)
  unwrapped : ∀ input out, v.validate input raw = .ok out → out ≠ .value .null
  payload : ∀ payload out, v.validate (.binary payload) raw = .ok out → out = .binary payload
  payloadOnly : ∀ input payload, v.validate input raw = .ok (.binary payload) →
    input = .binary payload
  object : ∀ input out, input ≠ .absent → v.validate input raw = .ok out →
    (input.IsObject ↔ out.IsObject)
  length : ∀ xs out, v.validate (.value (.array xs)) raw = .ok out →
    ∃ ys, out = .value (.array ys) ∧ ys.length = xs.length
  /-- Every item that an array reads has an output of its own, in its place. -/
  items : ∀ rule items, v = array rule items → ∀ input out xs,
    ArrayRule.read (rule.common.substitute input) raw = some xs →
    v.validate input raw = .ok out → ∃ ys, out = .value (.array ys) ∧
      List.Forall₂ (fun x y => ∃ f, items.validate (.ofJson x) raw = .ok f ∧ f.toJson? = some y)
        xs ys
  names : ∀ ms out, v.validate (.value (.object ms)) raw = .ok out →
    ∃ os, out = .value (.object os) ∧ ∀ k ∈ Entries.keys ms, k ∈ Entries.keys os
  /-- The outputs that are merged are of one kind. -/
  merged : ∀ c branches, v = allOf c branches → ∀ input (fs : List Field), input ≠ .absent →
    (branches.map fun b => b.validate input raw) = fs.map .ok →
    (∀ f ∈ fs, f.IsObject) ∨ (∀ f ∈ fs, ¬ f.IsObject)

/-- In a tree whose combinators have branches, every node keeps presence and kind. -/
theorem keepsPresence_of_mergesSome (hv : v.Everywhere MergesSome) (raw : Bool) :
    KeepsPresence raw v where
  byDefault _ hd := validate_absent_eq hd
  withoutDefault hd := validate_absent_eq_absent hd
  there _ _ hi h := ne_absent_of_validate hv hi h
  null _ _ hi h := isNull_iff_eq_null hv hi h
  unwrapped _ _ h := ne_wrapped_null h
  payload payload out h := by
    have hkept := presence_of_validate hv (by rintro ⟨⟩) h
    exact Field.presence_eq_payload_iff.mp hkept
  payloadOnly _ _ h := eq_binary_of_validate hv h
  object input out hi h := by
    rw [← Field.presence_eq_object_iff, ← Field.presence_eq_object_iff,
      presence_of_validate hv hi h]
  length _ _ h := exists_array_of_validate hv h
  items _ _ heq input out xs hread h := by
    subst heq
    exact items_of_validate hv hread h
  names _ _ h := exists_object_of_validate hv h
  merged _ _ heq input fs hi h := by
    subst heq
    exact all_or_none_isObject hv hi h

/-! ## A profile -/

/-- A profile has tags, of which some may be empty, and a level that need not be given. -/
def profile : Validator :=
  .allOf {} [
    .object {} [("tags", .array {} (.string { common := { nullable := true } }))] .allow,
    .object {} [("level", .anyOf { default? := some (.string "low") }
      [.integer {}, .string {}] none)] .allow]

/-- A profile without a level, and with a member that neither branch declares. -/
def profileSent : Field :=
  .value (.object [("tags", .array [.string "a", .null]), ("note", .string "b")])

/-- The same profile with its level. -/
def profileRead : Field :=
  .value (.object [("tags", .array [.string "a", .null]), ("note", .string "b"),
    ("level", .string "low")])

/-- The profile is accepted, and no key of it is lost. -/
theorem profileRead_keepsPresence :
    profile.validate profileSent false = .ok profileRead ∧ KeepsPresence false profile ∧
      ∃ members, profileRead = .value (.object members) ∧
        ∀ k ∈ ["tags", "note"], k ∈ Entries.keys members := by
  have haccepted : profile.validate profileSent false = .ok profileRead := by cbv
  have hmerges : profile.Everywhere MergesSome := by
    refine .node (List.cons_ne_nil _ _) fun b hb => ?_
    rcases List.mem_cons.mp hb with rfl | hb
    · refine .node trivial fun c hc => ?_
      rw [List.mem_singleton.mp hc]
      refine .node trivial fun c hc => ?_
      rw [List.mem_singleton.mp hc]
      exact .leaf trivial rfl
    · rw [List.mem_singleton.mp hb]
      refine .node trivial fun c hc => ?_
      rw [List.mem_singleton.mp hc]
      refine .node trivial fun c hc => ?_
      rcases List.mem_cons.mp hc with rfl | hc
      · exact .leaf trivial rfl
      · rw [List.mem_singleton.mp hc]
        exact .leaf trivial rfl
  have hkeeps : KeepsPresence false profile := keepsPresence_of_mergesSome hmerges false
  exact ⟨haccepted, hkeeps, hkeeps.names _ _ haccepted⟩

end Validator

end SchemaGate
