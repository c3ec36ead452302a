import SchemaGate.Proofs.Schema.Accepted
import SchemaGate.Proofs.Schema.Members

/-!
# The shape of outputs

What holds of every output of validation, whatever the tree demands:

* `Validator.isPlain_of_validate`: null is never wrapped, so that an output that is put into an
  array or an object and taken out again is the output that it was;
* `Validator.ne_absent_of_validate`: what was given is not lost;
* `Validator.wellFormed_of_validate`: no object of an output repeats a key.
-/

namespace SchemaGate

namespace Field

/-- The field is what its value reads as: null is not wrapped, and it is no binary payload. -/
def IsPlain (f : Field) : Prop := Field.ofOption f.toJson? = f

theorem IsPlain.ofJson_eq {f : Field} (h : f.IsPlain) {x : Json} (hx : f.toJson? = some x) :
    ofJson x = f := by
  rw [← h, hx]
  rfl

/-- What is not absent stands for a value. -/
theorem exists_toJson? {f : Field} (h : f ≠ .absent) : ∃ x, f.toJson? = some x :=
  Option.ne_none_iff_exists'.mp fun hn => h ((toJson?_eq_none_iff f).mp hn)

/-- A value that is wrapped is the value itself. -/
theorem eq_of_ofJson {x y : Json} (h : ofJson y = .value x) : y = x := by
  cases y with
  | null => cases h
  | _ => exact value.inj h

theorem ofJson_ne_absent (x : Json) : ofJson x ≠ .absent := by
  cases x <;> exact fun h => by cases h

theorem ofJson_ne_binary (x : Json) (payload : Utf8.Octets) : ofJson x ≠ .binary payload := by
  cases x <;> exact fun h => by cases h

theorem ofOption_ne_binary (x : Option Json) (payload : Utf8.Octets) :
    ofOption x ≠ .binary payload := by
  cases x with
  | none => exact fun h => by cases h
  | some x => exact ofJson_ne_binary x payload

theorem wellFormed_ofOption {x : Option Json} (h : ∀ v ∈ x, v.WellFormed) :
    (ofOption x).WellFormed := by
  cases x with
  | none => trivial
  | some v => exact wellFormed_ofJson (h v rfl)

theorem WellFormed.toJson? {f : Field} (h : f.WellFormed) : ∀ x ∈ f.toJson?, x.WellFormed := by
  cases f with
  | absent => exact fun x hx => by cases hx
  | null =>
      rintro x ⟨⟩
      trivial
  | value v =>
      rintro x ⟨⟩
      exact h
  | binary payload =>
      rintro x ⟨⟩
      trivial

end Field

namespace Common

theorem substitute_ne_binary {c : Common} {input : Field} (h : ∀ p, input ≠ .binary p) :
    ∀ p, c.substitute input ≠ .binary p := by
  cases input with
  | absent => exact Field.ofOption_ne_binary c.default?
  | _ => exact h

theorem substitute_wellFormed {c : Common} {input : Field} (hc : ∀ d ∈ c.default?, d.WellFormed)
    (h : input.WellFormed) : (c.substitute input).WellFormed := by
  cases input with
  | absent => exact Field.wellFormed_ofOption hc
  | _ => exact h

theorem substitute_of_ne_absent {c : Common} {input : Field} (h : input ≠ .absent) :
    c.substitute input = input := by
  cases input with
  | absent => exact absurd rfl h
  | _ => rfl

end Common

namespace ArrayRule

/-- The items of an array have distinct keys as the array does, and the parts of a text have none.
-/
theorem wellFormed_of_read {f : Field} {raw : Bool} {xs : List Json} (hf : f.WellFormed)
    (h : read f raw = some xs) : ∀ x ∈ xs, x.WellFormed := by
  unfold read at h
  split at h
  · cases h
    exact Json.wellFormed_array.mp hf
  · split at h
    · cases h
      intro x hx
      unfold splitRaw at hx
      split at hx
      · exact absurd hx List.not_mem_nil
      · obtain ⟨part, -, rfl⟩ := List.mem_map.mp hx
        trivial
    · cases h
  · cases h

theorem exists_item_of_collect {item : Json → Outcome} {index : Nat} {xs ys : List Json}
    (h : collect item index xs = .ok ys) :
    ∀ y ∈ ys, ∃ x ∈ xs, ∃ f, item x = .ok f ∧ f.toJson?.getD .null = y := by
  have hitems := collect_eq_ok_iff.mp h
  clear h
  induction hitems with
  | nil => exact fun y hy => absurd hy List.not_mem_nil
  | cons hx _ ih =>
      refine List.forall_mem_cons.mpr ⟨⟨_, List.mem_cons_self, hx⟩, fun y hy => ?_⟩
      obtain ⟨x, hxs, hxy⟩ := ih y hy
      exact ⟨x, List.mem_cons_of_mem _ hxs, hxy⟩

end ArrayRule

namespace Combinator

theorem nodup_merged (mss : List (Entries Json)) :
    (Entries.keys (mss.foldl (fun acc m => Entries.putAll m acc) [])).Nodup := by
  have hstep : ∀ acc : Entries Json, (Entries.keys acc).Nodup →
      (Entries.keys (mss.foldl (fun acc m => Entries.putAll m acc) acc)).Nodup := by
    induction mss with
    | nil => exact fun acc h => h
    | cons ms rest ih => exact fun acc h => ih _ (Entries.nodup_putAll h ms)
  exact hstep [] List.nodup_nil

/-- An entry of a merged object comes from one of the objects. -/
theorem mem_merged {mss : List (Entries Json)} {e : String × Json}
    (h : e ∈ mss.foldl (fun acc m => Entries.putAll m acc) []) : ∃ ms ∈ mss, e ∈ ms := by
  have hstep : ∀ acc : Entries Json, e ∈ mss.foldl (fun acc m => Entries.putAll m acc) acc →
      e ∈ acc ∨ ∃ ms ∈ mss, e ∈ ms := by
    clear h
    induction mss with
    | nil => exact fun acc h => .inl h
    | cons ms rest ih =>
        intro acc h
        rcases ih _ h with hput | ⟨ns, hns, he⟩
        · rcases Entries.mem_of_mem_putAll hput with hnew | hold
          · exact .inr ⟨ms, List.mem_cons_self, hnew⟩
          · exact .inl hold
        · exact .inr ⟨ns, List.mem_cons_of_mem ms hns, he⟩
  rcases hstep [] h with hnil | hfound
  · exact absurd hnil List.not_mem_nil
  · exact hfound

end Combinator

namespace Validator

/-- Each of the outputs of all branches is the output of some branch. -/
theorem exists_branch_of_mem {branches : List Validator} {input f : Field} {raw : Bool}
    {fs : List Field} (h : (branches.map fun v => v.validate input raw) = fs.map .ok)
    (hf : f ∈ fs) : ∃ b ∈ branches, b.validate input raw = .ok f := by
  have hok : Except.ok f ∈ branches.map fun v => v.validate input raw :=
    h ▸ List.mem_map_of_mem hf
  exact List.mem_map.mp hok

/-! ## Null is not wrapped -/

/-- An input that is no binary payload leads to no binary payload, and null stays plain. -/
theorem isPlain_of_validate {v : Validator} {input out : Field} {raw : Bool}
    (hi : ∀ payload, input ≠ .binary payload) (h : v.validate input raw = .ok out) :
    out.IsPlain := by
  induction v using induct generalizing input out with
  | node v ih =>
    have haccepted := accepted_of_validate h
    cases haccepted with
    | payload hp _ => exact absurd hp (Common.substitute_ne_binary hi _)
    | oneOf hb _ hvb => exact ih _ hb.mem (Common.substitute_ne_binary hi) hvb
    | anyOf hb _ hvb => exact ih _ hb.mem (Common.substitute_ne_binary hi) hvb
    | @allOf c branches _ fs _ hfs =>
        rcases Combinator.merge_cases fs with ⟨-, hm⟩ | ⟨mss, -, hm⟩ | ⟨hm, -⟩
        · exact hm ▸ rfl
        · exact hm ▸ rfl
        · obtain ⟨b, hb, hvb⟩ := exists_branch_of_mem hfs hm
          exact ih b hb (Common.substitute_ne_binary hi) hvb
    | _ => rfl

/-! ## What was given is not lost -/

/-- An `allOf` node has a branch to take an output from. -/
def MergesSome : Validator → Prop
  | allOf _ branches => branches ≠ []
  | _ => True

theorem MergesSome.of_not_isAllOf {v : Validator} (h : ¬ v.IsAllOf) : v.MergesSome := by
  cases v with
  | allOf common branches => exact absurd trivial h
  | _ => trivial

theorem MergesSome.of_isTyped {v : Validator} (h : v.IsTyped) : v.MergesSome := by
  cases v with
  | allOf common branches => exact absurd h id
  | _ => trivial

/-- An input that is not absent has an output that is not absent. -/
theorem ne_absent_of_validate {v : Validator} (hv : v.Everywhere MergesSome) {input out : Field}
    {raw : Bool} (hi : input ≠ .absent) (h : v.validate input raw = .ok out) :
    out ≠ .absent := by
  induction v using induct generalizing input out with
  | node v ih =>
    have haccepted := accepted_of_validate h
    cases haccepted with
    | absent habsent =>
        rw [Common.substitute_of_ne_absent hi] at habsent
        exact absurd habsent hi
    | oneOf hb hne hvb => exact ih _ hb.mem (hv.child hb.mem) hne hvb
    | anyOf hb hne hvb => exact ih _ hb.mem (hv.child hb.mem) hne hvb
    | @allOf c branches _ fs hne hfs =>
        have hgiven : ∀ f ∈ fs, f ≠ .absent := by
          intro f hf
          obtain ⟨b, hb, hvb⟩ := exists_branch_of_mem hfs hf
          exact ih b hb (hv.child hb) hne hvb
        rcases Combinator.merge_cases fs with ⟨hall, -⟩ | ⟨mss, -, hm⟩ | ⟨-, hm⟩
        · -- there is a branch, and its output would have to be absent
          obtain ⟨b, hb⟩ := List.exists_mem_of_ne_nil branches hv.here
          have hmap : b.validate (c.substitute input) raw ∈ fs.map .ok :=
            hfs ▸ List.mem_map_of_mem (f := fun v => v.validate (c.substitute input) raw) hb
          obtain ⟨f, hf, -⟩ := List.mem_map.mp hmap
          exact absurd (hall f hf) (hgiven f hf)
        · rw [hm]
          rintro ⟨⟩
        · exact hm
    | _ => rintro ⟨⟩

/-! ## Members of an output -/

section Members

variable {properties : Entries Validator} {additional : Additional Validator}
  {members : Entries Json} {raw : Bool} {k : String}

/-- A declared property that was given has a value in the output, if its outcome is one. -/
theorem exists_output_of_declared {d : Validator} (hd : d.Everywhere MergesSome) {f : Field}
    (hk : k ∈ Entries.keys members)
    (h : declaredOutcome d (Entries.get? k members) raw = .ok f) : ∃ x, f.toJson? = some x := by
  obtain ⟨y, hy⟩ := Entries.exists_get?_of_mem_keys hk
  rw [hy] at h
  rcases declaredOutcome_eq_ok_iff.mp h with ⟨-, hnone, -⟩ | ⟨-, hval⟩
  · cases hnone
  · exact Field.exists_toJson? (ne_absent_of_validate hd (Field.ofJson_ne_absent y) hval)

theorem exists_output_of_additional (hs : ∀ s, additional = .schema s → s.Everywhere MergesSome)
    {y : Json} {f : Field} (h : validateAdditional additional y raw = .ok f) :
    ∃ x, f.toJson? = some x := by
  rcases validateAdditional_eq_ok_iff.mp h with ⟨-, rfl⟩ | ⟨s, hadditional, hval⟩
  · exact ⟨y, rfl⟩
  · exact Field.exists_toJson?
      (ne_absent_of_validate (hs s hadditional) (Field.ofJson_ne_absent y) hval)

variable {rule : ObjectRule}

/-- Every name that was given is a name of the output. -/
theorem mem_keys_outputs_of_given
    (hv : (object rule properties additional).Everywhere MergesSome)
    (hok : ∀ e ∈ memberOutcomes properties additional members raw, ∃ f, e.2 = .ok f)
    (hk : k ∈ Entries.keys members) :
    k ∈ Entries.keys (ObjectRule.outputs (memberOutcomes properties additional members raw)) := by
  by_cases hp : k ∈ Entries.keys properties
  · obtain ⟨d, hd⟩ := Entries.exists_of_mem_keys hp
    have he : (k, declaredOutcome d (Entries.get? k members) raw) ∈
        memberOutcomes properties additional members raw :=
      mem_memberOutcomes.mpr (.inl ⟨_, hd, rfl⟩)
    obtain ⟨f, hf : declaredOutcome d (Entries.get? k members) raw = .ok f⟩ := hok _ he
    obtain ⟨x, hx⟩ := exists_output_of_declared (hv.child (mem_children_of_property hd)) hk hf
    exact Entries.mem_keys_of_mem (ObjectRule.mem_outputs.mpr ⟨f, hf ▸ he, hx⟩)
  · obtain ⟨y, hy⟩ := Entries.exists_of_mem_keys hk
    have he : (k, validateAdditional additional y raw) ∈
        memberOutcomes properties additional members raw :=
      mem_memberOutcomes.mpr (.inr ⟨_, (ObjectRule.mem_leftovers_iff hp).mpr hy, rfl⟩)
    obtain ⟨f, hf : validateAdditional additional y raw = .ok f⟩ := hok _ he
    have hs : ∀ s, additional = .schema s → s.Everywhere MergesSome := by
      rintro s rfl
      exact hv.child List.mem_cons_self
    obtain ⟨x, hx⟩ := exists_output_of_additional hs hf
    exact Entries.mem_keys_of_mem (ObjectRule.mem_outputs.mpr ⟨f, hf ▸ he, hx⟩)

/-- What the output has under a name comes from a property that declares the name, or from a
member of that name if there is no such property. -/
theorem source_of_output (hv : (object rule properties additional).Everywhere MergesSome)
    (hok : ∀ e ∈ memberOutcomes properties additional members raw, ∃ f, e.2 = .ok f) {x : Json}
    (hx : Entries.get? k
      (ObjectRule.outputs (memberOutcomes properties additional members raw)) = some x) :
    (∃ d f, (k, d) ∈ properties ∧ declaredOutcome d (Entries.get? k members) raw = .ok f ∧
      f.toJson? = some x) ∨
    (k ∉ Entries.keys properties ∧ ∃ y f, (k, y) ∈ members ∧
      validateAdditional additional y raw = .ok f ∧ f.toJson? = some x) := by
  by_cases hp : k ∈ Entries.keys properties
  · refine .inl ?_
    rw [memberOutcomes, ObjectRule.outputs_append, Entries.get?_append] at hx
    rcases Option.or_eq_some_iff.mp hx with hleft | ⟨hnone, hright⟩
    · obtain ⟨f, he, hfx⟩ := ObjectRule.mem_outputs.mp (Entries.mem_of_get? hleft)
      obtain ⟨⟨name, d⟩, hd, heq⟩ := List.mem_map.mp he
      obtain ⟨rfl, hval⟩ := Prod.mk.inj heq
      exact ⟨d, f, hd, hval, hfx⟩
    · -- a member of a declared name cannot be what is found: the property goes before it
      obtain ⟨g, hg, -⟩ := ObjectRule.mem_outputs.mp (Entries.mem_of_get? hright)
      obtain ⟨⟨name, y⟩, hy, heq⟩ := List.mem_map.mp hg
      obtain ⟨rfl, -⟩ := Prod.mk.inj heq
      have hk := Entries.mem_keys_of_mem (ObjectRule.mem_of_mem_leftovers hy)
      obtain ⟨d, hd⟩ := Entries.exists_of_mem_keys hp
      have he := List.mem_map_of_mem
        (f := fun p => (p.1, declaredOutcome p.2 (Entries.get? p.1 members) raw)) hd
      obtain ⟨f, hf : declaredOutcome d (Entries.get? name members) raw = .ok f⟩ :=
        hok _ (List.mem_append_left _ he)
      obtain ⟨z, hz⟩ := exists_output_of_declared (hv.child (mem_children_of_property hd)) hk hf
      have hfound := Entries.mem_keys_of_mem (ObjectRule.mem_outputs.mpr ⟨f, hf ▸ he, hz⟩)
      exact absurd hfound (Entries.get?_eq_none_iff.mp hnone)
  · refine .inr ⟨hp, ?_⟩
    obtain ⟨f, he, hfx⟩ := ObjectRule.mem_outputs.mp (Entries.mem_of_get? hx)
    rcases mem_memberOutcomes.mp he with ⟨⟨name, d⟩, hd, heq⟩ | ⟨⟨name, y⟩, hy, heq⟩
    · obtain ⟨rfl, -⟩ := Prod.mk.inj heq
      exact absurd (Entries.mem_keys_of_mem hd) hp
    · obtain ⟨rfl, hval⟩ := Prod.mk.inj heq
      exact ⟨y, f, ObjectRule.mem_of_mem_leftovers hy, hval, hfx⟩

end Members

/-! ## No key repeats -/

/-- In a sound tree, an input without repeated keys has an output without repeated keys. -/
theorem wellFormed_of_validate {v : Validator} (hv : v.Everywhere Sound) {input out : Field}
    {raw : Bool} (hi : input.WellFormed) (h : v.validate input raw = .ok out) :
    out.WellFormed := by
  induction v using induct generalizing input out with
  | node v ih =>
    have hin : (v.common.substitute input).WellFormed :=
      Common.substitute_wellFormed hv.here.default hi
    have haccepted := accepted_of_validate h
    cases haccepted with
    | array hread hys _ =>
        refine Json.wellFormed_array.mpr fun y hy => ?_
        obtain ⟨x, hx, f, hf, rfl⟩ := ArrayRule.exists_item_of_collect hys y hy
        have hwf := ih _ List.mem_cons_self (hv.child List.mem_cons_self)
          (Field.wellFormed_ofJson (ArrayRule.wellFormed_of_read hin hread x hx)) hf
        -- an item without a value is written as null
        cases hj : f.toJson? with
        | none => trivial
        | some z => exact hwf.toJson? z hj
    | @object rule properties additional _ ms hms _ hok _ =>
        have hms' : (Field.value (.object ms)).WellFormed := hms ▸ hin
        obtain ⟨hd, hmembers⟩ := Json.wellFormed_object.mp hms'
        refine Json.wellFormed_object.mpr
          ⟨ObjectRule.nodup_outputs (nodup_memberOutcomes hv.here.names hd), ?_⟩
        rintro ⟨k, x⟩ hx
        obtain ⟨f, hf, hfx⟩ := ObjectRule.mem_outputs.mp hx
        refine Field.WellFormed.toJson? ?_ x hfx
        rcases mem_memberOutcomes.mp hf with ⟨⟨name, d⟩, hd, heq⟩ | ⟨⟨name, y⟩, hy, heq⟩
        · obtain ⟨-, hok⟩ := Prod.mk.inj heq
          rcases declaredOutcome_eq_ok_iff.mp hok with ⟨-, -, rfl⟩ | ⟨-, hval⟩
          · trivial
          · have hc : d ∈ (object rule properties additional).children :=
              mem_children_of_property hd
            refine ih d hc (hv.child hc) (Field.wellFormed_ofOption ?_) hval
            intro z hz
            exact hmembers _ (Entries.mem_of_get? hz)
        · obtain ⟨-, hok⟩ := Prod.mk.inj heq
          have hwf := hmembers _ (ObjectRule.mem_of_mem_leftovers hy)
          rcases validateAdditional_eq_ok_iff.mp hok with ⟨-, rfl⟩ | ⟨s, rfl, hval⟩
          · exact hwf
          · exact ih s List.mem_cons_self (hv.child List.mem_cons_self)
              (Field.wellFormed_ofJson hwf) hval
    | oneOf hb _ hvb => exact ih _ hb.mem (hv.child hb.mem) hin hvb
    | anyOf hb _ hvb => exact ih _ hb.mem (hv.child hb.mem) hin hvb
    | @allOf c branches _ fs _ hfs =>
        have hwf : ∀ f ∈ fs, f.WellFormed := by
          intro f hf
          obtain ⟨b, hb, hvb⟩ := exists_branch_of_mem hfs hf
          exact ih b hb (hv.child hb) hin hvb
        rcases Combinator.merge_cases fs with ⟨-, hm⟩ | ⟨mss, hmss, hm⟩ | ⟨hm, -⟩
        · rw [hm]
          trivial
        · rw [hm]
          refine Json.wellFormed_object.mpr ⟨Combinator.nodup_merged mss, fun e he => ?_⟩
          obtain ⟨ms, hms, hems⟩ := Combinator.mem_merged he
          exact (Json.wellFormed_object.mp (hwf _ (hmss ms hms))).2 e hems
        · exact hwf _ hm
    | _ => trivial

end Validator

end SchemaGate
