import Mathlib
import SchemaGate.Proofs.Json.Reordering
import SchemaGate.Proofs.Schema.Output

/-!
# The order of keys does not matter

Two inputs that differ only in the order of members have the same failure, with the same error
tree, or outputs that again differ only so (`Validator.validate_reorders`). Within an output the
order of members does depend on the input, since the members that no property declares follow in
the order that taking the declared ones away leaves.

Keys are distinct throughout, those of the input as well as those of defaults and the names of
declared properties.

`AgreeUpTo` is the relation between two runs. There is one lemma for each way of answering:
`Common.settled_reorders` and `Combinator.settled_reorders` for what is not examined at all,
`Common.settled_reorders_of_scalar` for scalars, `ArrayRule.examine_reorders`,
`ObjectRule.conclude_reorders` and `Validator.examineObject_reorders` for containers, and
`Combinator.merge_reorders` for outputs that are merged.
-/

namespace SchemaGate

/-! ## Two runs -/

/-- The same failure in both runs, or results that are related. -/
inductive AgreeUpTo {ε α β : Type} (R : α → β → Prop) : Except ε α → Except ε β → Prop
  | error (e : ε) : AgreeUpTo R (.error e) (.error e)
  | ok {a : α} {b : β} : R a b → AgreeUpTo R (.ok a) (.ok b)

theorem AgreeUpTo.refl {ε α : Type} {R : α → α → Prop} (hR : ∀ a, R a a) (r : Except ε α) :
    AgreeUpTo R r r := by
  cases r with
  | error e => exact .error e
  | ok a => exact .ok (hR a)

/-- The same failure, or outputs that differ only in the order of members. -/
abbrev Outcome.Reorders (r r' : Outcome) : Prop := AgreeUpTo Field.Reorders r r'

theorem Outcome.reorders_refl (r : Outcome) : Outcome.Reorders r r :=
  AgreeUpTo.refl Field.Reorders.refl r

theorem Outcome.Reorders.json? {r r' : Outcome} (h : Outcome.Reorders r r') :
    Option.Rel Json.Reorders (Outcome.json? r) (Outcome.json? r') := by
  cases h with
  | error e => exact .none
  | ok hfg => exact hfg.toJson?

theorem Outcome.Reorders.error?_eq {r r' : Outcome} (h : Outcome.Reorders r r') :
    Outcome.error? r = Outcome.error? r' := by
  cases h <;> rfl

theorem checked_reorders (cs : List (Bool × ErrorTree)) {f g : Field} (h : f.Reorders g) :
    Outcome.Reorders (checked cs f) (checked cs g) := by
  rw [checked, checked]
  cases checkAll cs with
  | error e => exact .error e
  | ok _ => exact .ok h

/-! ## Settling -/

theorem Common.substitute_reorders (c : Common) {input input' : Field}
    (h : input.Reorders input') : (c.substitute input).Reorders (c.substitute input') := by
  cases h with
  | absent => exact Field.Reorders.refl _
  | null => exact .null
  | value hxy => exact .value hxy
  | binary payload => exact .binary payload

theorem Common.settled_reorders {c : Common} {type : String} {examine : Field → Outcome}
    {input input' : Field} (h : input.Reorders input')
    (hex : Outcome.Reorders (examine (c.substitute input)) (examine (c.substitute input'))) :
    Outcome.Reorders (c.settled type examine input) (c.settled type examine input') := by
  have hs := c.substitute_reorders h
  simp only [settled, settle, ← hs.isAbsent_eq, ← hs.isNull_eq]
  cases (c.substitute input).isAbsent with
  | true => exact .ok .absent
  | false =>
      cases (c.substitute input).isNull with
      | true =>
          cases c.nullable with
          | true => exact .ok .null
          | false => exact .error _
      | false => exact hex

theorem Combinator.settled_reorders {c : Common} {examine : Field → Outcome}
    {input input' : Field} (h : input.Reorders input')
    (hex : Outcome.Reorders (examine (c.substitute input)) (examine (c.substitute input'))) :
    Outcome.Reorders (settled c examine input) (settled c examine input') := by
  have hs := c.substitute_reorders h
  simp only [settled, settle, ← hs.isAbsent_eq, ← hs.isNull_eq]
  cases (c.substitute input).isAbsent with
  | true => exact .ok .absent
  | false =>
      cases c.nullable && (c.substitute input).isNull with
      | true => exact .ok .null
      | false => exact hex

/-- An examination that takes all arrays and objects for values of the wrong kind sees no order of
members. -/
theorem Common.settled_reorders_of_scalar {c : Common} {type : String}
    {examine : Field → Outcome} {e : ErrorTree}
    (harray : ∀ xs, examine (.value (.array xs)) = .error e)
    (hobject : ∀ ms, examine (.value (.object ms)) = .error e) {input input' : Field}
    (h : input.Reorders input') :
    Outcome.Reorders (c.settled type examine input) (c.settled type examine input') := by
  apply Common.settled_reorders h
  have hparts := (c.substitute_reorders h).parts
  generalize c.substitute input = f at hparts ⊢
  generalize c.substitute input' = g at hparts ⊢
  cases hparts with
  | eq => exact Outcome.reorders_refl _
  | array _ =>
      rw [harray, harray]
      exact .error e
  | object _ =>
      rw [hobject, hobject]
      exact .error e

/-! ## Arrays -/

namespace ArrayRule

/-- Items are collected in step: the same item fails with the same complaint, or the outputs go
along. -/
theorem collect_reorders {item : Json → Outcome} {xs ys : List Json}
    (hxs : List.Forall₂ Json.Reorders xs ys)
    (hitem : ∀ x ∈ xs, ∀ y, Json.Reorders x y → Outcome.Reorders (item x) (item y))
    (index : Nat) :
    AgreeUpTo (List.Forall₂ Json.Reorders) (collect item index xs) (collect item index ys) := by
  induction hxs generalizing index with
  | nil => exact .ok .nil
  | @cons x y xs ys hxy hrest ih =>
      have hhead := hitem x List.mem_cons_self y hxy
      have htail := ih (fun z hz => hitem z (List.mem_cons_of_mem x hz)) (index + 1)
      rw [collect, collect]
      generalize item x = r at hhead ⊢
      generalize item y = r' at hhead ⊢
      cases hhead with
      | error e => exact .error _
      | ok hfg =>
          dsimp only
          generalize collect item (index + 1) xs = s at htail ⊢
          generalize collect item (index + 1) ys = s' at htail ⊢
          cases htail with
          | error e => exact .error e
          | ok hvalues => exact .ok (.cons hfg.toJson?_getD hvalues)

theorem any_same_eq {x x' : Json} {ys ys' : List Json} (hx : x.WellFormed)
    (hys : ∀ y ∈ ys, y.WellFormed) (hxx : Json.Reorders x x')
    (h : List.Forall₂ Json.Reorders ys ys') :
    (ys.any fun y => x.same y) = ys'.any fun y => x'.same y := by
  induction h with
  | nil => rfl
  | @cons y y' ys ys' hyy _ ih =>
      rw [List.forall_mem_cons] at hys
      rw [List.any_cons, List.any_cons, ih hys.2, Json.same_eq_of_reorders hx hys.1 hxx hyy]

/-- Whether items are distinct does not hang on the order of their members. -/
theorem allDistinct_eq {xs ys : List Json} (hxs : ∀ x ∈ xs, x.WellFormed)
    (h : List.Forall₂ Json.Reorders xs ys) : allDistinct xs = allDistinct ys := by
  induction h with
  | nil => rfl
  | @cons x y xs ys hxy hrest ih =>
      rw [List.forall_mem_cons] at hxs
      rw [allDistinct, allDistinct, ih hxs.2, any_same_eq hxs.1 hxs.2 hxy hrest]

variable {r : ArrayRule} {item : Json → Outcome} {raw : Bool} {f g : Field}

theorem checks_eq_of_reorders {xs ys : List Json} (hxs : ∀ x ∈ xs, x.WellFormed)
    (h : List.Forall₂ Json.Reorders xs ys) : r.checks xs = r.checks ys := by
  rw [checks, checks, h.length_eq, allDistinct_eq hxs h]

/-- An array is not told from one whose items have their members in another order. Distinctness does
not tell them apart either. -/
theorem examine_reorders (hf : f.WellFormed) (h : f.Reorders g)
    (hitem : ∀ x y, x.WellFormed → Json.Reorders x y → Outcome.Reorders (item x) (item y))
    (hout : ∀ x o, x.WellFormed → item x = .ok o → o.WellFormed) :
    Outcome.Reorders (r.examine item f raw) (r.examine item g raw) := by
  cases h.parts with
  | eq => exact Outcome.reorders_refl _
  | object _ => exact .error _
  | @array xs ys hitems =>
      have hxs : ∀ x ∈ xs, x.WellFormed := Json.wellFormed_array.mp hf
      have hcollect := collect_reorders hitems (fun x hx y => hitem x y (hxs x hx)) 0
      rw [examine, examine]
      simp only [read]
      cases hus : collect item 0 xs with
      | error e =>
          rw [hus] at hcollect
          generalize collect item 0 ys = s' at hcollect ⊢
          cases hcollect with
          | error e => exact .error e
      | ok us =>
          -- items are compared as they are in the output
          have hwf : ∀ u ∈ us, u.WellFormed := by
            intro u hu
            obtain ⟨x, hx, o, ho, rfl⟩ := exists_item_of_collect hus u hu
            have ho' := (hout x o (hxs x hx) ho).toJson?
            cases hj : o.toJson? with
            | none => trivial
            | some z => exact ho' z hj
          rw [hus] at hcollect
          generalize collect item 0 ys = s' at hcollect ⊢
          cases hcollect with
          | ok hvalues =>
              dsimp only
              rw [checks_eq_of_reorders hwf hvalues]
              exact checked_reorders _ (.value (.array hvalues))

end ArrayRule

/-! ## Objects -/

namespace ObjectRule

theorem missing_eq_of_matches (r : ObjectRule) (readOnly : List String) {ms ns : Entries Json}
    (h : Entries.Matches Json.Reorders ms ns) : r.missing readOnly ms = r.missing readOnly ns := by
  rw [missing, missing]
  simp only [h.has_eq]

variable {os ps : Entries Outcome}

/-- Errors are kept in the order of their names, so look-up tells all about them. -/
theorem failures_eq_of_matches (ho : (Entries.keys os).Nodup) (hp : (Entries.keys ps).Nodup)
    (h : Entries.Matches Outcome.Reorders os ps) : failures os = failures ps := by
  apply Entries.Ascending.ext (ascending_failures os) (ascending_failures ps)
  intro k
  rw [get?_failures ho, get?_failures hp]
  have hk := h k
  generalize Entries.get? k os = found at hk ⊢
  generalize Entries.get? k ps = found' at hk ⊢
  cases hk with
  | none => rfl
  | some hr => exact hr.error?_eq

theorem outputs_matches (ho : (Entries.keys os).Nodup) (hp : (Entries.keys ps).Nodup)
    (h : Entries.Matches Outcome.Reorders os ps) :
    Entries.Matches Json.Reorders (outputs os) (outputs ps) := by
  intro k
  rw [get?_outputs ho, get?_outputs hp]
  have hk := h k
  generalize Entries.get? k os = found at hk ⊢
  generalize Entries.get? k ps = found' at hk ⊢
  cases hk with
  | none => exact .none
  | some hr => exact hr.json?

/-- The conclusion goes by names: outcomes that match under every name fail with the same table of
errors, or come to matching outputs. -/
theorem conclude_reorders (r : ObjectRule) (ho : (Entries.keys os).Nodup)
    (hp : (Entries.keys ps).Nodup) (h : Entries.Matches Outcome.Reorders os ps) :
    Outcome.Reorders (r.conclude os) (r.conclude ps) := by
  have hos := nodup_outputs ho
  have hps := nodup_outputs hp
  have hmatches := outputs_matches ho hp h
  have hchecks : r.checks (outputs os) = r.checks (outputs ps) := by
    rw [checks, checks, hmatches.length_eq hos hps]
  rw [conclude, conclude, failures_eq_of_matches ho hp h]
  cases failures ps with
  | nil =>
      have hobject := (Json.reorders_object_iff hos hps).mpr hmatches
      show Outcome.Reorders (checked (r.checks (outputs os)) _) (checked (r.checks (outputs ps)) _)
      rw [hchecks]
      exact checked_reorders _ (.value hobject)
  | cons e rest => exact .error _

end ObjectRule

namespace Validator

/-- Inputs that differ only in the order of members have outcomes that differ only so. -/
def IgnoresOrder (raw : Bool) (v : Validator) : Prop :=
  ∀ input input' : Field, input.WellFormed → input.Reorders input' →
    Outcome.Reorders (v.validate input raw) (v.validate input' raw)

variable {raw : Bool} {additional : Additional Validator}

theorem declaredOutcome_reorders {v : Validator} (hv : v.IgnoresOrder raw)
    {member member' : Option Json} (hm : ∀ x ∈ member, x.WellFormed)
    (h : Option.Rel Json.Reorders member member') :
    Outcome.Reorders (declaredOutcome v member raw) (declaredOutcome v member' raw) := by
  rw [declaredOutcome, declaredOutcome]
  cases v.isReadOnly with
  | true =>
      cases h with
      | none => exact .ok .absent
      | some _ => exact .error _
  | false => exact hv _ _ (Field.wellFormed_ofOption hm) (.ofOption h)

/-- The answer to a member that no property declares goes along with the member. -/
theorem validateAdditional_reorders
    (hs : ∀ s, additional = .schema s → s.IgnoresOrder raw) {x y : Json} (hx : x.WellFormed)
    (h : Json.Reorders x y) :
    Outcome.Reorders (validateAdditional additional x raw)
      (validateAdditional additional y raw) := by
  cases additional with
  | allow =>
      rw [validateAdditional, validateAdditional]
      exact .ok (.value h)
  | deny =>
      rw [validateAdditional, validateAdditional]
      exact .error _
  | schema s =>
      rw [validateAdditional, validateAdditional]
      exact hs s rfl _ _ (Field.wellFormed_ofJson hx) (.ofJson h)

theorem outcomeOf_reorders {declared : Option Validator}
    (hd : ∀ d ∈ declared, d.IgnoresOrder raw)
    (hs : ∀ s, additional = .schema s → s.IgnoresOrder raw) {member member' : Option Json}
    (hm : ∀ x ∈ member, x.WellFormed) (h : Option.Rel Json.Reorders member member') :
    Option.Rel Outcome.Reorders (outcomeOf additional declared member raw)
      (outcomeOf additional declared member' raw) := by
  cases declared with
  | some d => exact .some (declaredOutcome_reorders (hd d rfl) hm h)
  | none =>
      cases h with
      | none => exact .none
      | some hxy => exact .some (validateAdditional_reorders hs (hm _ rfl) hxy)

/-- Members that miss the same names and have outcomes that are alike are answered alike. -/
theorem examineObject_reorders_of_outcomes {rule : ObjectRule} {properties : Entries Validator}
    {ms ns : Entries Json} (hnames : (Entries.keys properties).Nodup)
    (hms : (Entries.keys ms).Nodup) (hns : (Entries.keys ns).Nodup)
    (hmissing : rule.missing (readOnlyNames properties) ms =
      rule.missing (readOnlyNames properties) ns)
    (houtcomes : Entries.Matches Outcome.Reorders (memberOutcomes properties additional ms raw)
      (memberOutcomes properties additional ns raw)) :
    Outcome.Reorders (examineObject rule properties additional (.value (.object ms)) raw)
      (examineObject rule properties additional (.value (.object ns)) raw) := by
  rw [examineObject, examineObject, hmissing]
  cases rule.missing (readOnlyNames properties) ns with
  | nil =>
      exact rule.conclude_reorders (nodup_memberOutcomes hnames hms)
        (nodup_memberOutcomes hnames hns) houtcomes
  | cons e rest => exact .error _

/-- Objects that match member by member, in any order, are examined with matching outcomes. -/
theorem examineObject_reorders {rule : ObjectRule} {properties : Entries Validator}
    (hnames : (Entries.keys properties).Nodup)
    (hp : ∀ p ∈ properties, p.2.IgnoresOrder raw)
    (hs : ∀ s, additional = .schema s → s.IgnoresOrder raw) {f g : Field} (hf : f.WellFormed)
    (h : f.Reorders g) :
    Outcome.Reorders (examineObject rule properties additional f raw)
      (examineObject rule properties additional g raw) := by
  cases h.parts with
  | eq => exact Outcome.reorders_refl _
  | array _ => exact .error _
  | @object ms ns hobject =>
      have hg : (Json.object ns).WellFormed := hobject.wellFormed hf
      obtain ⟨hms, hmembers⟩ := Json.wellFormed_object.mp hf
      obtain ⟨hns, -⟩ := Json.wellFormed_object.mp hg
      have hmatches := (Json.reorders_object_iff hms hns).mp hobject
      apply examineObject_reorders_of_outcomes hnames hms hns
        (rule.missing_eq_of_matches _ hmatches)
      -- name by name, whatever the places of the members in the two inputs
      intro k
      rw [get?_memberOutcomes hms, get?_memberOutcomes hns]
      apply outcomeOf_reorders _ hs _ (hmatches k)
      · intro d hd
        exact hp _ (Entries.mem_of_get? hd)
      · intro x hx
        exact hmembers _ (Entries.mem_of_get? hx)

end Validator

/-! ## Combinators -/

/-- A discriminator looks its property up. -/
theorem Discriminator.select_eq_of_reorders (d : Discriminator) {f g : Field}
    (hf : f.WellFormed) (h : f.Reorders g) : d.select f = d.select g := by
  cases h.parts with
  | eq => rfl
  | array _ => rfl
  | @object ms ns hobject =>
      have hg : (Json.object ns).WellFormed := hobject.wellFormed hf
      obtain ⟨hms, -⟩ := Json.wellFormed_object.mp hf
      obtain ⟨hns, -⟩ := Json.wellFormed_object.mp hg
      have hproperty := (Json.reorders_object_iff hms hns).mp hobject d.property
      simp only [select]
      generalize Entries.get? d.property ms = found at hproperty ⊢
      generalize Entries.get? d.property ns = found' at hproperty ⊢
      cases hproperty with
      | none => rfl
      | some hxy => simp only [hxy.string?_eq]

namespace Combinator

variable {os ps : List Outcome}

theorem accepted_reorders (h : List.Forall₂ Outcome.Reorders os ps) :
    List.Forall₂ Field.Reorders (accepted os) (accepted ps) := by
  refine List.rel_filterMap ?_ h
  intro r r' hr
  cases hr with
  | error e => exact .none
  | ok hfg => exact .some hfg

theorem exactlyOne_reorders (h : List.Forall₂ Outcome.Reorders os ps) :
    Outcome.Reorders (exactlyOne os) (exactlyOne ps) := by
  have haccepted := accepted_reorders h
  rw [exactlyOne, exactlyOne]
  generalize accepted os = fs at haccepted ⊢
  generalize accepted ps = gs at haccepted ⊢
  cases haccepted with
  | nil => exact .error _
  | cons hfg hrest =>
      cases hrest with
      | nil => exact .ok hfg
      | cons _ _ => exact .error _

theorem firstOf_reorders (h : List.Forall₂ Outcome.Reorders os ps) :
    Outcome.Reorders (firstOf os) (firstOf ps) := by
  have haccepted := accepted_reorders h
  rw [firstOf, firstOf]
  generalize accepted os = fs at haccepted ⊢
  generalize accepted ps = gs at haccepted ⊢
  cases haccepted with
  | nil => exact .error _
  | cons hfg _ => exact .ok hfg

/-- Tables without repeated keys that match. -/
def MatchingTables (ms ns : Entries Json) : Prop :=
  (Entries.keys ms).Nodup ∧ (Entries.keys ns).Nodup ∧ Entries.Matches Json.Reorders ms ns

/-- Outputs that differ in the order of members are both objects, with tables that match, or neither
is. -/
theorem members?_reorders {f g : Field} (hf : f.WellFormed) (h : f.Reorders g) :
    Option.Rel MatchingTables (members? f) (members? g) := by
  have hg := h.wellFormed hf
  cases h with
  | value hxy =>
      cases hxy with
      | @object ms ns hkeys hvalues =>
          have hms := (Json.wellFormed_object.mp hf).1
          have hns := (Json.wellFormed_object.mp hg).1
          have hmatches := (Json.reorders_object_iff hms hns).mp (.object hkeys hvalues)
          exact .some ⟨hms, hns, hmatches⟩
      | _ => exact .none
  | _ => exact .none

theorem allMembers_reorders {fs gs : List Field} (hfs : ∀ f ∈ fs, f.WellFormed)
    (h : List.Forall₂ Field.Reorders fs gs) :
    Option.Rel (List.Forall₂ MatchingTables) (allMembers fs) (allMembers gs) := by
  induction h with
  | nil => exact .some .nil
  | @cons f g fs gs hfg _ ih =>
      rw [List.forall_mem_cons] at hfs
      have hhead := members?_reorders hfs.1 hfg
      have htail := ih hfs.2
      rw [allMembers, allMembers]
      generalize members? f = m at hhead ⊢
      generalize members? g = n at hhead ⊢
      generalize allMembers fs = mss at htail ⊢
      generalize allMembers gs = nss at htail ⊢
      cases hhead with
      | none => exact .none
      | some hmn =>
          cases htail with
          | none => exact .none
          | some hrest => exact .some (.cons hmn hrest)

/-- Merging puts table after table over what was merged before. -/
theorem merged_matches {mss nss : List (Entries Json)}
    (h : List.Forall₂ MatchingTables mss nss) :
    MatchingTables (mss.foldl (fun acc m => Entries.putAll m acc) [])
      (nss.foldl (fun acc m => Entries.putAll m acc) []) := by
  refine List.rel_foldl (P := MatchingTables) (R := MatchingTables) ?_ ?_ h
  · intro acc acc' hacc m n hmn
    obtain ⟨hd, hd', hmatches⟩ := hacc
    obtain ⟨hm, hn, hnews⟩ := hmn
    exact ⟨Entries.nodup_putAll hd m, Entries.nodup_putAll hd' n, hnews.putAll hm hn hmatches⟩
  · exact ⟨List.nodup_nil, List.nodup_nil, fun _ => .none⟩

/-- Merging outputs that differ in the order of members gives such outputs again. -/
theorem merge_reorders {fs gs : List Field} (hfs : ∀ f ∈ fs, f.WellFormed)
    (h : List.Forall₂ Field.Reorders fs gs) : (merge fs).Reorders (merge gs) := by
  have hpresent : List.Forall₂ Field.Reorders (fs.filter fun f => !f.isAbsent)
      (gs.filter fun g => !g.isAbsent) := by
    refine List.rel_filter ?_ h
    intro f g hfg
    show (!f.isAbsent) = true ↔ (!g.isAbsent) = true
    rw [hfg.isAbsent_eq]
  have hwf : ∀ f ∈ fs.filter fun f => !f.isAbsent, f.WellFormed :=
    fun f hf => hfs f (List.mem_of_mem_filter hf)
  have hlast := forall₂_getLast? hpresent
  have hmembers := allMembers_reorders hwf hpresent
  simp only [merge]
  generalize (fs.filter fun f => !f.isAbsent).getLast? = last at hlast ⊢
  generalize (gs.filter fun g => !g.isAbsent).getLast? = last' at hlast ⊢
  cases hlast with
  | none => exact .absent
  | some hfg =>
      dsimp only
      generalize allMembers (fs.filter fun f => !f.isAbsent) = mss at hmembers ⊢
      generalize allMembers (gs.filter fun g => !g.isAbsent) = nss at hmembers ⊢
      cases hmembers with
      | none => exact hfg
      | some htables =>
          obtain ⟨hd, hd', hmatches⟩ := merged_matches htables
          exact .value ((Json.reorders_object_iff hd hd').mpr hmatches)

theorem everyOne_reorders (hwf : ∀ f, .ok f ∈ os → f.WellFormed)
    (h : List.Forall₂ Outcome.Reorders os ps) :
    Outcome.Reorders (everyOne os) (everyOne ps) := by
  have haccepted := accepted_reorders h
  rw [everyOne, everyOne, ← haccepted.length_eq, ← h.length_eq]
  split
  · have hfs : ∀ f ∈ accepted os, f.WellFormed := fun f hf => hwf f (mem_accepted.mp hf)
    exact .ok (merge_reorders hfs haccepted)
  · exact .error _

end Combinator

namespace Validator

variable {raw : Bool} {branches : List Validator}

theorem branches_reorder (hbranches : ∀ b ∈ branches, b.IgnoresOrder raw) {f g : Field}
    (hf : f.WellFormed) (h : f.Reorders g) :
    List.Forall₂ Outcome.Reorders (branches.map fun b => b.validate f raw)
      (branches.map fun b => b.validate g raw) := by
  rw [List.forall₂_map_left_iff, List.forall₂_map_right_iff, List.forall₂_same]
  intro b hb
  exact hbranches b hb f g hf h

/-- The same branch is selected for both inputs, and its outcomes go along. -/
theorem dispatch_reorders (hbranches : ∀ b ∈ branches, b.IgnoresOrder raw) (d : Discriminator)
    (keyword : String) {f g : Field} (hf : f.WellFormed) (h : f.Reorders g) :
    Outcome.Reorders (dispatch branches d f raw keyword) (dispatch branches d g raw keyword) := by
  rw [dispatch, dispatch, ← d.select_eq_of_reorders hf h]
  cases d.select f with
  | error e => exact .error e
  | ok index =>
      simp only [branchOutcome_eq]
      cases hb : branches[index]? with
      | none => exact .error _
      | some b =>
          have hrun := hbranches b (List.mem_of_getElem? hb) f g hf h
          simp only [Option.map_some]
          generalize b.validate f raw = r at hrun ⊢
          generalize b.validate g raw = r' at hrun ⊢
          cases hrun with
          | error e => exact .error _
          | ok hfg => exact .ok hfg

/-- Whichever way a choice is made, it is made alike for both inputs. -/
theorem examineChoice_reorders {choose : List Outcome → Outcome}
    (hchoose : ∀ os ps, List.Forall₂ Outcome.Reorders os ps →
      Outcome.Reorders (choose os) (choose ps))
    (hbranches : ∀ b ∈ branches, b.IgnoresOrder raw) (discriminator : Option Discriminator)
    (keyword : String) {f g : Field} (hf : f.WellFormed) (h : f.Reorders g) :
    Outcome.Reorders (examineChoice choose keyword branches discriminator f raw)
      (examineChoice choose keyword branches discriminator g raw) := by
  cases discriminator with
  | none =>
      rw [examineChoice, examineChoice, branchOutcomes_eq, branchOutcomes_eq]
      exact hchoose _ _ (branches_reorder hbranches hf h)
  | some d => exact dispatch_reorders hbranches d keyword hf h

/-! ## Whole trees -/

/-- Of two inputs that differ only in the order of members, both fail with the same errors, or
both are accepted with outputs that differ only in the order of members. -/
theorem validate_reorders {v : Validator} (hv : v.Everywhere Sound) {input input' : Field}
    (hi : input.WellFormed) (h : input.Reorders input') (raw : Bool) :
    Outcome.Reorders (v.validate input raw) (v.validate input' raw) := by
  induction v using induct generalizing input input' with
  | node v ih =>
    have hs := v.common.substitute_reorders h
    have hin : (v.common.substitute input).WellFormed :=
      Common.substitute_wellFormed hv.here.default hi
    -- the invariant that the induction carries from the children to the node
    have hchildren : ∀ c ∈ v.children, c.IgnoresOrder raw :=
      fun c hc _ _ hi h => ih c hc (hv.child hc) hi h
    cases v with
    | integer rule =>
        rw [validate_integer_eq, validate_integer_eq]
        exact Common.settled_reorders_of_scalar (fun _ => rfl) (fun _ => rfl) h
    | number rule =>
        rw [validate_number_eq, validate_number_eq]
        exact Common.settled_reorders_of_scalar (fun _ => rfl) (fun _ => rfl) h
    | string rule =>
        rw [validate_string_eq, validate_string_eq]
        exact Common.settled_reorders_of_scalar (fun _ => rfl) (fun _ => rfl) h
    | boolean c =>
        rw [validate_boolean_eq, validate_boolean_eq]
        exact Common.settled_reorders_of_scalar (fun _ => rfl) (fun _ => rfl) h
    | array rule items =>
        rw [validate_array_eq, validate_array_eq]
        apply Common.settled_reorders h
        apply ArrayRule.examine_reorders hin hs
        · intro x y hx hxy
          exact hchildren items List.mem_cons_self _ _ (Field.wellFormed_ofJson hx) (.ofJson hxy)
        · intro x o hx ho
          exact wellFormed_of_validate (hv.child List.mem_cons_self) (Field.wellFormed_ofJson hx) ho
    | object rule properties additional =>
        rw [validate_object_eq, validate_object_eq]
        apply Common.settled_reorders h
        apply examineObject_reorders hv.here.names _ _ hin hs
        · intro p hp
          exact hchildren p.2 (mem_children_of_property hp)
        · rintro s rfl
          exact hchildren s List.mem_cons_self
    | oneOf c branches discriminator =>
        rw [validate_oneOf_eq, validate_oneOf_eq]
        apply Combinator.settled_reorders h
        exact examineChoice_reorders (fun _ _ => Combinator.exactlyOne_reorders) hchildren
          discriminator "oneOf" hin hs
    | anyOf c branches discriminator =>
        rw [validate_anyOf_eq, validate_anyOf_eq]
        apply Combinator.settled_reorders h
        exact examineChoice_reorders (fun _ _ => Combinator.firstOf_reorders) hchildren
          discriminator "anyOf" hin hs
    | allOf c branches =>
        rw [validate_allOf_eq, validate_allOf_eq]
        apply Combinator.settled_reorders h
        apply Combinator.everyOne_reorders _ (branches_reorder hchildren hin hs)
        intro f hf
        obtain ⟨b, hb, hout⟩ := List.mem_map.mp hf
        exact wellFormed_of_validate (hv.child hb) hin hout

/-! ## A roster -/

/-- A roster of people that are all different. Each has an age and may have any other texts. -/
def roster : Validator :=
  .array { uniqueItems := true }
    (.object { required := ["name"] } [("age", .integer {})] (.schema (.string {})))

/-- Two people. -/
def rosterSent : Field :=
  .value (.array [
    .object [("name", .string "a"), ("city", .string "x"), ("age", .string "30"),
      ("mail", .string "m")],
    .object [("age", .string "4"), ("name", .string "b")]])

/-- The same two people, told in another order. -/
def rosterTurned : Field :=
  .value (.array [
    .object [("age", .string "30"), ("mail", .string "m"), ("name", .string "a"),
      ("city", .string "x")],
    .object [("name", .string "b"), ("age", .string "4")]])

/-- Both are accepted with ages that are numbers, and the outputs differ in order only. -/
theorem rosterSent_reorders :
    ∃ out out', roster.validate rosterSent true = .ok out ∧
      roster.validate rosterTurned true = .ok out' ∧ out.Reorders out' := by
  have hsound : roster.Everywhere Sound := by
    refine .node ⟨by rintro d ⟨⟩, trivial⟩ fun c hc => ?_
    rw [List.mem_singleton.mp hc]
    refine .node ⟨by rintro d ⟨⟩, List.nodup_singleton "age"⟩ fun c hc => ?_
    rcases List.mem_cons.mp hc with rfl | hc
    · exact .leaf ⟨by rintro d ⟨⟩, trivial⟩ rfl
    · rw [List.mem_singleton.mp hc]
      exact .leaf ⟨by rintro d ⟨⟩, trivial⟩ rfl
  have hsent : rosterSent.WellFormed := by
    refine ⟨⟨by decide, ?_⟩, ⟨by decide, ?_⟩, trivial⟩
    · exact ⟨trivial, trivial, trivial, trivial, trivial⟩
    · exact ⟨trivial, trivial, trivial⟩
  have hturned : rosterSent.Reorders rosterTurned := by
    refine .value (.array (.cons ?_ (.cons ?_ .nil)))
    · exact .of_perm (@List.perm_append_comm _ [_, _] [_, _]) (by decide)
    · exact .of_perm (List.Perm.swap _ _ []) (by decide)
  have hruns := validate_reorders hsound hsent hturned true
  have haccepted : (roster.validate rosterSent true).isOk = true := by cbv
  generalize roster.validate rosterSent true = r at hruns haccepted ⊢
  generalize roster.validate rosterTurned true = r' at hruns ⊢
  cases hruns with
  | error e => cases haccepted
  | ok hout => exact ⟨_, _, rfl, rfl, hout⟩

end Validator

end SchemaGate
