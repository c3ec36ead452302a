import Mathlib
import SchemaGate.Proofs.Lists
import SchemaGate.Proofs.Schema.Presence
import SchemaGate.Proofs.Schema.Rules

/-!
# Relaxing a schema

A change to a tree that only takes away what is asked for (`Validator.Relaxes`): a limit is dropped
or moved outwards, a name is no longer required, other members are let in, null is allowed. What
was accepted stays accepted, and with the same output, however many such changes are made and
wherever in the tree (`Validator.validate_of_relaxed`).

The trees are those in which no branch can step in for another: `oneOf` and `anyOf` have
discriminators, and `allOf` has branches (`Validator.IsDirected`). Else a branch that newly accepts
an input would be counted besides the one that did before.

`Validator.AcceptedBy` is what one change preserves. It is shown for the rules of each kind first,
then for a node whose children change (`Validator.acceptedBy_array`, `Validator.acceptedBy_object`,
`Validator.acceptedBy_oneOf`, `Validator.acceptedBy_anyOf`, `Validator.acceptedBy_allOf`).
-/

namespace SchemaGate

/-! ## Rules -/

/-- A lower limit on a count is dropped or lowered. -/
inductive LowersMinimum : Option Nat → Option Nat → Prop
  | dropped (k : Nat) : LowersMinimum (some k) none
  | lowered {k k' : Nat} : k' ≤ k → LowersMinimum (some k) (some k')

/-- An upper limit on a count is dropped or raised. -/
inductive RaisesMaximum : Option Nat → Option Nat → Prop
  | dropped (k : Nat) : RaisesMaximum (some k) none
  | raised {k k' : Nat} : k ≤ k' → RaisesMaximum (some k) (some k')

theorem LowersMinimum.le_of_le {m m' : Option Nat} (h : LowersMinimum m m') {n : Nat}
    (hm : ∀ k ∈ m, k ≤ n) : ∀ k ∈ m', k ≤ n := by
  intro k hk
  cases h with
  | dropped _ => cases hk
  | @lowered k₀ _ hle =>
      cases hk
      have hk₀ := hm k₀ rfl
      omega

theorem RaisesMaximum.le_of_le {m m' : Option Nat} (h : RaisesMaximum m m') {n : Nat}
    (hm : ∀ k ∈ m, n ≤ k) : ∀ k ∈ m', n ≤ k := by
  intro k hk
  cases h with
  | dropped _ => cases hk
  | @raised k₀ _ hle =>
      cases hk
      have hk₀ := hm k₀ rfl
      omega

theorem not_mem_none {α : Type} {P : α → Prop} : ∀ x ∈ (none : Option α), P x := by
  rintro x ⟨⟩

namespace IntegerRule

/-- One keyword less. -/
inductive Relaxes (r : IntegerRule) : IntegerRule → Prop
  | format : r.Relaxes { r with format := none }
  | minimum : r.Relaxes { r with minimum := none }
  | maximum : r.Relaxes { r with maximum := none }
  | members : r.Relaxes { r with members := none }

variable {r r' : IntegerRule}

theorem Relaxes.common_eq (h : r.Relaxes r') : r'.common = r.common := by
  cases h <;> rfl

theorem Relaxes.admits (h : r.Relaxes r') {n : WideInt} (ha : r.Admits n) : r'.Admits n := by
  obtain ⟨hwidth, hmember, habove, hbelow⟩ := ha
  cases h with
  | format => exact ⟨by rintro ⟨⟩, hmember, habove, hbelow⟩
  | minimum => exact ⟨hwidth, hmember, not_mem_none, hbelow⟩
  | maximum => exact ⟨hwidth, hmember, habove, not_mem_none⟩
  | members => exact ⟨hwidth, not_mem_none, habove, hbelow⟩

end IntegerRule

namespace NumberRule

/-- One keyword less. -/
inductive Relaxes (r : NumberRule) : NumberRule → Prop
  | minimum : r.Relaxes { r with minimum := none }
  | maximum : r.Relaxes { r with maximum := none }
  | members : r.Relaxes { r with members := none }

variable {r r' : NumberRule}

theorem Relaxes.common_eq (h : r.Relaxes r') : r'.common = r.common := by
  cases h <;> rfl

theorem Relaxes.admits (h : r.Relaxes r') {x : Binary64} (ha : r.Admits x) : r'.Admits x := by
  obtain ⟨hmember, habove, hbelow⟩ := ha
  cases h with
  | minimum => exact ⟨hmember, not_mem_none, hbelow⟩
  | maximum => exact ⟨hmember, habove, not_mem_none⟩
  | members => exact ⟨not_mem_none, habove, hbelow⟩

end NumberRule

namespace StringRule

/-- One keyword less, or a limit moved outwards. The format stays; its check may go. -/
inductive Relaxes (r : StringRule) : StringRule → Prop
  | minLength {m : Option Nat} : LowersMinimum r.minLength m →
      r.Relaxes { r with minLength := m }
  | maxLength {m : Option Nat} : RaisesMaximum r.maxLength m →
      r.Relaxes { r with maxLength := m }
  | members : r.Relaxes { r with members := none }
  | check : r.Relaxes { r with check := none }
  | pattern : r.Relaxes { r with pattern := none }

variable {r r' : StringRule}

theorem Relaxes.common_eq (h : r.Relaxes r') : r'.common = r.common := by
  cases h <;> rfl

theorem Relaxes.acceptsBinary_eq (h : r.Relaxes r') : r'.acceptsBinary = r.acceptsBinary := by
  cases h <;> rfl

theorem Relaxes.admits (h : r.Relaxes r') {s : String} (ha : r.Admits s) : r'.Admits s := by
  obtain ⟨hmin, hmax, hmember, hformat, hpattern⟩ := ha
  cases h with
  | minLength hm => exact ⟨hm.le_of_le hmin, hmax, hmember, hformat, hpattern⟩
  | maxLength hm => exact ⟨hmin, hm.le_of_le hmax, hmember, hformat, hpattern⟩
  | members => exact ⟨hmin, hmax, not_mem_none, hformat, hpattern⟩
  | check => exact ⟨hmin, hmax, hmember, not_mem_none, hpattern⟩
  | pattern => exact ⟨hmin, hmax, hmember, hformat, fun _ => not_mem_none⟩

end StringRule

namespace ArrayRule

/-- One keyword less, or a limit moved outwards. -/
inductive Relaxes (r : ArrayRule) : ArrayRule → Prop
  | minItems {m : Option Nat} : LowersMinimum r.minItems m → r.Relaxes { r with minItems := m }
  | maxItems {m : Option Nat} : RaisesMaximum r.maxItems m → r.Relaxes { r with maxItems := m }
  | uniqueItems : r.Relaxes { r with uniqueItems := false }

variable {r r' : ArrayRule}

theorem Relaxes.common_eq (h : r.Relaxes r') : r'.common = r.common := by
  cases h <;> rfl

theorem Relaxes.admits (h : r.Relaxes r') {xs : List Json} (ha : r.Admits xs) :
    r'.Admits xs := by
  obtain ⟨hmin, hmax, hunique⟩ := ha
  cases h with
  | minItems hm => exact ⟨hm.le_of_le hmin, hmax, hunique⟩
  | maxItems hm => exact ⟨hmin, hm.le_of_le hmax, hunique⟩
  | uniqueItems => exact ⟨hmin, hmax, by rintro ⟨⟩⟩

end ArrayRule

namespace ObjectRule

/-- One keyword or one required name less, or a limit moved outwards. -/
inductive Relaxes (r : ObjectRule) : ObjectRule → Prop
  | required (name : String) :
      r.Relaxes { r with required := r.required.filter (· != name) }
  | minProperties {m : Option Nat} : LowersMinimum r.minProperties m →
      r.Relaxes { r with minProperties := m }
  | maxProperties {m : Option Nat} : RaisesMaximum r.maxProperties m →
      r.Relaxes { r with maxProperties := m }

variable {r r' : ObjectRule}

theorem Relaxes.common_eq (h : r.Relaxes r') : r'.common = r.common := by
  cases h <;> rfl

theorem Relaxes.required_subset (h : r.Relaxes r') : ∀ name ∈ r'.required, name ∈ r.required := by
  intro name hname
  cases h with
  | required gone => exact List.mem_of_mem_filter hname
  | minProperties _ => exact hname
  | maxProperties _ => exact hname

theorem Relaxes.admits (h : r.Relaxes r') {ms : Entries Json} (ha : r.Admits ms) :
    r'.Admits ms := by
  obtain ⟨hmin, hmax⟩ := ha
  cases h with
  | required gone => exact ⟨hmin, hmax⟩
  | minProperties hm => exact ⟨hm.le_of_le hmin, hmax⟩
  | maxProperties hm => exact ⟨hmin, hm.le_of_le hmax⟩

end ObjectRule

/-! ## Settling -/

namespace Common

/-- The same keywords, with null allowed. -/
def allowingNull (c : Common) : Common := { c with nullable := true }

variable {c : Common} {type : String} {examine examine' : Field → Outcome} {input out : Field}

theorem settled_mono (hex : ∀ f g, examine f = .ok g → examine' f = .ok g)
    (h : c.settled type examine input = .ok out) : c.settled type examine' input = .ok out := by
  rw [settled_eq_ok_iff] at h ⊢
  rcases h with habsent | hnull | ⟨hgiven, hexamined⟩
  · exact .inl habsent
  · exact .inr (.inl hnull)
  · exact .inr (.inr ⟨hgiven, hex _ _ hexamined⟩)

theorem settled_allowingNull (h : c.settled type examine input = .ok out) :
    c.allowingNull.settled type examine input = .ok out := by
  rw [settled_eq_ok_iff] at h ⊢
  rcases h with habsent | ⟨hnull, -, hout⟩ | hgiven
  · exact .inl habsent
  · exact .inr (.inl ⟨hnull, rfl, hout⟩)
  · exact .inr (.inr hgiven)

end Common

namespace Combinator

variable {c : Common} {examine examine' : Field → Outcome} {input out : Field}

theorem settled_mono (hex : ∀ f g, examine f = .ok g → examine' f = .ok g)
    (h : settled c examine input = .ok out) : settled c examine' input = .ok out := by
  rw [settled_eq_ok_iff] at h ⊢
  rcases h with habsent | hnull | ⟨hne, hn, hexamined⟩
  · exact .inl habsent
  · exact .inr (.inl hnull)
  · exact .inr (.inr ⟨hne, hn, hex _ _ hexamined⟩)

/-- A combinator that allows null itself keeps it from its branches, which is no change if they
answer it with null. -/
theorem settled_allowingNull (h : settled c examine input = .ok out)
    (hnull : (c.substitute input).isNull = true → out = .null) :
    settled c.allowingNull examine input = .ok out := by
  rw [settled_eq_ok_iff] at h ⊢
  rcases h with habsent | ⟨-, hin, hout⟩ | ⟨hne, -, hexamined⟩
  · exact .inl habsent
  · exact .inr (.inl ⟨rfl, hin, hout⟩)
  · by_cases hin : (c.substitute input).isNull = true
    · exact .inr (.inl ⟨rfl, hin, (hnull hin).symm⟩)
    · exact .inr (.inr ⟨hne, fun hboth => hin hboth.2, hexamined⟩)

end Combinator

namespace Validator

/-- Whatever the one tree accepts, the other accepts with the same output. -/
def AcceptedBy (v v' : Validator) : Prop :=
  ∀ (raw : Bool) (input out : Field), v.validate input raw = .ok out →
    v'.validate input raw = .ok out

theorem AcceptedBy.refl (v : Validator) : v.AcceptedBy v :=
  fun _ _ _ h => h

theorem AcceptedBy.trans {v v' v'' : Validator} (h : v.AcceptedBy v') (h' : v'.AcceptedBy v'') :
    v.AcceptedBy v'' :=
  fun raw input out hout => h' raw input out (h raw input out hout)

/-! ## Scalars -/

theorem acceptedBy_integer {r r' : IntegerRule} (h : r.Relaxes r') :
    (integer r).AcceptedBy (integer r') := by
  intro raw input out hout
  rw [validate_integer_eq] at hout ⊢
  rw [h.common_eq]
  refine Common.settled_mono (fun f g hex => ?_) hout
  obtain ⟨n, hread, hchecks, rfl⟩ := IntegerRule.examine_eq_ok_iff.mp hex
  have hadmits := h.admits (IntegerRule.checks_hold_iff.mp hchecks)
  exact IntegerRule.examine_eq_ok_iff.mpr
    ⟨n, hread, IntegerRule.checks_hold_iff.mpr hadmits, rfl⟩

theorem acceptedBy_number {r r' : NumberRule} (h : r.Relaxes r') :
    (number r).AcceptedBy (number r') := by
  intro raw input out hout
  rw [validate_number_eq] at hout ⊢
  rw [h.common_eq]
  refine Common.settled_mono (fun f g hex => ?_) hout
  obtain ⟨x, hread, hchecks, rfl⟩ := NumberRule.examine_eq_ok_iff.mp hex
  have hadmits := h.admits (NumberRule.checks_hold_iff.mp hchecks)
  exact NumberRule.examine_eq_ok_iff.mpr
    ⟨x, hread, NumberRule.checks_hold_iff.mpr hadmits, rfl⟩

theorem acceptedBy_string {r r' : StringRule} (h : r.Relaxes r') :
    (string r).AcceptedBy (string r') := by
  intro raw input out hout
  rw [validate_string_eq] at hout ⊢
  rw [h.common_eq]
  refine Common.settled_mono (fun f g hex => ?_) hout
  rw [StringRule.examine_eq_ok_iff] at hex ⊢
  rcases hex with ⟨payload, hf, hbinary, hg⟩ | ⟨s, hf, hchecks, hg⟩
  · exact .inl ⟨payload, hf, h.acceptsBinary_eq.trans hbinary, hg⟩
  · have hadmits := h.admits (StringRule.checks_hold_iff.mp hchecks)
    exact .inr ⟨s, hf, StringRule.checks_hold_iff.mpr hadmits, hg⟩

/-! ## Containers -/

/-- An array with weaker rules accepts what it did, and so it does with items that accept more. -/
theorem acceptedBy_array {r r' : ArrayRule} {items items' : Validator}
    (hcommon : r'.common = r.common) (hadmits : ∀ xs, r.Admits xs → r'.Admits xs)
    (hitems : items.AcceptedBy items') : (array r items).AcceptedBy (array r' items') := by
  intro raw input out hout
  rw [validate_array_eq] at hout ⊢
  rw [hcommon]
  refine Common.settled_mono (fun f g hex => ?_) hout
  obtain ⟨xs, ys, hread, hys, hchecks, rfl⟩ := ArrayRule.examine_eq_ok_iff.mp hex
  -- item by item the outputs are the same, so the rule sees the same list
  have hys' : ArrayRule.collect (fun x => items'.validate (.ofJson x) raw) 0 xs = .ok ys := by
    refine ArrayRule.collect_eq_ok_iff.mpr ((ArrayRule.collect_eq_ok_iff.mp hys).imp ?_)
    rintro x y ⟨o, ho, hy⟩
    exact ⟨o, hitems _ _ _ ho, hy⟩
  have hadmitted := hadmits ys (ArrayRule.checks_hold_iff.mp hchecks)
  exact ArrayRule.examine_eq_ok_iff.mpr
    ⟨xs, ys, hread, hys', ArrayRule.checks_hold_iff.mpr hadmitted, rfl⟩

/-- A property of the same name, which clients may send if they might before, and which accepts
what was accepted. -/
structure PropertyAcceptedBy (p p' : String × Validator) : Prop where
  name : p'.1 = p.1
  readOnly : p'.2.isReadOnly = p.2.isReadOnly
  accepted : p.2.AcceptedBy p'.2

theorem PropertyAcceptedBy.refl (p : String × Validator) : PropertyAcceptedBy p p :=
  ⟨rfl, rfl, .refl p.2⟩

theorem PropertyAcceptedBy.declaredOutcome {p p' : String × Validator}
    (h : PropertyAcceptedBy p p') {member : Option Json} {raw : Bool} {f : Field}
    (hf : declaredOutcome p.2 member raw = .ok f) : declaredOutcome p'.2 member raw = .ok f := by
  rw [declaredOutcome_eq_ok_iff] at hf ⊢
  rw [h.readOnly]
  rcases hf with hreadOnly | ⟨hwritable, hval⟩
  · exact .inl hreadOnly
  · exact .inr ⟨hwritable, h.accepted _ _ _ hval⟩

variable {properties properties' : Entries Validator}
  {additional additional' : Additional Validator}

theorem keys_eq_of_acceptedBy (h : List.Forall₂ PropertyAcceptedBy properties properties') :
    Entries.keys properties' = Entries.keys properties := by
  induction h with
  | nil => rfl
  | cons hp _ ih => rw [Entries.keys_cons, Entries.keys_cons, hp.name, ih]

theorem readOnlyNames_eq_of_acceptedBy
    (h : List.Forall₂ PropertyAcceptedBy properties properties') :
    readOnlyNames properties' = readOnlyNames properties := by
  induction h with
  | nil => rfl
  | @cons p p' rest rest' hp _ ih =>
      rw [readOnlyNames, readOnlyNames, List.filter_cons, List.filter_cons, hp.readOnly]
      split
      · rw [List.map_cons, List.map_cons, hp.name]
        exact congrArg (p.1 :: ·) ih
      · exact ih

/-- Where every outcome was an output, none of them changes. -/
theorem memberOutcomes_eq_of_acceptedBy
    (hproperties : List.Forall₂ PropertyAcceptedBy properties properties')
    (hadditional : ∀ x raw f, validateAdditional additional x raw = .ok f →
      validateAdditional additional' x raw = .ok f) {ms : Entries Json} {raw : Bool}
    (hok : ∀ e ∈ memberOutcomes properties additional ms raw, ∃ f, e.2 = .ok f) :
    memberOutcomes properties' additional' ms raw =
      memberOutcomes properties additional ms raw := by
  rw [memberOutcomes, List.forall_mem_append, List.forall_mem_map, List.forall_mem_map] at hok
  rw [memberOutcomes, memberOutcomes, keys_eq_of_acceptedBy hproperties]
  congr 1
  · have hdeclared := hok.1
    clear hok
    induction hproperties with
    | nil => rfl
    | @cons p p' rest rest' hp _ ih =>
        rw [List.forall_mem_cons] at hdeclared
        obtain ⟨f, hf⟩ := hdeclared.1
        have hf' := hp.declaredOutcome hf
        rw [List.map_cons, List.map_cons, ih hdeclared.2, hp.name, hf']
        exact congrArg (fun r => (p.1, r) :: _) hf.symm
  · refine List.map_congr_left fun m hm => ?_
    obtain ⟨f, hf⟩ := hok.2 m hm
    rw [hadditional _ _ _ hf]
    exact congrArg (Prod.mk m.1) hf.symm

/-- An object accepts what it did if less is required, more is admitted, and every property and the
other members accept what they did. -/
theorem acceptedBy_object {r r' : ObjectRule} (hcommon : r'.common = r.common)
    (hrequired : ∀ name ∈ r'.required, name ∈ r.required)
    (hadmits : ∀ ms, r.Admits ms → r'.Admits ms)
    (hproperties : List.Forall₂ PropertyAcceptedBy properties properties')
    (hadditional : ∀ x raw f, validateAdditional additional x raw = .ok f →
      validateAdditional additional' x raw = .ok f) :
    (object r properties additional).AcceptedBy (object r' properties' additional') := by
  intro raw input out hout
  rw [validate_object_eq] at hout ⊢
  rw [hcommon]
  refine Common.settled_mono (fun f g hex => ?_) hout
  obtain ⟨ms, hms, hasked, hok, hchecks, hg⟩ := examineObject_eq_ok_iff.mp hex
  have hsame := memberOutcomes_eq_of_acceptedBy hproperties hadditional hok
  have hadmitted := hadmits _ (ObjectRule.checks_hold_iff.mp hchecks)
  refine examineObject_eq_ok_iff.mpr ⟨ms, hms, ?_, ?_, ?_, ?_⟩
  · intro name hname hreadOnly
    rw [readOnlyNames_eq_of_acceptedBy hproperties] at hreadOnly
    exact hasked name (hrequired name hname) hreadOnly
  · rw [hsame]
    exact hok
  · rw [hsame]
    exact ObjectRule.checks_hold_iff.mpr hadmitted
  · rw [hsame]
    exact hg

/-! ## Combinators -/

variable {c : Common} {branches branches' : List Validator}

/-- The branch that a discriminator picks stays the one that is asked. -/
theorem dispatch_of_acceptedBy (hbranches : List.Forall₂ AcceptedBy branches branches')
    {d : Discriminator} {f g : Field} {raw : Bool} {keyword : String}
    (h : dispatch branches d f raw keyword = .ok g) :
    dispatch branches' d f raw keyword = .ok g := by
  obtain ⟨index, b, hselect, hb, hval⟩ := dispatch_eq_ok_iff.mp h
  obtain ⟨b', hb', haccepted⟩ := exists_getElem?_of_forall₂ hbranches hb
  exact dispatch_eq_ok_iff.mpr ⟨index, b', hselect, hb', haccepted _ _ _ hval⟩

theorem acceptedBy_oneOf (hbranches : List.Forall₂ AcceptedBy branches branches')
    (d : Discriminator) : (oneOf c branches (some d)).AcceptedBy (oneOf c branches' (some d)) := by
  intro raw input out hout
  rw [validate_oneOf_eq] at hout ⊢
  exact Combinator.settled_mono (fun f g hex => dispatch_of_acceptedBy hbranches hex) hout

theorem acceptedBy_anyOf (hbranches : List.Forall₂ AcceptedBy branches branches')
    (d : Discriminator) : (anyOf c branches (some d)).AcceptedBy (anyOf c branches' (some d)) := by
  intro raw input out hout
  rw [validate_anyOf_eq] at hout ⊢
  exact Combinator.settled_mono (fun f g hex => dispatch_of_acceptedBy hbranches hex) hout

/-- All branches accept what they did, so that the outputs to be merged are the same. -/
theorem acceptedBy_allOf (hbranches : List.Forall₂ AcceptedBy branches branches') :
    (allOf c branches).AcceptedBy (allOf c branches') := by
  intro raw input out hout
  rw [validate_allOf_eq] at hout ⊢
  refine Combinator.settled_mono (fun f g hex => ?_) hout
  obtain ⟨fs, hfs, hmerge⟩ := Combinator.everyOne_eq_ok_iff.mp hex
  refine Combinator.everyOne_eq_ok_iff.mpr ⟨fs, ?_, hmerge⟩
  clear hout hex hmerge
  induction hbranches generalizing fs with
  | nil => exact hfs
  | cons hb _ ih =>
      cases fs with
      | nil => cases hfs
      | cons o rest =>
          rw [List.map_cons, List.map_cons, List.cons.injEq] at hfs ⊢
          exact ⟨hb _ _ _ hfs.1, ih rest hfs.2⟩

/-! ## One change -/

/-- The same tree, with null allowed at its root. -/
def allowingNull (v : Validator) : Validator := v.withCommon v.common.allowingNull

/-- One thing less is asked for at one node of the tree. -/
inductive Relaxes : Validator → Validator → Prop
  | nullable (v : Validator) : Relaxes v v.allowingNull
  | integer {r r' : IntegerRule} : r.Relaxes r' → Relaxes (integer r) (integer r')
  | number {r r' : NumberRule} : r.Relaxes r' → Relaxes (number r) (number r')
  | string {r r' : StringRule} : r.Relaxes r' → Relaxes (string r) (string r')
  | array {r r' : ArrayRule} {items : Validator} : r.Relaxes r' →
      Relaxes (array r items) (array r' items)
  | object {r r' : ObjectRule} {properties : Entries Validator}
      {additional : Additional Validator} : r.Relaxes r' →
      Relaxes (object r properties additional) (object r' properties additional)
  | allowAdditional {r : ObjectRule} {properties : Entries Validator} :
      Relaxes (object r properties .deny) (object r properties .allow)
  | items {r : ArrayRule} {items items' : Validator} : Relaxes items items' →
      Relaxes (array r items) (array r items')
  | property {r : ObjectRule} {before after : Entries Validator} {name : String}
      {v v' : Validator} {additional : Additional Validator} : Relaxes v v' →
      Relaxes (object r (before ++ (name, v) :: after) additional)
        (object r (before ++ (name, v') :: after) additional)
  | additional {r : ObjectRule} {properties : Entries Validator} {s s' : Validator} :
      Relaxes s s' → Relaxes (object r properties (.schema s)) (object r properties (.schema s'))
  | oneOf {c : Common} {before after : List Validator} {v v' : Validator}
      {d : Option Discriminator} : Relaxes v v' →
      Relaxes (oneOf c (before ++ v :: after) d) (oneOf c (before ++ v' :: after) d)
  | anyOf {c : Common} {before after : List Validator} {v v' : Validator}
      {d : Option Discriminator} : Relaxes v v' →
      Relaxes (anyOf c (before ++ v :: after) d) (anyOf c (before ++ v' :: after) d)
  | allOf {c : Common} {before after : List Validator} {v v' : Validator} : Relaxes v v' →
      Relaxes (allOf c (before ++ v :: after)) (allOf c (before ++ v' :: after))

/-- Which branch answers for the node does not hang on what other branches accept: a discriminator
picks it, or all branches answer together. -/
def IsDirected : Validator → Prop
  | oneOf _ _ d => d.isSome = true
  | anyOf _ _ d => d.isSome = true
  | allOf _ branches => branches ≠ []
  | _ => True

theorem IsDirected.mergesSome {v : Validator} (h : v.IsDirected) : v.MergesSome := by
  cases v with
  | allOf c branches => exact h
  | _ => trivial

variable {v v' : Validator}

theorem Relaxes.isReadOnly_eq (h : v.Relaxes v') : v'.isReadOnly = v.isReadOnly := by
  cases h with
  | nullable v => rw [isReadOnly, allowingNull, common_withCommon, isReadOnly, Common.allowingNull]
  | integer hr => exact congrArg Common.readOnly hr.common_eq
  | number hr => exact congrArg Common.readOnly hr.common_eq
  | string hr => exact congrArg Common.readOnly hr.common_eq
  | array hr => exact congrArg Common.readOnly hr.common_eq
  | object hr => exact congrArg Common.readOnly hr.common_eq
  | _ => rfl

/-- Allowing null changes no answer: a null that was let through was answered with null. -/
theorem acceptedBy_allowingNull (hv : v.Everywhere MergesSome) : v.AcceptedBy v.allowingNull := by
  intro raw input out hout
  have hnull : (v.common.substitute input).isNull = true → out = .null := by
    intro hin
    have hthere : v.common.substitute input ≠ .absent := by
      intro habsent
      rw [habsent] at hin
      cases hin
    have hsame : v.validate (v.common.substitute input) raw = .ok out := by
      rw [← hout]
      apply validate_congr_substitute
      exact Common.substitute_of_ne_absent hthere
    exact (isNull_iff_eq_null hv hthere hsame).mp hin
  rcases v.validate_withCommon raw with ⟨type, examine, hsettled⟩ | ⟨examine, hsettled⟩
  · have hv' := hsettled v.common input
    rw [withCommon_common, hout] at hv'
    rw [allowingNull, hsettled]
    exact Common.settled_allowingNull hv'.symm
  · have hv' := hsettled v.common input
    rw [withCommon_common, hout] at hv'
    rw [allowingNull, hsettled]
    exact Combinator.settled_allowingNull hv'.symm hnull

/-- A node other than the changed one accepts what it did, once the changed child does. -/
theorem Relaxes.acceptedBy (h : v.Relaxes v') (hv : v.Everywhere IsDirected) :
    v.AcceptedBy v' := by
  induction h with
  | nullable v => exact acceptedBy_allowingNull (hv.mono fun _ => IsDirected.mergesSome)
  | integer hr => exact acceptedBy_integer hr
  | number hr => exact acceptedBy_number hr
  | string hr => exact acceptedBy_string hr
  | array hr => exact acceptedBy_array hr.common_eq (fun _ => hr.admits) (.refl _)
  | object hr =>
      exact acceptedBy_object hr.common_eq hr.required_subset (fun _ => hr.admits)
        (List.forall₂_same.mpr fun p _ => .refl p) (fun _ _ _ hf => hf)
  | allowAdditional =>
      refine acceptedBy_object rfl (fun _ hn => hn) (fun _ ha => ha)
        (List.forall₂_same.mpr fun p _ => .refl p) ?_
      -- where other members are denied, none is an output
      intro x raw f hf
      rw [validateAdditional] at hf
      cases hf
  | items _ ih =>
      exact acceptedBy_array rfl (fun _ ha => ha) (ih (hv.child List.mem_cons_self))
  | @property r before after name v v' additional hchange ih =>
      have hmem : (name, v) ∈ before ++ (name, v) :: after :=
        List.mem_append_right before List.mem_cons_self
      have haccepted := ih (hv.child (mem_children_of_property hmem))
      exact acceptedBy_object rfl (fun _ hn => hn) (fun _ ha => ha)
        (forall₂_replace .refl ⟨rfl, hchange.isReadOnly_eq, haccepted⟩ before after)
        (fun _ _ _ hf => hf)
  | @additional r properties s s' _ ih =>
      have haccepted := ih (hv.child List.mem_cons_self)
      refine acceptedBy_object rfl (fun _ hn => hn) (fun _ ha => ha)
        (List.forall₂_same.mpr fun p _ => .refl p) ?_
      intro x raw f hf
      rw [validateAdditional] at hf ⊢
      exact haccepted _ _ _ hf
  | @oneOf c before after v v' d _ ih =>
      have haccepted := ih (hv.child (List.mem_append_right before List.mem_cons_self))
      obtain ⟨d, rfl⟩ := Option.isSome_iff_exists.mp hv.here
      exact acceptedBy_oneOf (forall₂_replace .refl haccepted before after) d
  | @anyOf c before after v v' d _ ih =>
      have haccepted := ih (hv.child (List.mem_append_right before List.mem_cons_self))
      obtain ⟨d, rfl⟩ := Option.isSome_iff_exists.mp hv.here
      exact acceptedBy_anyOf (forall₂_replace .refl haccepted before after) d
  | @allOf c before after v v' _ ih =>
      have haccepted := ih (hv.child (List.mem_append_right before List.mem_cons_self))
      exact acceptedBy_allOf (forall₂_replace .refl haccepted before after)

/-! ## Many changes -/

/-- A node that is put in the place of another keeps a property of whole trees, if its new children
have it. -/
theorem Everywhere.of_children {P : Validator → Prop} (hv : v.Everywhere P) (h : P v')
    (hchildren : ∀ c ∈ v'.children, c ∈ v.children ∨ c.Everywhere P) : v'.Everywhere P := by
  refine .node h fun c hc => ?_
  rcases hchildren c hc with hold | hnew
  · exact hv.child hold
  · exact hnew

theorem mem_children_object_iff {r : ObjectRule} {properties : Entries Validator}
    {additional : Additional Validator} :
    v ∈ (object r properties additional).children ↔
      additional = .schema v ∨ ∃ name, (name, v) ∈ properties := by
  cases additional with
  | schema s => simp [children, eq_comm]
  | _ => simp [children]

/-- Changes make no undirected node. -/
theorem Relaxes.isDirected (h : v.Relaxes v') (hv : v.Everywhere IsDirected) :
    v'.Everywhere IsDirected := by
  induction h with
  | nullable v =>
      refine hv.of_children ?_ fun c hc => .inl ?_
      · have hhere := hv.here
        cases v <;> exact hhere
      · rw [allowingNull, children_withCommon] at hc
        exact hc
  | integer _ => exact .leaf trivial rfl
  | number _ => exact .leaf trivial rfl
  | string _ => exact .leaf trivial rfl
  | array _ => exact hv.of_children trivial fun c hc => .inl hc
  | object _ =>
      refine hv.of_children trivial fun c hc => .inl ?_
      rw [mem_children_object_iff] at hc ⊢
      exact hc
  | allowAdditional => exact hv.of_children trivial fun c hc => .inl hc
  | items _ ih =>
      refine hv.of_children trivial fun c hc => .inr ?_
      rw [List.mem_singleton.mp hc]
      exact ih (hv.child List.mem_cons_self)
  | @property r before after name v v' additional _ ih =>
      have hmem : (name, v) ∈ before ++ (name, v) :: after :=
        List.mem_append_right before List.mem_cons_self
      refine hv.of_children trivial fun c hc => ?_
      rw [mem_children_object_iff] at hc ⊢
      rcases hc with hadditional | ⟨other, hother⟩
      · exact .inl (.inl hadditional)
      · rcases mem_replaced hother (name, v) with heq | hold
        · cases heq
          exact .inr (ih (hv.child (mem_children_of_property hmem)))
        · exact .inl (.inr ⟨other, hold⟩)
  | @additional r properties s s' _ ih =>
      refine hv.of_children trivial fun c hc => ?_
      rcases List.mem_cons.mp hc with rfl | hc
      · exact .inr (ih (hv.child List.mem_cons_self))
      · exact .inl (List.mem_cons_of_mem _ hc)
  | @oneOf c before after v v' d _ ih =>
      refine hv.of_children hv.here fun b hb => ?_
      rcases mem_replaced hb v with rfl | hold
      · exact .inr (ih (hv.child (List.mem_append_right before List.mem_cons_self)))
      · exact .inl hold
  | @anyOf c before after v v' d _ ih =>
      refine hv.of_children hv.here fun b hb => ?_
      rcases mem_replaced hb v with rfl | hold
      · exact .inr (ih (hv.child (List.mem_append_right before List.mem_cons_self)))
      · exact .inl hold
  | @allOf c before after v v' _ ih =>
      refine hv.of_children (by simp [IsDirected]) fun b hb => ?_
      rcases mem_replaced hb v with rfl | hold
      · exact .inr (ih (hv.child (List.mem_append_right before List.mem_cons_self)))
      · exact .inl hold

/-- What a tree accepts, a relaxed tree accepts with the same output. -/
theorem validate_of_relaxed (hv : v.Everywhere IsDirected)
    (h : Relation.ReflTransGen Relaxes v v') {input out : Field} {raw : Bool}
    (hout : v.validate input raw = .ok out) : v'.validate input raw = .ok out := by
  have hrun : v.AcceptedBy v' ∧ v'.Everywhere IsDirected := by
    induction h with
    | refl => exact ⟨.refl v, hv⟩
    | tail _ hstep ih =>
        obtain ⟨haccepted, hdirected⟩ := ih
        exact ⟨haccepted.trans (hstep.acceptedBy hdirected), hstep.isDirected hdirected⟩
  exact hrun.1 raw input out hout

/-! ## A payment -/

/-- A payment by card: it asks for the number, and for nothing else. -/
def cardPayment : Validator :=
  .object { required := ["kind", "number"] }
    [("kind", .string {}), ("number", .string { minLength := some 4 })] .deny

/-- A payment by card where a short number will do, or none, and notes may be added. -/
def easyCardPayment : Validator :=
  .object { required := ["kind"] } [("kind", .string {}), ("number", .string {})] .allow

/-- A payment in cash. -/
def cashPayment : Validator := .object {} [("kind", .string {})] .allow

/-- A payment by one of the two, which its kind tells. -/
def payment (card : Validator) : Validator :=
  .oneOf {} [card, cashPayment] (some ⟨"kind", [("card", 0), ("cash", 1)]⟩)

/-- What a client sends. -/
def paymentSent : Field :=
  .value (.object [("kind", .string "card"), ("number", .string "12345")])

/-- The client is not broken by four changes at three nodes. -/
theorem paymentSent_relaxed :
    (payment cardPayment).validate paymentSent false = .ok paymentSent ∧
      (payment easyCardPayment).allowingNull.validate paymentSent false = .ok paymentSent := by
  have haccepted : (payment cardPayment).validate paymentSent false = .ok paymentSent := by cbv
  have hdirected : (payment cardPayment).Everywhere IsDirected := by
    refine .node rfl fun b hb => ?_
    rcases List.mem_cons.mp hb with rfl | hb
    · refine .node trivial fun c hc => ?_
      rcases List.mem_cons.mp hc with rfl | hc
      · exact .leaf trivial rfl
      · rw [List.mem_singleton.mp hc]
        exact .leaf trivial rfl
    · rw [List.mem_singleton.mp hb]
      refine .node trivial fun c hc => ?_
      rw [List.mem_singleton.mp hc]
      exact .leaf trivial rfl
  have hrelaxes : Relation.ReflTransGen Relaxes (payment cardPayment)
      (payment easyCardPayment).allowingNull := by
    have hrequired : Relaxes cardPayment (.object { required := ["kind"] }
        [("kind", .string {}), ("number", .string { minLength := some 4 })] .deny) :=
      .object (.required "number")
    have hnumber : Relaxes
        (.object { required := ["kind"] }
          [("kind", .string {}), ("number", .string { minLength := some 4 })] .deny)
        (.object { required := ["kind"] } [("kind", .string {}), ("number", .string {})] .deny) :=
      @Relaxes.property _ [("kind", .string {})] [] "number" _ _ _
        (.string (.minLength (.dropped 4)))
    have hallow : Relaxes
        (.object { required := ["kind"] } [("kind", .string {}), ("number", .string {})] .deny)
        easyCardPayment := .allowAdditional
    have hbranch : ∀ v v', Relaxes v v' → Relaxes (payment v) (payment v') :=
      fun v v' h => @Relaxes.oneOf _ [] [cashPayment] _ _ _ h
    exact .head (hbranch _ _ hrequired) (.head (hbranch _ _ hnumber)
      (.head (hbranch _ _ hallow) (.single (.nullable _))))
  exact ⟨haccepted, validate_of_relaxed hdirected hrelaxes haccepted⟩

end Validator

end SchemaGate
