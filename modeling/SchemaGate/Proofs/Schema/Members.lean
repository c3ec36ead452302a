import SchemaGate.Proofs.Lists
import SchemaGate.Proofs.Schema.Settled

/-!
# Members of an object, by name

Validation of an object makes a list of outcomes: one for each declared property, then one for
each member that no property declares. Here the list is read by name, so that the order in which
`ObjectRule.leftovers` leaves the other members does not matter:

* `ObjectRule.get?_leftovers` and `ObjectRule.mem_leftovers_iff`: taking the declared names away
  keeps every other member and no more;
* `ObjectRule.get?_outputs`: the output has under a name what the outcome of that name stands for;
* `Validator.get?_memberOutcomes`: the outcome of a name is decided by the property that declares
  it and the member that the input has, and by nothing else.
-/

namespace SchemaGate

namespace ObjectRule

/-! ## Members that no property declares -/

theorem leftovers_cons (name : String) (names : List String) (ms : Entries Json) :
    leftovers (name :: names) ms = leftovers names (Entries.withdraw name ms) := rfl

theorem mem_of_mem_leftovers {names : List String} {m : String × Json} {ms : Entries Json}
    (h : m ∈ leftovers names ms) : m ∈ ms := by
  induction names generalizing ms with
  | nil => exact h
  | cons name rest ih => exact Entries.mem_of_mem_withdraw (ih h)

/-- A member of another name is not lost. -/
theorem mem_leftovers_iff {names : List String} {m : String × Json} {ms : Entries Json}
    (hm : m.1 ∉ names) : m ∈ leftovers names ms ↔ m ∈ ms := by
  induction names generalizing ms with
  | nil => exact Iff.rfl
  | cons name rest ih =>
      rw [List.mem_cons, not_or] at hm
      rw [leftovers_cons, ih hm.2, Entries.mem_withdraw_of_ne hm.1]

theorem mem_keys_of_mem_keys_leftovers {names : List String} {k : String} {ms : Entries Json}
    (h : k ∈ Entries.keys (leftovers names ms)) : k ∈ Entries.keys ms := by
  obtain ⟨x, hx⟩ := Entries.exists_of_mem_keys h
  exact Entries.mem_keys_of_mem (mem_of_mem_leftovers hx)

theorem nodup_leftovers (names : List String) {ms : Entries Json}
    (hd : (Entries.keys ms).Nodup) : (Entries.keys (leftovers names ms)).Nodup := by
  induction names generalizing ms with
  | nil => exact hd
  | cons name rest ih => exact ih (Entries.nodup_withdraw hd name)

/-- Where no key repeats, no declared name is left. -/
theorem not_mem_keys_leftovers {names : List String} {k : String} {ms : Entries Json}
    (hd : (Entries.keys ms).Nodup) (hk : k ∈ names) : k ∉ Entries.keys (leftovers names ms) := by
  induction names generalizing ms with
  | nil => exact absurd hk List.not_mem_nil
  | cons name rest ih =>
      rcases List.mem_cons.mp hk with rfl | hk
      · intro hin
        exact Entries.not_mem_keys_withdraw hd k (mem_keys_of_mem_keys_leftovers hin)
      · exact ih (Entries.nodup_withdraw hd name) hk

theorem mem_leftovers_iff_of_nodup {names : List String} {m : String × Json} {ms : Entries Json}
    (hd : (Entries.keys ms).Nodup) : m ∈ leftovers names ms ↔ m ∈ ms ∧ m.1 ∉ names := by
  constructor
  · intro h
    refine ⟨mem_of_mem_leftovers h, fun hm => ?_⟩
    exact not_mem_keys_leftovers hd hm (Entries.mem_keys_of_mem (v := m.2) h)
  · rintro ⟨h, hm⟩
    exact (mem_leftovers_iff hm).mpr h

/-- Taking names away leaves the other members as they are. -/
theorem get?_leftovers {names : List String} {k : String} {ms : Entries Json}
    (hd : (Entries.keys ms).Nodup) :
    Entries.get? k (leftovers names ms) = if k ∈ names then none else Entries.get? k ms := by
  split
  · rename_i hk
    exact Entries.get?_eq_none_iff.mpr (not_mem_keys_leftovers hd hk)
  · rename_i hk
    refine Option.ext fun x => ?_
    rw [Entries.get?_eq_some_iff (nodup_leftovers names hd), mem_leftovers_iff hk,
      Entries.get?_eq_some_iff hd]

end ObjectRule

/-! ## Outputs of outcomes -/

namespace Outcome

/-- The value that an outcome puts into the output. -/
def json? : Outcome → Option Json
  | .ok f => f.toJson?
  | .error _ => none

/-- The failure of an outcome. -/
def error? : Outcome → Option ErrorTree
  | .ok _ => none
  | .error e => some e

theorem error?_eq_some_iff {r : Outcome} {e : ErrorTree} : error? r = some e ↔ r = .error e := by
  cases r <;> simp [error?]

end Outcome

namespace ObjectRule

theorem outputs_eq (outcomes : Entries Outcome) :
    outputs outcomes = outcomes.filterMap fun e => (Outcome.json? e.2).map fun v => (e.1, v) := by
  refine List.filterMap_congr ?_
  rintro ⟨name, r⟩ -
  cases r <;> rfl

theorem outputs_append (as bs : Entries Outcome) :
    outputs (as ++ bs) = outputs as ++ outputs bs :=
  List.filterMap_append

/-- The outputs are the successes that are something, under their names. -/
theorem mem_outputs {outcomes : Entries Outcome} {k : String} {x : Json} :
    (k, x) ∈ outputs outcomes ↔ ∃ f, (k, .ok f) ∈ outcomes ∧ f.toJson? = some x := by
  rw [outputs_eq, List.mem_filterMap]
  constructor
  · rintro ⟨⟨name, r⟩, he, hx⟩
    obtain ⟨v, hv, heq⟩ := Option.map_eq_some_iff.mp hx
    cases heq
    cases r with
    | ok f => exact ⟨f, he, hv⟩
    | error e => cases hv
  · rintro ⟨f, he, hx⟩
    exact ⟨_, he, Option.map_eq_some_iff.mpr ⟨x, hx, rfl⟩⟩

theorem nodup_outputs {outcomes : Entries Outcome} (hd : (Entries.keys outcomes).Nodup) :
    (Entries.keys (outputs outcomes)).Nodup := by
  rw [outputs_eq]
  exact hd.sublist (Entries.keys_filterMap_sublist Outcome.json? outcomes)

theorem get?_outputs {outcomes : Entries Outcome} {k : String}
    (hd : (Entries.keys outcomes).Nodup) :
    Entries.get? k (outputs outcomes) = (Entries.get? k outcomes).bind Outcome.json? := by
  rw [outputs_eq]
  exact Entries.get?_filterMap Outcome.json? hd

/-! ## Failures of outcomes -/

theorem failures_eq (outcomes : Entries Outcome) :
    failures outcomes = Entries.sorted
      (outcomes.filterMap fun o => (Outcome.error? o.2).map fun e => (o.1, e)) := by
  refine congrArg Entries.sorted (List.filterMap_congr ?_)
  rintro ⟨name, r⟩ -
  cases r <;> rfl

theorem ascending_failures (outcomes : Entries Outcome) :
    Entries.Ascending (failures outcomes) :=
  Entries.ascending_sorted _

/-- Where no name repeats, the failure of a name is that of its outcome. -/
theorem get?_failures {outcomes : Entries Outcome} {k : String}
    (hd : (Entries.keys outcomes).Nodup) :
    Entries.get? k (failures outcomes) = (Entries.get? k outcomes).bind Outcome.error? := by
  have hd' := hd.sublist (Entries.keys_filterMap_sublist Outcome.error? outcomes)
  rw [failures_eq, Entries.get?_sorted, ← Entries.get?_eq_of_perm (List.reverse_perm _).symm hd',
    Entries.get?_filterMap Outcome.error? hd]

/-- What is reported is an outcome. -/
theorem mem_of_mem_failures {outcomes : Entries Outcome} {k : String} {e : ErrorTree}
    (h : (k, e) ∈ failures outcomes) : (k, .error e) ∈ outcomes := by
  rw [failures_eq] at h
  obtain ⟨⟨name, r⟩, ho, heq⟩ := List.mem_filterMap.mp (Entries.mem_of_mem_sorted h)
  obtain ⟨x, hx, hpair⟩ := Option.map_eq_some_iff.mp heq
  cases hpair
  exact Outcome.error?_eq_some_iff.mp hx ▸ ho

/-- Where no name repeats, every failure is reported. -/
theorem mem_failures_iff {outcomes : Entries Outcome} (hd : (Entries.keys outcomes).Nodup)
    {k : String} {e : ErrorTree} : (k, e) ∈ failures outcomes ↔ (k, .error e) ∈ outcomes := by
  refine ⟨mem_of_mem_failures, fun h => Entries.mem_of_get? ?_⟩
  rw [get?_failures hd, (Entries.get?_eq_some_iff hd).mpr h]
  rfl

theorem mem_keys_failures {outcomes : Entries Outcome} {k : String} :
    k ∈ Entries.keys (failures outcomes) ↔ ∃ e, (k, .error e) ∈ outcomes := by
  constructor
  · intro hk
    obtain ⟨e, he⟩ := Entries.exists_of_mem_keys hk
    exact ⟨e, mem_of_mem_failures he⟩
  · rintro ⟨e, he⟩
    rw [failures_eq, Entries.mem_keys_sorted]
    exact Entries.mem_keys_of_mem (List.mem_filterMap.mpr ⟨_, he, rfl⟩)

/-- Of two failures under one name the later is reported. -/
theorem get?_failures_append (k : String) (as bs : Entries Outcome) :
    Entries.get? k (failures (as ++ bs)) =
      (Entries.get? k (failures bs)).or (Entries.get? k (failures as)) := by
  simp only [failures_eq, Entries.get?_sorted, List.filterMap_append, List.reverse_append,
    Entries.get?_append]

theorem get?_failures_singleton (k name : String) (r : Outcome) :
    Entries.get? k (failures [(name, r)]) = if name = k then Outcome.error? r else none := by
  rw [failures_eq, Entries.get?_sorted]
  cases r with
  | ok f => simp [Outcome.error?]
  | error e => simp [Outcome.error?]

/-- What is reported under a name is the failure of the last outcome of the name that is one. -/
theorem get?_failures_eq_some_iff {outcomes : Entries Outcome} {k : String} {e : ErrorTree} :
    Entries.get? k (failures outcomes) = some e ↔
      LastWhere (fun o => o.1 = k ∧ ∃ e', o.2 = .error e') outcomes (k, .error e) := by
  rw [failures_eq, Entries.get?_sorted_filterMap_eq_some_iff]
  simp only [Outcome.error?_eq_some_iff]
  constructor
  · rintro ⟨r, hlast, rfl⟩
    exact hlast
  · intro hlast
    exact ⟨_, hlast, rfl⟩

end ObjectRule

/-! ## Outcomes of members -/

namespace Validator

variable {properties : Entries Validator} {additional : Additional Validator}
  {members : Entries Json} {raw : Bool} {k : String}

theorem declaredOutcome_eq_ok_iff {v : Validator} {member : Option Json} {f : Field} :
    declaredOutcome v member raw = .ok f ↔
      (v.isReadOnly = true ∧ member = none ∧ .absent = f) ∨
      (v.isReadOnly = false ∧ v.validate (.ofOption member) raw = .ok f) := by
  rw [declaredOutcome]
  cases v.isReadOnly with
  | true => cases member <;> simp [readOnlyOutcome]
  | false => simp

theorem validateAdditional_eq_ok_iff {x : Json} {f : Field} :
    validateAdditional additional x raw = .ok f ↔
      (additional = .allow ∧ .value x = f) ∨
      ∃ s, additional = .schema s ∧ s.validate (.ofJson x) raw = .ok f := by
  cases additional <;> simp [validateAdditional]

theorem declaredOutcome_eq_error_iff {v : Validator} {member : Option Json} {e : ErrorTree} :
    declaredOutcome v member raw = .error e ↔
      (v.isReadOnly = true ∧ member ≠ none ∧ .message "property is read-only" = e) ∨
      (v.isReadOnly = false ∧ v.validate (.ofOption member) raw = .error e) := by
  rw [declaredOutcome]
  cases v.isReadOnly with
  | true => cases member <;> simp [readOnlyOutcome]
  | false => simp

theorem validateAdditional_eq_error_iff {x : Json} {e : ErrorTree} :
    validateAdditional additional x raw = .error e ↔
      (additional = .deny ∧ .message "additional property not allowed" = e) ∨
      ∃ s, additional = .schema s ∧ s.validate (.ofJson x) raw = .error e := by
  cases additional <;> simp [validateAdditional]

/-- An outcome belongs to a declared property or to one of the other members. -/
theorem mem_memberOutcomes {e : String × Outcome} :
    e ∈ memberOutcomes properties additional members raw ↔
      (∃ p ∈ properties, (p.1, declaredOutcome p.2 (Entries.get? p.1 members) raw) = e) ∨
      (∃ m ∈ ObjectRule.leftovers (Entries.keys properties) members,
        (m.1, validateAdditional additional m.2 raw) = e) := by
  rw [memberOutcomes, List.mem_append, List.mem_map, List.mem_map]

/-- A name has one outcome at most. -/
theorem nodup_memberOutcomes (hp : (Entries.keys properties).Nodup)
    (hm : (Entries.keys members).Nodup) :
    (Entries.keys (memberOutcomes properties additional members raw)).Nodup := by
  rw [memberOutcomes, Entries.keys, List.map_append, ← Entries.keys, ← Entries.keys,
    Entries.keys_map fun name v => declaredOutcome v (Entries.get? name members) raw,
    Entries.keys_map fun _ x => validateAdditional additional x raw]
  -- declared names are taken away before the others are looked at
  refine List.nodup_append.mpr ⟨hp, ObjectRule.nodup_leftovers _ hm, ?_⟩
  rintro a ha b hb rfl
  exact ObjectRule.not_mem_keys_leftovers hm ha hb

/-- The outcome of a name, given what declares it and what the input has under it. -/
def outcomeOf (additional : Additional Validator) (declared : Option Validator)
    (member : Option Json) (raw : Bool) : Option Outcome :=
  match declared with
  | some v => some (declaredOutcome v member raw)
  | none => member.map fun x => validateAdditional additional x raw

/-- The outcome of a name depends on what declares it and what stands under it, and on no other
member. -/
theorem get?_memberOutcomes (hm : (Entries.keys members).Nodup) :
    Entries.get? k (memberOutcomes properties additional members raw) =
      outcomeOf additional (Entries.get? k properties) (Entries.get? k members) raw := by
  rw [memberOutcomes, Entries.get?_append,
    Entries.get?_map fun name v => declaredOutcome v (Entries.get? name members) raw,
    Entries.get?_map fun _ x => validateAdditional additional x raw,
    ObjectRule.get?_leftovers hm]
  cases hv : Entries.get? k properties with
  | some v => rfl
  | none =>
      rw [if_neg (Entries.get?_eq_none_iff.mp hv)]
      rfl

end Validator

end SchemaGate
