import Mathlib
import SchemaGate.Proofs.Schema.KeyOrder
import SchemaGate.Proofs.Schema.Presence

/-!
# Members left to their defaults

A declared property that has a default may be left out: the object is answered as if the default
had been sent (`Validator.validate_put_default`). The two runs take the declared members away from
different lists, so that the order of the others may differ; name by name there is no difference.
-/

namespace SchemaGate

/-- A member under another name changes nothing about the names that are missing. -/
theorem ObjectRule.missing_put {r : ObjectRule} {name : String} (h : name ∉ r.required)
    (readOnly : List String) (x : Json) (ms : Entries Json) :
    r.missing readOnly (Entries.put name x ms) = r.missing readOnly ms := by
  have hhas : r.required.filter (fun other => !Entries.has other (Entries.put name x ms)) =
      r.required.filter fun other => !Entries.has other ms := by
    refine List.filter_congr fun other hother => ?_
    have hne : name ≠ other := by
      rintro rfl
      exact h hother
    rw [Entries.has, Entries.has, Entries.get?_put, if_neg hne]
  rw [missing, missing, hhas]

namespace Validator

variable {rule : ObjectRule} {properties : Entries Validator} {additional : Additional Validator}
  {members : Entries Json} {raw : Bool} {name : String} {v : Validator} {d : Json}

theorem declaredOutcome_none_eq (hread : v.isReadOnly = false) (hd : v.common.default? = some d) :
    declaredOutcome v none raw = declaredOutcome v (some d) raw := by
  simp only [declaredOutcome, hread, Bool.false_eq_true, if_false]
  exact validate_absent_eq hd

/-- Sending the default gives no name another outcome. -/
theorem get?_memberOutcomes_put (hp : (Entries.keys properties).Nodup)
    (hm : (Entries.keys members).Nodup) (hv : (name, v) ∈ properties)
    (hread : v.isReadOnly = false) (hd : v.common.default? = some d)
    (hleft : name ∉ Entries.keys members) (k : String) :
    Entries.get? k (memberOutcomes properties additional (Entries.put name d members) raw) =
      Entries.get? k (memberOutcomes properties additional members raw) := by
  rw [get?_memberOutcomes (Entries.nodup_put hm name d), get?_memberOutcomes hm, Entries.get?_put]
  by_cases hk : name = k
  · subst hk
    rw [if_pos rfl, (Entries.get?_eq_some_iff hp).mpr hv, Entries.get?_eq_none_iff.mpr hleft,
      outcomeOf, outcomeOf, declaredOutcome_none_eq hread hd]
  · rw [if_neg hk]

/-- An object without the member of a property that has a default, and is neither required nor
read-only, is answered as with the default sent: with the same errors, or with outputs that differ
only in the order of members. -/
theorem validate_put_default (hp : (Entries.keys properties).Nodup)
    (hm : (Entries.keys members).Nodup) (hv : (name, v) ∈ properties)
    (hread : v.isReadOnly = false) (hd : v.common.default? = some d)
    (hrequired : name ∉ rule.required) (hleft : name ∉ Entries.keys members) :
    Outcome.Reorders ((object rule properties additional).validate (.value (.object members)) raw)
      ((object rule properties additional).validate
        (.value (.object (Entries.put name d members))) raw) := by
  rw [validate_object_eq, validate_object_eq, Common.settled_eq_of_isGiven ⟨rfl, rfl⟩,
    Common.settled_eq_of_isGiven ⟨rfl, rfl⟩]
  refine examineObject_reorders_of_outcomes hp hm (Entries.nodup_put hm name d)
    (ObjectRule.missing_put hrequired _ d members).symm fun k => ?_
  rw [get?_memberOutcomes_put hp hm hv hread hd hleft]
  cases Entries.get? k (memberOutcomes properties additional members raw) with
  | none => exact .none
  | some r => exact .some (Outcome.reorders_refl r)

/-! ## Booking a seat -/

/-- Those who say nothing get no window: the property is a switch or a text. -/
def windowSeat : Validator :=
  .oneOf { default? := some (.bool false) } [.boolean {}, .string {}] none

/-- A journey, with a remark or two. -/
def trip : Validator :=
  .object { required := ["from"], minProperties := some 5 }
    [("from", .string {}), ("to", .string {}), ("window", windowSeat)] .allow

/-- A journey without a wish. -/
def tripSent : Entries Json :=
  [("from", .string "Ulm"), ("to", .string "Bonn"), ("bike", .bool true), ("dog", .bool true)]

/-- Without the wish the remarks come out in another order. -/
theorem tripSent_reorders :
    trip.validate (.value (.object tripSent)) true =
        .ok (.value (.object [("from", .string "Ulm"), ("to", .string "Bonn"),
          ("window", .bool false), ("dog", .bool true), ("bike", .bool true)])) ∧
      trip.validate
          (.value (.object (Entries.put "window" (.bool false) tripSent))) true =
        .ok (.value (.object [("from", .string "Ulm"), ("to", .string "Bonn"),
          ("window", .bool false), ("bike", .bool true), ("dog", .bool true)])) ∧
      Outcome.Reorders (trip.validate (.value (.object tripSent)) true)
        (trip.validate
          (.value (.object (Entries.put "window" (.bool false) tripSent))) true) := by
  refine ⟨by cbv, by cbv, ?_⟩
  exact validate_put_default (v := windowSeat) (by decide) (by decide)
    (List.mem_cons_of_mem _ (List.mem_cons_of_mem _ List.mem_cons_self)) rfl rfl (by decide)
    (by decide)

end Validator

end SchemaGate
