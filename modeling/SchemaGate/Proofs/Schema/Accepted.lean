import SchemaGate.Proofs.Schema.Settled

/-!
# Accepted inputs

`Validator.Accepted` lists the ways in which a node can accept an input, one for each kind of node
besides the two that need no examination, and `Validator.accepted_of_validate` says that there are
no others. What holds of all outputs is proved by going through the list.
-/

namespace SchemaGate.Validator

/-- The node accepts the input with this output. What stands below the node is asked through
`validate` again. -/
inductive Accepted (raw : Bool) : Validator → Field → Field → Prop
  | absent {v : Validator} {input : Field} : v.common.substitute input = .absent →
      Accepted raw v input .absent
  | null {v : Validator} {input : Field} : (v.common.substitute input).isNull = true →
      v.common.nullable = true → Accepted raw v input .null
  | integer {rule : IntegerRule} {input : Field} {n : WideInt} :
      IntegerRule.read (rule.common.substitute input) raw = some n →
      (∀ c ∈ rule.checks n, c.1 = true) →
      Accepted raw (integer rule) input (.value (.number (.int n)))
  | number {rule : NumberRule} {input : Field} {x : Binary64} :
      NumberRule.read (rule.common.substitute input) raw = some x →
      (∀ c ∈ rule.checks x, c.1 = true) →
      Accepted raw (number rule) input (.value (.number (.float x)))
  | payload {rule : StringRule} {input : Field} {payload : Utf8.Octets} :
      rule.common.substitute input = .binary payload → rule.acceptsBinary = true →
      Accepted raw (string rule) input (.binary payload)
  | string {rule : StringRule} {input : Field} {s : String} :
      rule.common.substitute input = .value (.string s) → (∀ c ∈ rule.checks s, c.1 = true) →
      Accepted raw (string rule) input (.value (.string s))
  | boolean {c : Common} {input : Field} {b : Bool} :
      Common.readBool (c.substitute input) raw = some b →
      Accepted raw (boolean c) input (.value (.bool b))
  | array {rule : ArrayRule} {items : Validator} {input : Field} {xs ys : List Json} :
      ArrayRule.read (rule.common.substitute input) raw = some xs →
      ArrayRule.collect (fun x => items.validate (.ofJson x) raw) 0 xs = .ok ys →
      (∀ c ∈ rule.checks ys, c.1 = true) →
      Accepted raw (array rule items) input (.value (.array ys))
  | object {rule : ObjectRule} {properties : Entries Validator}
      {additional : Additional Validator} {input : Field} {ms : Entries Json} :
      rule.common.substitute input = .value (.object ms) →
      (∀ name ∈ rule.required, name ∉ readOnlyNames properties → name ∈ Entries.keys ms) →
      (∀ e ∈ memberOutcomes properties additional ms raw, ∃ f, e.2 = .ok f) →
      (∀ c ∈ rule.checks (ObjectRule.outputs (memberOutcomes properties additional ms raw)),
        c.1 = true) →
      Accepted raw (object rule properties additional) input
        (.value (.object (ObjectRule.outputs (memberOutcomes properties additional ms raw))))
  | oneOf {c : Common} {branches : List Validator} {discriminator : Option Discriminator}
      {b : Validator} {input out : Field} : Answers branches discriminator b →
      c.substitute input ≠ .absent → b.validate (c.substitute input) raw = .ok out →
      Accepted raw (oneOf c branches discriminator) input out
  | anyOf {c : Common} {branches : List Validator} {discriminator : Option Discriminator}
      {b : Validator} {input out : Field} : Answers branches discriminator b →
      c.substitute input ≠ .absent → b.validate (c.substitute input) raw = .ok out →
      Accepted raw (anyOf c branches discriminator) input out
  | allOf {c : Common} {branches : List Validator} {input : Field} {fs : List Field} :
      c.substitute input ≠ .absent →
      (branches.map fun b => b.validate (c.substitute input) raw) = fs.map .ok →
      Accepted raw (allOf c branches) input (Combinator.merge fs)

variable {raw : Bool} {v : Validator} {input out : Field}

theorem accepted_of_settled {type : String} {examine : Field → Outcome}
    (h : v.common.settled type examine input = .ok out)
    (given : examine (v.common.substitute input) = .ok out → Accepted raw v input out) :
    Accepted raw v input out := by
  rcases Common.settled_eq_ok_iff.mp h with ⟨habsent, rfl⟩ | ⟨hnull, hn, rfl⟩ | ⟨-, hexamined⟩
  · exact .absent habsent
  · exact .null hnull hn
  · exact given hexamined

theorem accepted_of_settledChoice {examine : Field → Outcome}
    (h : Combinator.settled v.common examine input = .ok out)
    (given : v.common.substitute input ≠ .absent →
      examine (v.common.substitute input) = .ok out → Accepted raw v input out) :
    Accepted raw v input out := by
  rcases Combinator.settled_eq_ok_iff.mp h with ⟨habsent, rfl⟩ | ⟨hn, hnull, rfl⟩ | ⟨hne, -, hout⟩
  · exact .absent habsent
  · exact .null hnull hn
  · exact given hne hout

/-- There is no other way to accept an input. -/
theorem accepted_of_validate (h : v.validate input raw = .ok out) : Accepted raw v input out := by
  cases v with
  | integer rule =>
      rw [validate_integer_eq] at h
      refine accepted_of_settled (v := integer rule) h fun hexamined => ?_
      obtain ⟨n, hread, hchecks, rfl⟩ := IntegerRule.examine_eq_ok_iff.mp hexamined
      exact .integer hread hchecks
  | number rule =>
      rw [validate_number_eq] at h
      refine accepted_of_settled (v := number rule) h fun hexamined => ?_
      obtain ⟨x, hread, hchecks, rfl⟩ := NumberRule.examine_eq_ok_iff.mp hexamined
      exact .number hread hchecks
  | string rule =>
      rw [validate_string_eq] at h
      refine accepted_of_settled (v := string rule) h fun hexamined => ?_
      rcases StringRule.examine_eq_ok_iff.mp hexamined with
        ⟨payload, hp, hbinary, rfl⟩ | ⟨s, hs, hchecks, rfl⟩
      · exact .payload hp hbinary
      · exact .string hs hchecks
  | boolean c =>
      rw [validate_boolean_eq] at h
      refine accepted_of_settled (v := boolean c) h fun hexamined => ?_
      obtain ⟨b, hread, rfl⟩ := Common.examineBool_eq_ok_iff.mp hexamined
      exact .boolean hread
  | array rule items =>
      rw [validate_array_eq] at h
      refine accepted_of_settled (v := array rule items) h fun hexamined => ?_
      obtain ⟨xs, ys, hread, hys, hchecks, rfl⟩ := ArrayRule.examine_eq_ok_iff.mp hexamined
      exact .array hread hys hchecks
  | object rule properties additional =>
      rw [validate_object_eq] at h
      refine accepted_of_settled (v := object rule properties additional) h fun hexamined => ?_
      obtain ⟨ms, hms, hrequired, hok, hchecks, rfl⟩ := examineObject_eq_ok_iff.mp hexamined
      exact .object hms hrequired hok hchecks
  | oneOf c branches discriminator =>
      rw [validate_oneOf_eq] at h
      refine accepted_of_settledChoice (v := oneOf c branches discriminator) h fun hne hout => ?_
      obtain ⟨b, hb, hvb⟩ :=
        exists_answer_of_examineChoice (fun _ _ => Combinator.mem_of_exactlyOne) hout
      exact .oneOf hb hne hvb
  | anyOf c branches discriminator =>
      rw [validate_anyOf_eq] at h
      refine accepted_of_settledChoice (v := anyOf c branches discriminator) h fun hne hout => ?_
      obtain ⟨b, hb, hvb⟩ :=
        exists_answer_of_examineChoice (fun _ _ => Combinator.mem_of_firstOf) hout
      exact .anyOf hb hne hvb
  | allOf c branches =>
      rw [validate_allOf_eq] at h
      refine accepted_of_settledChoice (v := allOf c branches) h fun hne hout => ?_
      obtain ⟨fs, hfs, rfl⟩ := Combinator.everyOne_eq_ok_iff.mp hout
      exact .allOf hne hfs

end SchemaGate.Validator
