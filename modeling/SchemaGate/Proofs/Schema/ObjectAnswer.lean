import Mathlib
import SchemaGate.Proofs.Schema.Output
import SchemaGate.Proofs.Schema.Rules

/-!
# What an object node answers

An object node looks at the members of an object in three rounds: at the names that are required,
at the value of each member, and at the number of members that have come out. The first round that
finds a fault gives the answer, and a round over names reports all that it finds.

`Validator.ObjectAnswer` says this without an order of evaluation: which errors there are under
which names, and which members the output has (`Validator.IsOutput`). That there is no other answer
is `Validator.validate_object_answers`.
-/

namespace SchemaGate

/-! ## The number of members -/

namespace ObjectRule

/-- The verdict on an output with these members, going by their number. -/
inductive Counted (r : ObjectRule) (ms : Entries Json) : Outcome → Prop
  | few {k : Nat} : r.minProperties = some k → ms.length < k →
      Counted r ms (.error (.message ("number of properties must be more than " ++ toString k)))
  | many {k : Nat} : (∀ m ∈ r.minProperties, m ≤ ms.length) → r.maxProperties = some k →
      k < ms.length →
      Counted r ms (.error (.message ("number of properties must be less than " ++ toString k)))
  | admitted : r.Admits ms → Counted r ms (.ok (.value (.object ms)))

/-- The checks on the number of members give this verdict. -/
theorem counted_checked (r : ObjectRule) (ms : Entries Json) :
    r.Counted ms (checked (r.checks ms) (.value (.object ms))) := by
  rw [checked, checks]
  by_cases hmin : ∀ k ∈ r.minProperties, k ≤ ms.length
  · by_cases hmax : ∀ k ∈ r.maxProperties, ms.length ≤ k
    · have hadmits : r.Admits ms := ⟨hmin, hmax⟩
      rw [← checks, checkAll_eq_ok_iff.mpr (checks_hold_iff.mpr hadmits)]
      exact .admitted hadmits
    · push Not at hmax
      obtain ⟨k, hk, hlt⟩ := hmax
      have hmany := Counted.many hmin hk hlt
      cases hlow : r.minProperties with
      | none => simpa [checkAll, Option.mem_def.mp hk, hlt.not_ge] using hmany
      | some m => simpa [checkAll, Option.mem_def.mp hk, hlt.not_ge, hmin m hlow] using hmany
  · push Not at hmin
    obtain ⟨k, hk, hlt⟩ := hmin
    simpa [checkAll, Option.mem_def.mp hk, hlt.not_ge] using Counted.few hk hlt

end ObjectRule

namespace Validator

/-! ## The answer -/

section

variable (rule : ObjectRule) (properties : Entries Validator) (members : Entries Json) (raw : Bool)

/-- The name is required and not there, and it is none that clients must not send. -/
def Misses (name : String) : Prop :=
  name ∈ rule.required ∧ name ∉ Entries.keys members ∧
    ∀ v, (name, v) ∈ properties → v.isReadOnly = false

/-- Something is wrong with what was sent, or not sent, under the name. -/
inductive MemberError : Additional Validator → String → ErrorTree → Prop
  | readOnly {additional : Additional Validator} {name : String} {v : Validator} :
      (name, v) ∈ properties → v.isReadOnly = true → name ∈ Entries.keys members →
      MemberError additional name (.message "property is read-only")
  | declared {additional : Additional Validator} {name : String} {v : Validator}
      {e : ErrorTree} : (name, v) ∈ properties → v.isReadOnly = false →
      v.validate (.ofOption (Entries.get? name members)) raw = .error e →
      MemberError additional name e
  | denied {name : String} : name ∈ Entries.keys members → name ∉ Entries.keys properties →
      MemberError .deny name (.message "additional property not allowed")
  | additional {s : Validator} {name : String} {x : Json} {e : ErrorTree} :
      (name, x) ∈ members → name ∉ Entries.keys properties →
      s.validate (.ofJson x) raw = .error e → MemberError (.schema s) name e

/-- The declared property has this value for what was sent, or not sent, under its name. -/
def DeclaredValue (name : String) (y : Json) : Prop :=
  ∃ v f, (name, v) ∈ properties ∧ v.isReadOnly = false ∧
    v.validate (.ofOption (Entries.get? name members)) raw = .ok f ∧ f.toJson? = some y

/-- What becomes of a member that no property declares. -/
inductive OtherValue : Additional Validator → String → Json → Prop
  | asSent {name : String} {x : Json} : (name, x) ∈ members → OtherValue .allow name x
  | validated {s : Validator} {name : String} {x y : Json} {f : Field} : (name, x) ∈ members →
      s.validate (.ofJson x) raw = .ok f → f.toJson? = some y → OtherValue (.schema s) name y

variable (additional : Additional Validator)

/-- The members that come out: those of declared properties by name, then one for each member
that no property declares. -/
structure IsOutput (declared others : Entries Json) : Prop where
  declared : declared.IsTable (DeclaredValue properties members raw)
  names : (Entries.keys others).Perm
    ((Entries.keys members).filter fun name => name ∉ Entries.keys properties)
  others : ∀ name y, (name, y) ∈ others → OtherValue members raw additional name y

/-- The answer to an object with these members. -/
inductive ObjectAnswer : Outcome → Prop
  | missing {errors : ErrorMap} : (∃ name, Misses rule properties members name) →
      errors.IsTable (fun name e =>
        Misses rule properties members name ∧ e = .message "required property") →
      ObjectAnswer (.error (.nested errors))
  | faulty {errors : ErrorMap} : (∀ name, ¬ Misses rule properties members name) →
      (∃ name e, MemberError properties members raw additional name e) →
      errors.IsTable (MemberError properties members raw additional) →
      ObjectAnswer (.error (.nested errors))
  | counted {declared others : Entries Json} {answer : Outcome} :
      (∀ name, ¬ Misses rule properties members name) →
      (∀ name e, ¬ MemberError properties members raw additional name e) →
      IsOutput properties members raw additional declared others →
      rule.Counted (declared ++ others) answer → ObjectAnswer answer

end

variable {rule : ObjectRule} {properties : Entries Validator} {additional : Additional Validator}
  {members : Entries Json} {raw : Bool}

/-! ## What is missing -/

theorem mem_readOnlyNames_iff {name : String} :
    name ∈ readOnlyNames properties ↔ ∃ v, (name, v) ∈ properties ∧ v.isReadOnly = true := by
  simp [readOnlyNames]

/-- The missing members are those that are required, not there and not read-only, all with the same
message. -/
theorem isTable_missing (rule : ObjectRule) (properties : Entries Validator)
    (members : Entries Json) :
    (rule.missing (readOnlyNames properties) members).IsTable fun name e =>
      Misses rule properties members name ∧ e = .message "required property" := by
  refine ⟨Entries.ascending_sorted _, fun name e => ?_⟩
  have hmisses : Misses rule properties members name ↔
      name ∈ (rule.required.filter fun name => !Entries.has name members).filter
        fun name => !(readOnlyNames properties).contains name := by
    rw [List.mem_filter, List.mem_filter, Bool.not_eq_true', Bool.not_eq_true',
      ← Bool.not_eq_true, ← Bool.not_eq_true, Entries.has_iff, List.contains_iff_mem,
      mem_readOnlyNames_iff, Misses, and_assoc]
    simp
  rw [hmisses]
  constructor
  · intro h
    obtain ⟨other, hother, heq⟩ := List.mem_map.mp (Entries.mem_of_mem_sorted h)
    cases heq
    exact ⟨hother, rfl⟩
  · rintro ⟨hname, rfl⟩
    -- the name has an entry, and all entries are alike
    have hkey := List.mem_map_of_mem
      (f := fun name => (name, ErrorTree.message "required property")) hname
    obtain ⟨e, he⟩ := Entries.exists_of_mem_keys
      (Entries.mem_keys_sorted.mpr (Entries.mem_keys_of_mem hkey))
    obtain ⟨other, -, heq⟩ := List.mem_map.mp (Entries.mem_of_mem_sorted he)
    cases heq
    exact he

/-! ## What is faulty -/

/-- A name is at fault exactly where the outcomes of the members have an error for it. -/
theorem memberError_iff (hm : (Entries.keys members).Nodup) {name : String} {e : ErrorTree} :
    (name, .error e) ∈ memberOutcomes properties additional members raw ↔
      MemberError properties members raw additional name e := by
  rw [mem_memberOutcomes]
  constructor
  · rintro (⟨⟨k, v⟩, hv, heq⟩ | ⟨⟨k, x⟩, hx, heq⟩)
    · obtain ⟨rfl, herror⟩ := Prod.mk.inj heq
      rcases declaredOutcome_eq_error_iff.mp herror with ⟨hreadOnly, hsent, rfl⟩ | ⟨hsent, he⟩
      · refine .readOnly hv hreadOnly ?_
        by_contra hk
        exact hsent (Entries.get?_eq_none_iff.mpr hk)
      · exact .declared hv hsent he
    · obtain ⟨rfl, herror⟩ := Prod.mk.inj heq
      obtain ⟨hx, hk⟩ := (ObjectRule.mem_leftovers_iff_of_nodup hm).mp hx
      rcases validateAdditional_eq_error_iff.mp herror with ⟨rfl, rfl⟩ | ⟨s, rfl, he⟩
      · exact .denied (Entries.mem_keys_of_mem hx) hk
      · exact .additional hx hk he
  · intro h
    cases h with
    | readOnly hv hreadOnly hsent =>
        refine .inl ⟨_, hv, Prod.ext rfl (declaredOutcome_eq_error_iff.mpr (.inl ?_))⟩
        exact ⟨hreadOnly, fun hnone => Entries.get?_eq_none_iff.mp hnone hsent, rfl⟩
    | declared hv hsent he =>
        exact .inl ⟨_, hv, Prod.ext rfl (declaredOutcome_eq_error_iff.mpr (.inr ⟨hsent, he⟩))⟩
    | denied hsent hk =>
        obtain ⟨x, hx⟩ := Entries.exists_of_mem_keys hsent
        refine .inr ⟨(name, x), (ObjectRule.mem_leftovers_iff_of_nodup hm).mpr ⟨hx, hk⟩, ?_⟩
        exact Prod.ext rfl (validateAdditional_eq_error_iff.mpr (.inl ⟨rfl, rfl⟩))
    | @additional s _ x _ hx hk he =>
        refine .inr ⟨(name, x), (ObjectRule.mem_leftovers_iff_of_nodup hm).mpr ⟨hx, hk⟩, ?_⟩
        exact Prod.ext rfl (validateAdditional_eq_error_iff.mpr (.inr ⟨s, rfl, he⟩))

theorem isTable_failures (hp : (Entries.keys properties).Nodup)
    (hm : (Entries.keys members).Nodup) :
    (ObjectRule.failures (memberOutcomes properties additional members raw)).IsTable
      (MemberError properties members raw additional) := by
  refine ⟨ObjectRule.ascending_failures _, fun name e => ?_⟩
  rw [ObjectRule.mem_failures_iff (nodup_memberOutcomes hp hm), memberError_iff hm]

/-! ## What comes out -/

/-- Values of declared properties come out in the order of their names. -/
theorem isTable_declared (hp : Entries.Ascending properties) :
    (ObjectRule.outputs (properties.map fun p =>
      (p.1, declaredOutcome p.2 (Entries.get? p.1 members) raw))).IsTable
      (DeclaredValue properties members raw) := by
  constructor
  · have hkeys := Entries.keys_map
      (fun name v => declaredOutcome v (Entries.get? name members) raw) properties
    rw [ObjectRule.outputs_eq]
    exact List.Pairwise.sublist (Entries.keys_filterMap_sublist Outcome.json? _) (hkeys ▸ hp)
  · intro name y
    rw [ObjectRule.mem_outputs]
    constructor
    · rintro ⟨f, hf, hy⟩
      obtain ⟨⟨k, v⟩, hv, heq⟩ := List.mem_map.mp hf
      obtain ⟨rfl, hok⟩ := Prod.mk.inj heq
      rcases declaredOutcome_eq_ok_iff.mp hok with ⟨-, -, rfl⟩ | ⟨hreadOnly, hval⟩
      · cases hy
      · exact ⟨v, f, hv, hreadOnly, hval, hy⟩
    · rintro ⟨v, f, hv, hreadOnly, hval, hy⟩
      refine ⟨f, List.mem_map.mpr ⟨_, hv, Prod.ext rfl ?_⟩, hy⟩
      exact declaredOutcome_eq_ok_iff.mpr (.inr ⟨hreadOnly, hval⟩)

/-- The other members are those without a declaration, in some order. -/
theorem keys_leftovers_perm (hm : (Entries.keys members).Nodup) :
    (Entries.keys (ObjectRule.leftovers (Entries.keys properties) members)).Perm
      ((Entries.keys members).filter fun name => name ∉ Entries.keys properties) := by
  refine (List.perm_ext_iff_of_nodup (ObjectRule.nodup_leftovers _ hm)
    (hm.filter _)).mpr fun name => ?_
  rw [List.mem_filter, decide_eq_true_eq]
  constructor
  · intro h
    refine ⟨ObjectRule.mem_keys_of_mem_keys_leftovers h, fun hname => ?_⟩
    exact ObjectRule.not_mem_keys_leftovers hm hname h
  · rintro ⟨h, hname⟩
    obtain ⟨x, hx⟩ := Entries.exists_of_mem_keys h
    exact Entries.mem_keys_of_mem
      ((ObjectRule.mem_leftovers_iff_of_nodup hm).mpr ⟨hx, hname⟩)

/-- Where every outcome has a value, no name is lost on the way to the output. -/
theorem keys_outputs_of_forall {outcomes : Entries Outcome}
    (h : ∀ o ∈ outcomes, ∃ y, Outcome.json? o.2 = some y) :
    Entries.keys (ObjectRule.outputs outcomes) = Entries.keys outcomes := by
  rw [ObjectRule.outputs_eq]
  induction outcomes with
  | nil => rfl
  | cons o rest ih =>
      rw [List.forall_mem_cons] at h
      obtain ⟨y, hy⟩ := h.1
      simp only [List.filterMap_cons, hy, Option.map_some, Entries.keys_cons, ih h.2]

/-- Where no member is at fault, the output is the declared part and then the other members. -/
theorem isOutput_outputs (hp : Entries.Ascending properties) (hm : (Entries.keys members).Nodup)
    (hs : ∀ s, additional = .schema s → s.Everywhere MergesSome)
    (hok : ∀ name e, ¬ MemberError properties members raw additional name e) :
    ∃ declared others, IsOutput properties members raw additional declared others ∧
      ObjectRule.outputs (memberOutcomes properties additional members raw) =
        declared ++ others := by
  refine ⟨_, _, ⟨isTable_declared hp, ?_, ?_⟩, ObjectRule.outputs_append _ _⟩
  · rw [keys_outputs_of_forall, Entries.keys_map fun _ x => validateAdditional additional x raw]
    · exact keys_leftovers_perm hm
    · intro o ho
      obtain ⟨⟨name, x⟩, -, rfl⟩ := List.mem_map.mp ho
      cases hx : validateAdditional additional x raw with
      | ok f => exact exists_output_of_additional hs hx
      | error e =>
          exact absurd ((memberError_iff hm).mp (List.mem_append_right _ (hx ▸ ho))) (hok _ e)
  · intro name y hy
    obtain ⟨f, hmem, hfy⟩ := ObjectRule.mem_outputs.mp hy
    obtain ⟨⟨k, x⟩, hx, heq⟩ := List.mem_map.mp hmem
    obtain ⟨rfl, hval⟩ := Prod.mk.inj heq
    have hsent := ObjectRule.mem_of_mem_leftovers hx
    rcases validateAdditional_eq_ok_iff.mp hval with ⟨rfl, rfl⟩ | ⟨s, rfl, hf⟩
    · cases hfy
      exact .asSent hsent
    · exact .validated hsent hf hfy

/-! ## Putting the rounds together -/

/-- An object node whose properties have their names in order gives the one answer that there is,
provided no node that other members are validated with drops them. -/
theorem validate_object_answers (hp : Entries.Ascending properties)
    (hm : (Entries.keys members).Nodup)
    (hs : ∀ s, additional = .schema s → s.Everywhere MergesSome) :
    ObjectAnswer rule properties members raw additional
      ((object rule properties additional).validate (.value (.object members)) raw) := by
  rw [validate_object_eq, Common.settled_eq_of_isGiven ⟨rfl, rfl⟩, examineObject]
  have hmissing := isTable_missing rule properties members
  have hfailures : (ObjectRule.failures (memberOutcomes properties additional members raw)).IsTable
      (MemberError properties members raw additional) := isTable_failures hp.nodup hm
  split
  · rename_i hnone
    have hthere : ∀ name, ¬ Misses rule properties members name := by
      intro name hname
      exact hmissing.eq_nil_iff.mp hnone name _ ⟨hname, rfl⟩
    unfold ObjectRule.conclude
    split
    · rename_i hfine
      have hok := hfailures.eq_nil_iff.mp hfine
      obtain ⟨declared, others, hout, heq⟩ := isOutput_outputs hp hm hs hok
      refine .counted hthere hok hout ?_
      rw [heq]
      exact rule.counted_checked _
    · rename_i hsome
      refine .faulty hthere ?_ hfailures
      by_contra hno
      push Not at hno
      exact hsome (hfailures.eq_nil_iff.mpr hno)
  · rename_i hsome
    refine .missing ?_ hmissing
    by_contra hno
    push Not at hno
    exact hsome (hmissing.eq_nil_iff.mpr fun name e h => hno name h.1)

/-! ## Signing up -/

/-- What is declared of a new member: the number is not theirs to choose. -/
def signUpProperties : Entries Validator :=
  [("id", .string { common := { readOnly := true } }), ("name", .string {}),
    ("role", .string { common := { default? := some (.string "guest") } })]

/-- The number is required, but not of those who sign up. -/
def signUpRule : ObjectRule := { required := ["id", "name"], minProperties := some 2 }

/-- Other members are topics, to be switched on or off. -/
def signUp : Validator := .object signUpRule signUpProperties (.schema (.boolean {}))

/-- A form without a role. -/
def signUpSent : Entries Json :=
  [("news", .string "true"), ("name", .string "Ann"), ("mail", .string "false")]

/-- What is read from the form. -/
def signUpRead : Entries Json :=
  [("name", .string "Ann"), ("role", .string "guest"), ("news", .bool true), ("mail", .bool false)]

/-- A form with three faults. -/
def signUpMistaken : Entries Json :=
  [("news", .string "maybe"), ("name", .bool true), ("id", .string "7")]

/-- The faults, by name. -/
def signUpErrors : ErrorMap :=
  [("id", .message "property is read-only"), ("name", .message "value should be type of str"),
    ("news", .message "value should be type of bool")]

/-- The first form is answered with its members, the second with all that is wrong with it. -/
theorem signUp_answers :
    (signUp.validate (.value (.object signUpSent)) true = .ok (.value (.object signUpRead)) ∧
      ObjectAnswer signUpRule signUpProperties signUpSent true (.schema (.boolean {}))
        (.ok (.value (.object signUpRead)))) ∧
    signUp.validate (.value (.object signUpMistaken)) true = .error (.nested signUpErrors) ∧
      ObjectAnswer signUpRule signUpProperties signUpMistaken true (.schema (.boolean {}))
        (.error (.nested signUpErrors)) := by
  have hread : signUp.validate (.value (.object signUpSent)) true =
      .ok (.value (.object signUpRead)) := by cbv
  have herrors : signUp.validate (.value (.object signUpMistaken)) true =
      .error (.nested signUpErrors) := by cbv
  have hnames : Entries.Ascending signUpProperties := by
    unfold Entries.Ascending
    decide
  have htopics : ∀ s : Validator,
      Additional.schema (boolean {}) = .schema s → s.Everywhere MergesSome := by
    rintro s ⟨⟩
    exact .leaf trivial rfl
  refine ⟨⟨hread, ?_⟩, herrors, ?_⟩
  · rw [← hread]
    exact validate_object_answers hnames (by decide) htopics
  · rw [← herrors]
    exact validate_object_answers hnames (by decide) htopics

end Validator

end SchemaGate
