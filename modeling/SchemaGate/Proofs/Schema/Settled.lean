import SchemaGate.Proofs.Schema.Tree

/-!
# What a node accepts

Every typed node first settles absent and null inputs and then examines what is left. This module
separates the two steps (`Common.settled`) and says, kind by kind, exactly when an examination
succeeds and with which output:

* `IntegerRule.examine_eq_ok_iff`, `NumberRule.examine_eq_ok_iff`,
  `StringRule.examine_eq_ok_iff`, `Common.examineBool_eq_ok_iff` for scalars;
* `ArrayRule.examine_eq_ok_iff` and `Validator.examineObject_eq_ok_iff` for containers;
* `Validator.exists_answer_of_examineChoice` and `Validator.dispatch_eq_ok_iff` for combinators.

`Validator.validate_withCommon` says of any node that these are its two steps.

Proofs about validation start from these and do not open the functions themselves.
-/

namespace SchemaGate

theorem checkAll_eq_ok_iff {cs : List (Bool × ErrorTree)} :
    checkAll cs = .ok () ↔ ∀ c ∈ cs, c.1 = true := by
  induction cs with
  | nil => simp [checkAll]
  | cons c rest ih =>
      obtain ⟨holds, e⟩ := c
      cases holds <;> simp [checkAll, ih]

/-- Answers with a result if all checks hold, else with the first complaint. -/
def checked (cs : List (Bool × ErrorTree)) (result : Field) : Outcome :=
  match checkAll cs with
  | .error e => .error e
  | .ok () => .ok result

theorem checked_eq_ok_iff {cs : List (Bool × ErrorTree)} {result out : Field} :
    checked cs result = .ok out ↔ (∀ c ∈ cs, c.1 = true) ∧ result = out := by
  rw [← checkAll_eq_ok_iff, checked]
  cases checkAll cs <;> simp

namespace Field

/-- The input is neither absent nor null. -/
def IsGiven (f : Field) : Prop := f.isAbsent = false ∧ f.isNull = false

theorem isAbsent_iff {f : Field} : f.isAbsent = true ↔ f = .absent := by
  cases f <;> simp [isAbsent]

theorem not_isAbsent_iff {f : Field} : (!f.isAbsent) = true ↔ f ≠ .absent := by
  rw [Bool.not_eq_true', ← Bool.not_eq_true, isAbsent_iff]

end Field

/-! ## Settling -/

namespace Common

/-- Settles absent and null inputs and hands the others to an examination. -/
def settled (c : Common) (type : String) (examine : Field → Outcome) (input : Field) : Outcome :=
  match c.settle type input with
  | .error e => .error e
  | .ok (.done output) => .ok output
  | .ok (.check input) => examine input

/-- An input is accepted in one of three ways: nothing was given and nothing stands in, it is null
and may be, or it passes the examination. -/
theorem settled_eq_ok_iff {c : Common} {type : String} {examine : Field → Outcome}
    {input out : Field} :
    c.settled type examine input = .ok out ↔
      (c.substitute input = .absent ∧ .absent = out) ∨
      ((c.substitute input).isNull = true ∧ c.nullable = true ∧ .null = out) ∨
      ((c.substitute input).IsGiven ∧ examine (c.substitute input) = .ok out) := by
  rw [settled, settle]
  generalize c.substitute input = f
  cases f with
  | absent => simp [Field.isAbsent, Field.isNull, Field.IsGiven]
  | null => cases c.nullable <;> simp [Field.isAbsent, Field.isNull, Field.IsGiven]
  | value v =>
      cases v <;> cases c.nullable <;>
        simp [Field.isAbsent, Field.isNull, Field.IsGiven]
  | binary payload => simp [Field.isAbsent, Field.isNull, Field.IsGiven]

/-- What is given is not replaced. -/
theorem substitute_of_isGiven {c : Common} {f : Field} (h : f.IsGiven) : c.substitute f = f := by
  cases f with
  | absent => exact absurd h.1 (by simp [Field.isAbsent])
  | _ => rfl

/-- Without a default nothing is replaced. -/
theorem substitute_of_default_eq_none {c : Common} (h : c.default? = none) (f : Field) :
    c.substitute f = f := by
  cases f with
  | absent =>
      rw [substitute, h]
      rfl
  | _ => rfl

/-- What is given is examined. -/
theorem settled_eq_of_isGiven {c : Common} {type : String} {examine : Field → Outcome} {f : Field}
    (h : f.IsGiven) : c.settled type examine f = examine f := by
  rw [settled, settle, substitute_of_isGiven h]
  simp only [h.1, h.2, Bool.false_eq_true, if_false]

theorem settled_of_isGiven {c : Common} {type : String} {examine : Field → Outcome} {f out : Field}
    (h : f.IsGiven) : c.settled type examine f = .ok out ↔ examine f = .ok out := by
  rw [settled_eq_of_isGiven h]

end Common

/-! ## Scalars -/

namespace IntegerRule

/-- Examines an input that is neither absent nor null. -/
def examine (r : IntegerRule) (input : Field) (raw : Bool) : Outcome :=
  match read input raw with
  | none => .error (typeError "int")
  | some n => checked (r.checks n) (.value (.number (.int n)))

theorem validate_eq (r : IntegerRule) (input : Field) (raw : Bool) :
    r.validate input raw = r.common.settled "int" (r.examine · raw) input := rfl

theorem examine_eq_ok_iff {r : IntegerRule} {f out : Field} {raw : Bool} :
    r.examine f raw = .ok out ↔
      ∃ n, read f raw = some n ∧ (∀ c ∈ r.checks n, c.1 = true) ∧
        .value (.number (.int n)) = out := by
  rw [examine]
  cases read f raw with
  | none => simp
  | some n => simp [checked_eq_ok_iff]

end IntegerRule

namespace NumberRule

/-- Examines an input that is neither absent nor null. -/
def examine (r : NumberRule) (input : Field) (raw : Bool) : Outcome :=
  match read input raw with
  | none => .error (typeError "float")
  | some x => checked (r.checks x) (.value (.number (.float x)))

theorem validate_eq (r : NumberRule) (input : Field) (raw : Bool) :
    r.validate input raw = r.common.settled "float" (r.examine · raw) input := rfl

theorem examine_eq_ok_iff {r : NumberRule} {f out : Field} {raw : Bool} :
    r.examine f raw = .ok out ↔
      ∃ x, read f raw = some x ∧ (∀ c ∈ r.checks x, c.1 = true) ∧
        .value (.number (.float x)) = out := by
  rw [examine]
  cases read f raw with
  | none => simp
  | some n => simp [checked_eq_ok_iff]

end NumberRule

namespace StringRule

/-- Examines an input that is neither absent nor null. -/
def examine (r : StringRule) (input : Field) : Outcome :=
  match input with
  | .binary payload => if r.acceptsBinary then .ok (.binary payload) else .error (typeError "str")
  | .value (.string s) => checked (r.checks s) (.value (.string s))
  | _ => .error (typeError "str")

theorem validate_eq (r : StringRule) (input : Field) :
    r.validate input = r.common.settled "str" r.examine input := by
  rw [validate, Common.settled]
  cases r.common.settle "str" input with
  | error e => rfl
  | ok stage =>
      cases stage with
      | done output => rfl
      | check f =>
          cases f with
          | value v => cases v <;> rfl
          | _ => rfl

theorem examine_eq_ok_iff {r : StringRule} {f out : Field} :
    r.examine f = .ok out ↔
      (∃ payload, f = .binary payload ∧ r.acceptsBinary = true ∧ .binary payload = out) ∨
      (∃ s, f = .value (.string s) ∧ (∀ c ∈ r.checks s, c.1 = true) ∧
        .value (.string s) = out) := by
  cases f with
  | binary payload => cases h : r.acceptsBinary <;> simp [examine, h]
  | value v =>
      cases v with
      | string s => simp [examine, checked_eq_ok_iff]
      | _ => simp [examine]
  | _ => simp [examine]

end StringRule

namespace Common

/-- Examines an input that is neither absent nor null for a truth value. -/
def examineBool (input : Field) (raw : Bool) : Outcome :=
  match readBool input raw with
  | none => .error (typeError "bool")
  | some b => .ok (.value (.bool b))

theorem validateBool_eq (c : Common) (input : Field) (raw : Bool) :
    c.validateBool input raw = c.settled "bool" (examineBool · raw) input := rfl

theorem examineBool_eq_ok_iff {f out : Field} {raw : Bool} :
    examineBool f raw = .ok out ↔ ∃ b, readBool f raw = some b ∧ .value (.bool b) = out := by
  rw [examineBool]
  cases readBool f raw <;> simp

end Common

/-! ## Arrays -/

namespace ArrayRule

/-- Examines an input that is neither absent nor null, given how to validate an item. -/
def examine (r : ArrayRule) (item : Json → Outcome) (input : Field) (raw : Bool) : Outcome :=
  match read input raw with
  | none => .error (typeError "list")
  | some items =>
    match collect item 0 items with
    | .error e => .error e
    | .ok outputs => checked (r.checks outputs) (.value (.array outputs))

theorem validate_eq (r : ArrayRule) (item : Json → Outcome) (input : Field) (raw : Bool) :
    r.validate item input raw = r.common.settled "list" (r.examine item · raw) input := rfl

/-- Items are collected if every one is accepted; each stands for the output in its place. -/
theorem collect_eq_ok_iff {item : Json → Outcome} {index : Nat} {xs ys : List Json} :
    collect item index xs = .ok ys ↔
      List.Forall₂ (fun x y => ∃ f, item x = .ok f ∧ f.toJson?.getD .null = y) xs ys := by
  induction xs generalizing index ys with
  | nil => simp [collect, eq_comm]
  | cons x rest ih =>
      constructor
      · intro h
        rw [collect] at h
        split at h
        · cases h
        · rename_i f hf
          split at h
          · cases h
          · rename_i outputs hrest
            cases h
            exact .cons ⟨f, hf, rfl⟩ (ih.mp hrest)
      · intro h
        cases h with
        | cons hx hrest =>
            obtain ⟨f, hf, rfl⟩ := hx
            rw [collect, hf]
            simp only [ih.mpr hrest]

theorem examine_eq_ok_iff {r : ArrayRule} {item : Json → Outcome} {f out : Field} {raw : Bool} :
    r.examine item f raw = .ok out ↔
      ∃ xs ys, read f raw = some xs ∧ collect item 0 xs = .ok ys ∧
        (∀ c ∈ r.checks ys, c.1 = true) ∧ .value (.array ys) = out := by
  rw [examine]
  cases read f raw with
  | none => simp
  | some xs =>
      cases hc : collect item 0 xs with
      | error e => simp [hc]
      | ok ys => simp [hc, checked_eq_ok_iff]

end ArrayRule

/-! ## Objects -/

namespace ObjectRule

theorem failures_eq_nil_iff {outcomes : Entries Outcome} :
    failures outcomes = [] ↔ ∀ e ∈ outcomes, ∃ f, e.2 = .ok f := by
  rw [failures, Entries.sorted_eq_nil_iff, List.filterMap_eq_nil_iff]
  refine forall₂_congr ?_
  rintro ⟨name, r⟩ -
  cases r <;> simp

theorem conclude_eq_ok_iff {r : ObjectRule} {outcomes : Entries Outcome} {out : Field} :
    r.conclude outcomes = .ok out ↔
      (∀ e ∈ outcomes, ∃ f, e.2 = .ok f) ∧ (∀ c ∈ r.checks (outputs outcomes), c.1 = true) ∧
        .value (.object (outputs outcomes)) = out := by
  rw [← failures_eq_nil_iff, conclude]
  cases failures outcomes with
  | nil =>
      show checked _ _ = .ok out ↔ _
      simp [checked_eq_ok_iff]
  | cons e rest => simp

theorem missing_eq_nil_iff {r : ObjectRule} {readOnly : List String} {members : Entries Json} :
    r.missing readOnly members = [] ↔
      ∀ name ∈ r.required, name ∉ readOnly → name ∈ Entries.keys members := by
  rw [missing, Entries.sorted_eq_nil_iff, List.map_eq_nil_iff, List.filter_eq_nil_iff]
  simp only [List.mem_filter, Bool.not_eq_true', ← Entries.has_iff]
  refine ⟨fun h name hr hn => ?_, fun h name hn hro => ?_⟩
  · by_contra hmissing
    exact h name ⟨hr, by simpa using hmissing⟩ (by simpa using hn)
  · have := h name hn.1 (by simpa using hro)
    rw [this] at hn
    exact Bool.noConfusion hn.2

end ObjectRule

namespace Validator

theorem validate_integer_eq (rule : IntegerRule) (input : Field) (raw : Bool) :
    (integer rule).validate input raw = rule.common.settled "int" (rule.examine · raw) input := by
  rw [validate, IntegerRule.validate_eq]

theorem validate_number_eq (rule : NumberRule) (input : Field) (raw : Bool) :
    (number rule).validate input raw =
      rule.common.settled "float" (rule.examine · raw) input := by
  rw [validate, NumberRule.validate_eq]

theorem validate_string_eq (rule : StringRule) (input : Field) (raw : Bool) :
    (string rule).validate input raw = rule.common.settled "str" rule.examine input := by
  rw [validate, StringRule.validate_eq]

theorem validate_boolean_eq (c : Common) (input : Field) (raw : Bool) :
    (boolean c).validate input raw = c.settled "bool" (Common.examineBool · raw) input := by
  rw [validate, Common.validateBool_eq]

theorem validate_array_eq (rule : ArrayRule) (items : Validator) (input : Field) (raw : Bool) :
    (array rule items).validate input raw =
      rule.common.settled "list"
        (rule.examine (fun x => items.validate (.ofJson x) raw) · raw) input := by
  rw [validate, ArrayRule.validate_eq]

/-- Examines an input that is neither absent nor null against the rules and the properties of an
object. -/
def examineObject (rule : ObjectRule) (properties : Entries Validator)
    (additional : Additional Validator) (input : Field) (raw : Bool) : Outcome :=
  match input with
  | .value (.object members) =>
    match rule.missing (readOnlyNames properties) members with
    | [] => rule.conclude (memberOutcomes properties additional members raw)
    | errors => .error (.nested errors)
  | _ => .error (typeError "dict")

/-- An object node is settled like any other, with its members examined where the input is an
object. -/
theorem validate_object_eq (rule : ObjectRule) (properties : Entries Validator)
    (additional : Additional Validator) (input : Field) (raw : Bool) :
    (object rule properties additional).validate input raw =
      rule.common.settled "dict" (examineObject rule properties additional · raw) input := by
  rw [validate, Common.settled]
  cases rule.common.settle "dict" input with
  | error e => rfl
  | ok stage =>
      cases stage with
      | done output => rfl
      | check f =>
          cases f with
          | value v =>
              cases v with
              | object members =>
                  have houtcomes : propertyOutcomes properties members raw ++
                      (ObjectRule.leftovers (Entries.keys properties) members).map
                        (fun m => (m.1, validateAdditional additional m.2 raw)) =
                      memberOutcomes properties additional members raw :=
                    congrArg (· ++ _) (propertyOutcomes_eq properties members raw)
                  exact congrArg (fun outcomes =>
                    match rule.missing (readOnlyNames properties) members with
                    | [] => rule.conclude outcomes
                    | errors => .error (.nested errors)) houtcomes
              | _ => rfl
          | _ => rfl

/-- An object is accepted if nothing is missing, every member is accepted and the outputs pass the
checks. -/
theorem examineObject_eq_ok_iff {rule : ObjectRule} {properties : Entries Validator}
    {additional : Additional Validator} {f out : Field} {raw : Bool} :
    examineObject rule properties additional f raw = .ok out ↔
      ∃ ms, f = .value (.object ms) ∧
        (∀ name ∈ rule.required, name ∉ readOnlyNames properties → name ∈ Entries.keys ms) ∧
        (∀ e ∈ memberOutcomes properties additional ms raw, ∃ g, e.2 = .ok g) ∧
        (∀ c ∈ rule.checks (ObjectRule.outputs (memberOutcomes properties additional ms raw)),
          c.1 = true) ∧
        .value (.object (ObjectRule.outputs (memberOutcomes properties additional ms raw))) =
          out := by
  cases f with
  | value v =>
      cases v with
      | object ms =>
          rw [examineObject]
          simp only [← ObjectRule.missing_eq_nil_iff, Field.value.injEq, Json.object.injEq,
            exists_eq_left', ← ObjectRule.conclude_eq_ok_iff]
          cases rule.missing (readOnlyNames properties) ms <;> simp
      | _ => simp [examineObject]
  | _ => simp [examineObject]

end Validator

/-! ## Combinators -/

namespace Discriminator

/-- Some text makes the discriminator pick the branch of this index. -/
def Targets (d : Discriminator) (index : Nat) : Prop :=
  ∃ name, Entries.get? name d.targets = some index

theorem targets_of_select {d : Discriminator} {f : Field} {index : Nat}
    (h : d.select f = .ok index) : d.Targets index := by
  unfold select at h
  split at h
  · split at h
    · cases h
    · rename_i v _
      split at h
      · rename_i found hfound
        cases h
        obtain ⟨name, -, hname⟩ := Option.bind_eq_some_iff.mp hfound
        exact ⟨name, hname⟩
      · cases h
  · cases h

end Discriminator

namespace Combinator

/-- Settles absent inputs, and null ones if the combinator allows null itself, and hands the
others to an examination. -/
def settled (c : Common) (examine : Field → Outcome) (input : Field) : Outcome :=
  match settle c input with
  | .done output => .ok output
  | .check input => examine input

/-- A combinator accepts by leaving an absent input absent, by taking null, or by examining. -/
theorem settled_eq_ok_iff {c : Common} {examine : Field → Outcome} {input out : Field} :
    settled c examine input = .ok out ↔
      (c.substitute input = .absent ∧ .absent = out) ∨
      (c.nullable = true ∧ (c.substitute input).isNull = true ∧ .null = out) ∨
      (c.substitute input ≠ .absent ∧ ¬ (c.nullable = true ∧ (c.substitute input).isNull = true) ∧
        examine (c.substitute input) = .ok out) := by
  rw [settled, settle]
  generalize c.substitute input = f
  cases f with
  | absent => simp [Field.isAbsent, Field.isNull]
  | null => cases c.nullable <;> simp [Field.isAbsent, Field.isNull]
  | value v => cases v <;> cases c.nullable <;> simp [Field.isAbsent, Field.isNull]
  | binary payload => cases c.nullable <;> simp [Field.isAbsent, Field.isNull]

theorem mem_accepted {outcomes : List Outcome} {f : Field} :
    f ∈ accepted outcomes ↔ .ok f ∈ outcomes := by
  rw [accepted, List.mem_filterMap]
  constructor
  · rintro ⟨r, hr, hf⟩
    cases r with
    | error e => cases hf
    | ok g =>
        cases hf
        exact hr
  · exact fun h => ⟨.ok f, h, rfl⟩

theorem mem_of_exactlyOne {outcomes : List Outcome} {f : Field}
    (h : exactlyOne outcomes = .ok f) : .ok f ∈ outcomes := by
  unfold exactlyOne at h
  split at h
  · rename_i g hg
    cases h
    exact mem_accepted.mp (hg ▸ List.mem_singleton_self f)
  · cases h

theorem mem_of_firstOf {outcomes : List Outcome} {f : Field}
    (h : firstOf outcomes = .ok f) : .ok f ∈ outcomes := by
  unfold firstOf at h
  split at h
  · rename_i g rest hg
    cases h
    exact mem_accepted.mp (hg ▸ List.mem_cons_self)
  · cases h

theorem length_accepted_le (outcomes : List Outcome) :
    (accepted outcomes).length ≤ outcomes.length :=
  List.length_filterMap_le _ _

/-- As many outputs as outcomes means that every outcome is an output. -/
theorem map_ok_of_length {outcomes : List Outcome}
    (h : (accepted outcomes).length = outcomes.length) :
    outcomes = (accepted outcomes).map .ok := by
  induction outcomes with
  | nil => rfl
  | cons r rest ih =>
      cases r with
      | ok f =>
          have hrest : (accepted rest).length = rest.length := Nat.succ.inj h
          show _ :: rest = _ :: (accepted rest).map .ok
          rw [← ih hrest]
      | error e =>
          -- a failure leaves fewer outputs than outcomes
          have hlen : (accepted rest).length = rest.length + 1 := h
          have hle := length_accepted_le rest
          omega

theorem accepted_map_ok (fs : List Field) : accepted (fs.map .ok) = fs := by
  induction fs with
  | nil => rfl
  | cons f rest ih => exact congrArg (f :: ·) ih

/-- All outcomes have to be outputs, and these are merged. -/
theorem everyOne_eq_ok_iff {outcomes : List Outcome} {out : Field} :
    everyOne outcomes = .ok out ↔ ∃ fs : List Field, outcomes = fs.map .ok ∧ merge fs = out := by
  rw [everyOne]
  constructor
  · intro h
    split at h
    · rename_i hlen
      cases h
      exact ⟨_, map_ok_of_length hlen, rfl⟩
    · cases h
  · rintro ⟨fs, rfl, rfl⟩
    simp [accepted_map_ok]

/-- Outputs have members if they are the objects of those. -/
theorem allMembers_eq_some_iff {fs : List Field} {mss : List (Entries Json)} :
    allMembers fs = some mss ↔ fs = mss.map fun ms => .value (.object ms) := by
  constructor
  · intro h
    induction fs generalizing mss with
    | nil =>
        cases h
        rfl
    | cons f rest ih =>
        rw [allMembers] at h
        split at h
        · rename_i m ms hm hms
          cases h
          unfold members? at hm
          split at hm
          · cases hm
            rw [List.map_cons, ← ih hms]
          · cases hm
        · cases h
  · rintro rfl
    induction mss with
    | nil => rfl
    | cons ms rest ih =>
        rw [List.map_cons, allMembers, ih]
        rfl

theorem mem_of_allMembers {fs : List Field} {mss : List (Entries Json)}
    (h : allMembers fs = some mss) : ∀ ms ∈ mss, .value (.object ms) ∈ fs := by
  intro ms hms
  rw [allMembers_eq_some_iff.mp h]
  exact List.mem_map_of_mem hms

/-- Outputs that are merged are all absent, or all objects, or the last one of them counts. -/
theorem merge_cases (fs : List Field) :
    ((∀ f ∈ fs, f = .absent) ∧ merge fs = .absent) ∨
    (∃ mss : List (Entries Json), (∀ ms ∈ mss, .value (.object ms) ∈ fs) ∧
      merge fs = .value (.object (mss.foldl (fun acc m => Entries.putAll m acc) []))) ∨
    (merge fs ∈ fs ∧ merge fs ≠ .absent) := by
  have hpresent : ∀ f ∈ fs.filter fun f => !f.isAbsent, f ∈ fs ∧ f ≠ .absent := by
    intro f hf
    rw [List.mem_filter] at hf
    refine ⟨hf.1, ?_⟩
    rintro rfl
    exact absurd hf.2 (by simp [Field.isAbsent])
  rw [merge]
  split
  · rename_i hnone
    refine .inl ⟨fun f hf => ?_, rfl⟩
    have hnotin := List.not_mem_nil (a := f)
    rw [← List.getLast?_eq_none_iff.mp hnone, List.mem_filter] at hnotin
    cases f with
    | absent => rfl
    | _ => exact absurd ⟨hf, rfl⟩ hnotin
  · rename_i last hlast
    split
    · rename_i mss hmss
      exact .inr (.inl ⟨mss, fun ms hms => (hpresent _ (mem_of_allMembers hmss ms hms)).1, rfl⟩)
    · exact .inr (.inr (hpresent last (List.mem_of_getLast? hlast)))

end Combinator

namespace Validator

/-- A discriminator answers with the output of the branch that it selects. -/
theorem dispatch_eq_ok_iff {branches : List Validator} {d : Discriminator} {f out : Field}
    {raw : Bool} {keyword : String} :
    dispatch branches d f raw keyword = .ok out ↔
      ∃ index v, d.select f = .ok index ∧ branches[index]? = some v ∧
        v.validate f raw = .ok out := by
  rw [dispatch]
  cases hs : d.select f with
  | error e => simp
  | ok index =>
      simp only [branchOutcome_eq]
      cases hb : branches[index]? with
      | none => simp [hb]
      | some v => cases hv : v.validate f raw <;> simp [hb, hv]

/-- A branch of a combinator that answers for it: one that its discriminator can pick, if it has
one. -/
def Answers (branches : List Validator) (discriminator : Option Discriminator) (v : Validator) :
    Prop :=
  ∃ index, branches[index]? = some v ∧ ∀ d ∈ discriminator, d.Targets index

theorem Answers.mem {branches : List Validator} {discriminator : Option Discriminator}
    {v : Validator} (h : Answers branches discriminator v) : v ∈ branches := by
  obtain ⟨index, hv, -⟩ := h
  exact List.mem_of_getElem? hv

/-- How `oneOf` and `anyOf` examine an input: they choose among the outcomes of the branches, or
ask the branch that the discriminator picks. -/
def examineChoice (choose : List Outcome → Outcome) (keyword : String)
    (branches : List Validator) (discriminator : Option Discriminator) (input : Field)
    (raw : Bool) : Outcome :=
  match discriminator with
  | none => choose (branchOutcomes branches input raw)
  | some d => dispatch branches d input raw keyword

theorem validate_oneOf_eq (c : Common) (branches : List Validator)
    (discriminator : Option Discriminator) (input : Field) (raw : Bool) :
    (oneOf c branches discriminator).validate input raw =
      Combinator.settled c
        (examineChoice Combinator.exactlyOne "oneOf" branches discriminator · raw) input := by
  rw [validate, Combinator.settled]
  cases Combinator.settle c input with
  | done output => rfl
  | check f => cases discriminator <;> rfl

theorem validate_anyOf_eq (c : Common) (branches : List Validator)
    (discriminator : Option Discriminator) (input : Field) (raw : Bool) :
    (anyOf c branches discriminator).validate input raw =
      Combinator.settled c
        (examineChoice Combinator.firstOf "anyOf" branches discriminator · raw) input := by
  rw [validate, Combinator.settled]
  cases Combinator.settle c input with
  | done output => rfl
  | check f => cases discriminator <;> rfl

theorem validate_allOf_eq (c : Common) (branches : List Validator) (input : Field) (raw : Bool) :
    (allOf c branches).validate input raw =
      Combinator.settled c
        (fun f => Combinator.everyOne (branches.map fun v => v.validate f raw)) input := by
  rw [validate, Combinator.settled]
  cases Combinator.settle c input with
  | done output => rfl
  | check f =>
      show Combinator.everyOne (branchOutcomes branches f raw) = _
      rw [branchOutcomes_eq]

/-- An accepted choice is the output of a branch that answers for it. -/
theorem exists_answer_of_examineChoice {choose : List Outcome → Outcome} {keyword : String}
    (hchoose : ∀ outcomes f, choose outcomes = .ok f → .ok f ∈ outcomes)
    {branches : List Validator} {discriminator : Option Discriminator} {f out : Field}
    {raw : Bool} (h : examineChoice choose keyword branches discriminator f raw = .ok out) :
    ∃ v, Answers branches discriminator v ∧ v.validate f raw = .ok out := by
  cases discriminator with
  | none =>
      have hmem := hchoose _ _ h
      rw [branchOutcomes_eq] at hmem
      obtain ⟨v, hv, hout⟩ := List.mem_map.mp hmem
      obtain ⟨index, hindex⟩ := List.getElem?_of_mem hv
      exact ⟨v, ⟨index, hindex, by simp⟩, hout⟩
  | some d =>
      obtain ⟨index, v, hselect, hv, hout⟩ := dispatch_eq_ok_iff.mp h
      refine ⟨v, ⟨index, hv, ?_⟩, hout⟩
      rintro _ ⟨⟩
      exact d.targets_of_select hselect

/-! ## Any node -/

/-- The same node with other common keywords. -/
def withCommon (c : Common) : Validator → Validator
  | integer rule => integer { rule with common := c }
  | number rule => number { rule with common := c }
  | string rule => string { rule with common := c }
  | boolean _ => boolean c
  | array rule items => array { rule with common := c } items
  | object rule properties additional => object { rule with common := c } properties additional
  | oneOf _ branches discriminator => oneOf c branches discriminator
  | anyOf _ branches discriminator => anyOf c branches discriminator
  | allOf _ branches => allOf c branches

@[simp] theorem common_withCommon (c : Common) (v : Validator) : (v.withCommon c).common = c := by
  cases v <;> rfl

@[simp] theorem withCommon_common (v : Validator) : v.withCommon v.common = v := by
  cases v <;> rfl

@[simp] theorem children_withCommon (c : Common) (v : Validator) :
    (v.withCommon c).children = v.children := by
  cases v with
  | object rule properties additional => cases additional <;> rfl
  | _ => rfl

/-- Every node settles its input by the common keywords, and examines what is left without them. -/
theorem validate_withCommon (v : Validator) (raw : Bool) :
    (∃ type examine, ∀ c input,
      (v.withCommon c).validate input raw = c.settled type examine input) ∨
    ∃ examine, ∀ c input,
      (v.withCommon c).validate input raw = Combinator.settled c examine input := by
  cases v with
  | integer rule =>
      exact .inl ⟨"int", (rule.examine · raw),
        fun c input => validate_integer_eq { rule with common := c } input raw⟩
  | number rule =>
      exact .inl ⟨"float", (rule.examine · raw),
        fun c input => validate_number_eq { rule with common := c } input raw⟩
  | string rule =>
      exact .inl ⟨"str", rule.examine,
        fun c input => validate_string_eq { rule with common := c } input raw⟩
  | boolean _ =>
      exact .inl ⟨"bool", (Common.examineBool · raw),
        fun c input => validate_boolean_eq c input raw⟩
  | array rule items =>
      exact .inl ⟨"list", (rule.examine (fun x => items.validate (.ofJson x) raw) · raw),
        fun c input => validate_array_eq { rule with common := c } items input raw⟩
  | object rule properties additional =>
      exact .inl ⟨"dict", (examineObject rule properties additional · raw),
        fun c input => validate_object_eq { rule with common := c } properties additional input raw⟩
  | oneOf _ branches d => exact .inr ⟨_, fun c input => validate_oneOf_eq c branches d input raw⟩
  | anyOf _ branches d => exact .inr ⟨_, fun c input => validate_anyOf_eq c branches d input raw⟩
  | allOf _ branches => exact .inr ⟨_, fun c input => validate_allOf_eq c branches input raw⟩

end Validator

end SchemaGate
