import SchemaGate.Proofs.Schema.Settled

/-!
# Rejected inputs

Kind by kind, an examination that fails complains about the kind of the input, or names a check that
does not hold, or hands on what a node below it has answered (`ArrayRule.examine_eq_error` and its
siblings). Of the items of an array the first that is rejected counts
(`ArrayRule.collect_eq_error_iff`).

`Validator.Rejected` lists the ways in which a node can reject an input, with the error that it
answers, and `Validator.rejected_of_validate` says that there are no others. Together with
`Validator.Accepted` that is all that a node can answer.
-/

namespace SchemaGate

/-- A complaint is that of a check that does not hold. -/
theorem mem_of_checkAll {cs : List (Bool × ErrorTree)} {e : ErrorTree}
    (h : checkAll cs = .error e) : (false, e) ∈ cs := by
  induction cs with
  | nil => cases h
  | cons c rest ih =>
      obtain ⟨holds, complaint⟩ := c
      cases holds with
      | true => exact List.mem_cons_of_mem _ (ih h)
      | false =>
          cases h
          exact List.mem_cons_self

theorem mem_of_checked {cs : List (Bool × ErrorTree)} {result : Field} {e : ErrorTree}
    (h : checked cs result = .error e) : (false, e) ∈ cs := by
  rw [checked] at h
  split at h
  · rename_i hchecks
    cases h
    exact mem_of_checkAll hchecks
  · cases h

/-! ## Settling -/

/-- A typed node rejects an input for its kind, or when it is examined. -/
theorem Common.settled_eq_error {c : Common} {type : String} {examine : Field → Outcome}
    {input : Field} {e : ErrorTree} (h : c.settled type examine input = .error e) :
    e = typeError type ∨ examine (c.substitute input) = .error e := by
  rw [settled, settle] at h
  generalize c.substitute input = f at h
  split at h
  · rename_i heq
    split at heq
    · cases heq
    · split at heq
      · split at heq
        · cases heq
        · cases heq
          cases h
          exact .inl rfl
      · cases heq
  · cases h
  · rename_i heq
    split at heq
    · cases heq
    · split at heq
      · split at heq <;> cases heq
      · cases heq
        exact .inr h

/-- A combinator rejects only by examining. -/
theorem Combinator.settled_eq_error {c : Common} {examine : Field → Outcome} {input : Field}
    {e : ErrorTree} (h : settled c examine input = .error e) :
    examine (c.substitute input) = .error e := by
  rw [settled, settle] at h
  split at h
  · cases h
  · rename_i heq
    split at heq
    · cases heq
    · split at heq
      · cases heq
      · cases heq
        exact h

/-! ## Choosing among branches -/

theorem Combinator.exactlyOne_eq_error {outcomes : List Outcome} {e : ErrorTree}
    (h : exactlyOne outcomes = .error e) : e = failed "oneOf" := by
  unfold exactlyOne at h
  split at h <;> cases h
  rfl

theorem Combinator.firstOf_eq_error {outcomes : List Outcome} {e : ErrorTree}
    (h : firstOf outcomes = .error e) : e = failed "anyOf" := by
  unfold firstOf at h
  split at h <;> cases h
  rfl

theorem Combinator.everyOne_eq_error {outcomes : List Outcome} {e : ErrorTree}
    (h : everyOne outcomes = .error e) : e = failed "allOf" := by
  rw [everyOne] at h
  split at h <;> cases h
  rfl

/-! ## Examinations -/

theorem IntegerRule.examine_eq_error {r : IntegerRule} {f : Field} {raw : Bool} {e : ErrorTree}
    (h : r.examine f raw = .error e) :
    e = typeError "int" ∨ ∃ n, read f raw = some n ∧ (false, e) ∈ r.checks n := by
  unfold examine at h
  split at h
  · exact .inl (Except.error.inj h).symm
  · rename_i n hread
    exact .inr ⟨n, hread, mem_of_checked h⟩

theorem NumberRule.examine_eq_error {r : NumberRule} {f : Field} {raw : Bool} {e : ErrorTree}
    (h : r.examine f raw = .error e) :
    e = typeError "float" ∨ ∃ x, read f raw = some x ∧ (false, e) ∈ r.checks x := by
  unfold examine at h
  split at h
  · exact .inl (Except.error.inj h).symm
  · rename_i x hread
    exact .inr ⟨x, hread, mem_of_checked h⟩

/-- An input is rejected as no string, or by one of the checks. -/
theorem StringRule.examine_eq_error {r : StringRule} {f : Field} {e : ErrorTree}
    (h : r.examine f = .error e) :
    e = typeError "str" ∨ ∃ s, f = .value (.string s) ∧ (false, e) ∈ r.checks s := by
  unfold examine at h
  split at h
  · split at h
    · cases h
    · exact .inl (Except.error.inj h).symm
  · rename_i s
    exact .inr ⟨s, rfl, mem_of_checked h⟩
  · exact .inl (Except.error.inj h).symm

theorem Common.examineBool_eq_error {f : Field} {raw : Bool} {e : ErrorTree}
    (h : examineBool f raw = .error e) : e = typeError "bool" := by
  unfold examineBool at h
  split at h
  · exact (Except.error.inj h).symm
  · cases h

namespace ArrayRule

/-- The item at the index is rejected with this error, and no item before it is. -/
structure FirstFailure (item : Json → Outcome) (xs : List Json) (i : Nat) (e : ErrorTree) :
    Prop where
  rejected : ∃ x, xs[i]? = some x ∧ item x = .error e
  least : ∀ j < i, ∀ x, xs[j]? = some x → ∃ f, item x = .ok f

section

variable {item : Json → Outcome} {x : Json} {xs : List Json} {i : Nat} {e : ErrorTree}

theorem not_firstFailure_nil : ¬ FirstFailure item [] i e := by
  rintro ⟨⟨x, hx, -⟩, -⟩
  cases hx

theorem firstFailure_of_error (h : item x = .error e) {e' : ErrorTree} :
    FirstFailure item (x :: xs) i e' ↔ i = 0 ∧ e' = e := by
  constructor
  · rintro ⟨⟨y, hy, hrejected⟩, hleast⟩
    cases i with
    | zero =>
        cases hy
        exact ⟨rfl, Except.error.inj (hrejected.symm.trans h)⟩
    | succ i =>
        obtain ⟨f, hf⟩ := hleast 0 i.succ_pos x rfl
        cases hf.symm.trans h
  · rintro ⟨rfl, rfl⟩
    exact ⟨⟨x, rfl, h⟩, fun _ hj => absurd hj (Nat.not_lt_zero _)⟩

theorem firstFailure_succ_iff {f : Field} (h : item x = .ok f) :
    FirstFailure item (x :: xs) (i + 1) e ↔ FirstFailure item xs i e := by
  constructor
  · rintro ⟨⟨y, hy, hrejected⟩, hleast⟩
    exact ⟨⟨y, hy, hrejected⟩, fun j hj z hz => hleast (j + 1) (Nat.succ_lt_succ hj) z hz⟩
  · rintro ⟨⟨y, hy, hrejected⟩, hleast⟩
    refine ⟨⟨y, hy, hrejected⟩, fun j hj z hz => ?_⟩
    cases j with
    | zero =>
        cases hz
        exact ⟨f, h⟩
    | succ j => exact hleast j (Nat.lt_of_succ_lt_succ hj) z hz

theorem not_firstFailure_zero {f : Field} (h : item x = .ok f) :
    ¬ FirstFailure item (x :: xs) 0 e := by
  rintro ⟨⟨y, hy, hrejected⟩, -⟩
  cases hy
  cases hrejected.symm.trans h

/-- Items are refused with the error of the first that is rejected, under its index. -/
theorem collect_eq_error_iff {index : Nat} {error : ErrorTree} :
    collect item index xs = .error error ↔
      ∃ i e, FirstFailure item xs i e ∧ error = .under (toString (index + i)) e := by
  induction xs generalizing index error with
  | nil =>
      constructor
      · intro h
        cases h
      · rintro ⟨i, e, h, -⟩
        exact absurd h not_firstFailure_nil
  | cons x rest ih =>
      rw [collect]
      cases hx : item x with
      | error e =>
          simp only [firstFailure_of_error hx, Except.error.injEq]
          constructor
          · rintro rfl
            exact ⟨0, e, ⟨rfl, rfl⟩, rfl⟩
          · rintro ⟨i, e', ⟨rfl, rfl⟩, rfl⟩
            rfl
      | ok f =>
          dsimp only
          constructor
          · intro h
            split at h
            · rename_i hrest
              cases h
              obtain ⟨i, e, hfirst, rfl⟩ := ih.mp hrest
              refine ⟨i + 1, e, (firstFailure_succ_iff hx).mpr hfirst, ?_⟩
              rw [Nat.add_right_comm, Nat.add_assoc]
            · cases h
          · rintro ⟨i, e, hfirst, rfl⟩
            cases i with
            | zero => exact absurd hfirst (not_firstFailure_zero hx)
            | succ i =>
                have hindex : index + (i + 1) = index + 1 + i := by
                  rw [Nat.add_right_comm, Nat.add_assoc]
                rw [hindex, ih.mpr ⟨i, e, (firstFailure_succ_iff hx).mp hfirst, rfl⟩]

end

end ArrayRule

/-- An input is rejected as no array, by one of its items, with the complaint under the item's
index, or by a check on the outputs. -/
theorem ArrayRule.examine_eq_error {r : ArrayRule} {item : Json → Outcome} {f : Field}
    {raw : Bool} {e : ErrorTree} (h : r.examine item f raw = .error e) :
    e = typeError "list" ∨ ∃ xs, read f raw = some xs ∧
      ((∃ (i : Nat) (x : Json) (e' : ErrorTree), xs[i]? = some x ∧ item x = .error e' ∧
          e = .under (toString i) e') ∨
        ∃ ys, collect item 0 xs = .ok ys ∧ (false, e) ∈ r.checks ys) := by
  unfold examine at h
  split at h
  · exact .inl (Except.error.inj h).symm
  · rename_i xs hread
    refine .inr ⟨xs, hread, ?_⟩
    split at h
    · rename_i hcollect
      cases h
      obtain ⟨i, e', hfirst, rfl⟩ := collect_eq_error_iff.mp hcollect
      obtain ⟨x, hx, he'⟩ := hfirst.rejected
      rw [Nat.zero_add]
      exact .inl ⟨i, x, e', hx, he', rfl⟩
    · rename_i ys hcollect
      exact .inr ⟨ys, hcollect, mem_of_checked h⟩

theorem ObjectRule.conclude_eq_error {r : ObjectRule} {outcomes : Entries Outcome} {e : ErrorTree}
    (h : r.conclude outcomes = .error e) :
    (failures outcomes ≠ [] ∧ e = .nested (failures outcomes)) ∨
      (false, e) ∈ r.checks (outputs outcomes) := by
  unfold conclude at h
  split at h
  · exact .inr (mem_of_checked h)
  · rename_i hsome
    exact .inl ⟨hsome, (Except.error.inj h).symm⟩

/-! ## Nodes -/

namespace Validator

/-- The node rejects the input with this error. What stands below the node is asked through
`validate` again. -/
inductive Rejected (raw : Bool) : Validator → Field → ErrorTree → Prop
  | wrongType {v : Validator} {input : Field} {type : String} : v.IsTyped →
      Rejected raw v input (typeError type)
  | integer {rule : IntegerRule} {input : Field} {n : WideInt} {e : ErrorTree} :
      IntegerRule.read (rule.common.substitute input) raw = some n → (false, e) ∈ rule.checks n →
      Rejected raw (integer rule) input e
  | number {rule : NumberRule} {input : Field} {x : Binary64} {e : ErrorTree} :
      NumberRule.read (rule.common.substitute input) raw = some x → (false, e) ∈ rule.checks x →
      Rejected raw (number rule) input e
  | string {rule : StringRule} {input : Field} {s : String} {e : ErrorTree} :
      rule.common.substitute input = .value (.string s) → (false, e) ∈ rule.checks s →
      Rejected raw (string rule) input e
  | item {rule : ArrayRule} {items : Validator} {input : Field} {xs : List Json} {i : Nat}
      {x : Json} {e : ErrorTree} :
      ArrayRule.read (rule.common.substitute input) raw = some xs → xs[i]? = some x →
      items.validate (.ofJson x) raw = .error e →
      Rejected raw (array rule items) input (.under (toString i) e)
  | array {rule : ArrayRule} {items : Validator} {input : Field} {xs ys : List Json}
      {e : ErrorTree} :
      ArrayRule.read (rule.common.substitute input) raw = some xs →
      ArrayRule.collect (fun x => items.validate (.ofJson x) raw) 0 xs = .ok ys →
      (false, e) ∈ rule.checks ys → Rejected raw (array rule items) input e
  | missing {rule : ObjectRule} {properties : Entries Validator}
      {additional : Additional Validator} {input : Field} {ms : Entries Json} :
      rule.common.substitute input = .value (.object ms) →
      rule.missing (readOnlyNames properties) ms ≠ [] →
      Rejected raw (object rule properties additional) input
        (.nested (rule.missing (readOnlyNames properties) ms))
  | members {rule : ObjectRule} {properties : Entries Validator}
      {additional : Additional Validator} {input : Field} {ms : Entries Json} :
      rule.common.substitute input = .value (.object ms) →
      ObjectRule.failures (memberOutcomes properties additional ms raw) ≠ [] →
      Rejected raw (object rule properties additional) input
        (.nested (ObjectRule.failures (memberOutcomes properties additional ms raw)))
  | object {rule : ObjectRule} {properties : Entries Validator}
      {additional : Additional Validator} {input : Field} {ms : Entries Json} {e : ErrorTree} :
      rule.common.substitute input = .value (.object ms) →
      (false, e) ∈ rule.checks
        (ObjectRule.outputs (memberOutcomes properties additional ms raw)) →
      Rejected raw (object rule properties additional) input e
  | failed {v : Validator} {input : Field} {keyword : String} : ¬ v.IsTyped →
      Rejected raw v input (Combinator.failed keyword)
  | unselected {v : Validator} {branches : List Validator} {d : Discriminator} {input : Field}
      {e : ErrorTree} : v.Chooses branches d → d.select (v.common.substitute input) = .error e →
      Rejected raw v input e

variable {raw : Bool} {v : Validator} {input : Field} {e : ErrorTree}

/-- What is missed is reported before any member is looked at. -/
theorem examineObject_eq_error {rule : ObjectRule} {properties : Entries Validator}
    {additional : Additional Validator} {f : Field}
    (h : examineObject rule properties additional f raw = .error e) :
    e = typeError "dict" ∨ ∃ ms, f = .value (.object ms) ∧
      ((rule.missing (readOnlyNames properties) ms ≠ [] ∧
          e = .nested (rule.missing (readOnlyNames properties) ms)) ∨
        rule.conclude (memberOutcomes properties additional ms raw) = .error e) := by
  unfold examineObject at h
  split at h
  · rename_i ms
    refine .inr ⟨ms, rfl, ?_⟩
    split at h
    · exact .inr h
    · rename_i hsome
      exact .inl ⟨hsome, (Except.error.inj h).symm⟩
  · exact .inl (Except.error.inj h).symm

theorem rejected_of_settled {type : String} {examine : Field → Outcome} (ht : v.IsTyped)
    (h : v.common.settled type examine input = .error e)
    (given : examine (v.common.substitute input) = .error e → Rejected raw v input e) :
    Rejected raw v input e := by
  rcases Common.settled_eq_error h with rfl | hexamined
  · exact .wrongType ht
  · exact given hexamined

/-- With a discriminator, either it selects no branch or the branch rejects the input. -/
theorem dispatch_eq_error {branches : List Validator} {d : Discriminator} {f : Field}
    {keyword : String} (h : dispatch branches d f raw keyword = .error e) :
    d.select f = .error e ∨ e = Combinator.failed keyword := by
  rw [dispatch] at h
  split at h
  · rename_i hselect
    cases h
    exact .inl hselect
  · split at h
    · cases h
    · exact .inr (Except.error.inj h).symm

/-- A choice rejects with its own complaint, or with that of its discriminator if this selects
nothing. -/
theorem rejected_of_examineChoice {choose : List Outcome → Outcome} {keyword : String}
    {branches : List Validator} {discriminator : Option Discriminator}
    (hchoose : ∀ {outcomes e}, choose outcomes = .error e → e = Combinator.failed keyword)
    (hchooses : ∀ d ∈ discriminator, v.Chooses branches d) (ht : ¬ v.IsTyped)
    (h : examineChoice choose keyword branches discriminator (v.common.substitute input) raw =
      .error e) : Rejected raw v input e := by
  cases discriminator with
  | none =>
      rw [hchoose h]
      exact .failed ht
  | some d =>
      rcases dispatch_eq_error h with hselect | rfl
      · exact .unselected (hchooses d rfl) hselect
      · exact .failed ht

/-- There is no other way to reject an input. -/
theorem rejected_of_validate (h : v.validate input raw = .error e) : Rejected raw v input e := by
  cases v with
  | integer rule =>
      rw [validate_integer_eq] at h
      refine rejected_of_settled (v := integer rule) trivial h fun hexamined => ?_
      rcases IntegerRule.examine_eq_error hexamined with rfl | ⟨n, hread, he⟩
      · exact .wrongType trivial
      · exact .integer hread he
  | number rule =>
      rw [validate_number_eq] at h
      refine rejected_of_settled (v := number rule) trivial h fun hexamined => ?_
      rcases NumberRule.examine_eq_error hexamined with rfl | ⟨x, hread, he⟩
      · exact .wrongType trivial
      · exact .number hread he
  | string rule =>
      rw [validate_string_eq] at h
      refine rejected_of_settled (v := string rule) trivial h fun hexamined => ?_
      rcases StringRule.examine_eq_error hexamined with rfl | ⟨s, hs, he⟩
      · exact .wrongType trivial
      · exact .string hs he
  | boolean c =>
      rw [validate_boolean_eq] at h
      refine rejected_of_settled (v := boolean c) trivial h fun hexamined => ?_
      rw [Common.examineBool_eq_error hexamined]
      exact .wrongType trivial
  | array rule items =>
      rw [validate_array_eq] at h
      refine rejected_of_settled (v := array rule items) trivial h fun hexamined => ?_
      rcases ArrayRule.examine_eq_error hexamined with
        rfl | ⟨xs, hread, ⟨i, x, e', hx, he', rfl⟩ | ⟨ys, hcollect, he⟩⟩
      · exact .wrongType trivial
      · exact .item hread hx he'
      · exact .array hread hcollect he
  | object rule properties additional =>
      rw [validate_object_eq] at h
      refine rejected_of_settled (v := object rule properties additional) trivial h
        fun hexamined => ?_
      rcases examineObject_eq_error hexamined with
        rfl | ⟨ms, hms, ⟨hsome, rfl⟩ | hconcluded⟩
      · exact .wrongType trivial
      · exact .missing hms hsome
      · rcases ObjectRule.conclude_eq_error hconcluded with ⟨hsome, rfl⟩ | he
        · exact .members hms hsome
        · exact .object hms he
  | oneOf c branches discriminator =>
      rw [validate_oneOf_eq] at h
      refine rejected_of_examineChoice (v := oneOf c branches discriminator)
        Combinator.exactlyOne_eq_error ?_ (fun ht => ht) (Combinator.settled_eq_error h)
      rintro d rfl
      exact .oneOf
  | anyOf c branches discriminator =>
      rw [validate_anyOf_eq] at h
      refine rejected_of_examineChoice (v := anyOf c branches discriminator)
        Combinator.firstOf_eq_error ?_ (fun ht => ht) (Combinator.settled_eq_error h)
      rintro d rfl
      exact .anyOf
  | allOf c branches =>
      rw [validate_allOf_eq] at h
      rw [Combinator.everyOne_eq_error (Combinator.settled_eq_error h)]
      exact .failed fun ht => ht

end Validator

end SchemaGate
