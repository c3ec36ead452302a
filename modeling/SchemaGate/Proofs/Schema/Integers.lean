import SchemaGate.Proofs.Decimal.Integers
import SchemaGate.Proofs.Schema.Rules
import SchemaGate.Proofs.Schema.Settled

/-!
# Integer nodes

An integer may come as a number or, in a raw run, as a text, and it may lie in the range of the
signed or only in that of the unsigned 64-bit words. An integer node looks past both
(`Validator.validate_integer_exact`):

* it reads the texts that spell an integer of either range (`Decimal.Spells`) and no others;
* rules that are made of integers are decided in the arithmetic of integers
  (`IntegerRule.Allows`);
* the text that an integer is written as gets the answer that the number gets.
-/

namespace SchemaGate

namespace WideInt

theorem ofInt?_eq_some_iff {i : Int} {n : WideInt} : ofInt? i = some n ↔ i = n.val := by
  rw [ofInt?]
  constructor
  · intro h
    split at h
    · cases h
      rfl
    · cases h
  · rintro rfl
    rw [dif_pos ⟨n.lower, n.upper⟩]

end WideInt

/-! ## Limits and members that are integers -/

namespace Limit

variable {l : Limit} {n k : WideInt}

theorem isMinimumOf_int_iff (hk : l.value = .int k) :
    l.IsMinimumOf (.int n) ↔ k.val ≤ n.val ∧ (l.exclusive = true → k.val < n.val) := by
  rw [IsMinimumOf, hk]
  show compare n.val k.val = .gt ∨ (compare n.val k.val = .eq ∧ l.exclusive = false) ↔ _
  rw [compare_gt_iff_gt, compare_eq_iff_eq]
  cases l.exclusive with
  | false =>
      simp only [and_true, Bool.false_eq_true, false_implies]
      omega
  | true =>
      simp only [Bool.true_eq_false, and_false, or_false, forall_const]
      omega

theorem isMaximumOf_int_iff (hk : l.value = .int k) :
    l.IsMaximumOf (.int n) ↔ n.val ≤ k.val ∧ (l.exclusive = true → n.val < k.val) := by
  rw [IsMaximumOf, hk]
  show compare n.val k.val = .lt ∨ (compare n.val k.val = .eq ∧ l.exclusive = false) ↔ _
  rw [compare_lt_iff_lt, compare_eq_iff_eq]
  cases l.exclusive with
  | false =>
      simp only [and_true, Bool.false_eq_true, false_implies]
      omega
  | true =>
      simp only [Bool.true_eq_false, and_false, or_false, forall_const]
      omega

end Limit

namespace IntegerRule

/-- The rule asks nothing of an integer but to be one. -/
structure Unconstrained (r : IntegerRule) : Prop where
  format : r.format ≠ some .int32
  minimum : r.minimum = none
  maximum : r.maximum = none
  members : r.members = none

/-- The limits and the members of the rule are integers. -/
structure IsIntegral (r : IntegerRule) : Prop where
  minimum : ∀ l ∈ r.minimum, ∃ k, l.value = .int k
  maximum : ∀ l ∈ r.maximum, ∃ k, l.value = .int k
  members : ∀ ms ∈ r.members, ∀ m ∈ ms, ∃ k, m = .number (.int k)

/-- The integer has the width of the format, is a member and keeps to the limits. -/
structure Allows (r : IntegerRule) (n : Int) : Prop where
  width : r.format = some .int32 → -2147483648 ≤ n ∧ n ≤ 2147483647
  member : ∀ ms ∈ r.members, ∃ k : WideInt, .number (.int k) ∈ ms ∧ n = k.val
  above : ∀ l ∈ r.minimum, ∀ k : WideInt, l.value = .int k →
    k.val ≤ n ∧ (l.exclusive = true → k.val < n)
  below : ∀ l ∈ r.maximum, ∀ k : WideInt, l.value = .int k →
    n ≤ k.val ∧ (l.exclusive = true → n < k.val)

variable {r : IntegerRule} {n : WideInt}

/-- The rule of an integer node is arithmetic on integers, where its limits and members are
integers. -/
theorem admits_iff_allows (h : r.IsIntegral) : r.Admits n ↔ r.Allows n.val := by
  constructor
  · intro hadmits
    refine ⟨fun hformat => ?_, fun ms hms => ?_, fun l hl k hk => ?_, fun l hl k hk => ?_⟩
    · have hwidth := hadmits.width hformat
      omega
    · obtain ⟨m, hm, heq⟩ := hadmits.within.member ms hms
      -- members that are no integers are none at all
      obtain ⟨k, hk⟩ := h.members ms hms _ hm
      cases hk
      exact ⟨k, hm, compare_eq_iff_eq.mp heq⟩
    · exact (Limit.isMinimumOf_int_iff hk).mp (hadmits.within.above l hl)
    · exact (Limit.isMaximumOf_int_iff hk).mp (hadmits.within.below l hl)
  · intro hallows
    refine ⟨fun hformat => ?_, fun ms hms => ?_, fun l hl => ?_, fun l hl => ?_⟩
    · have hwidth := hallows.width hformat
      omega
    · obtain ⟨k, hk, heq⟩ := hallows.member ms hms
      exact ⟨.int k, hk, compare_eq_iff_eq.mpr heq⟩
    · obtain ⟨k, hk⟩ := h.minimum l hl
      exact (Limit.isMinimumOf_int_iff hk).mpr (hallows.above l hl k hk)
    · obtain ⟨k, hk⟩ := h.maximum l hl
      exact (Limit.isMaximumOf_int_iff hk).mpr (hallows.below l hl k hk)

theorem Unconstrained.checks_eq_nil (h : r.Unconstrained) (n : WideInt) : r.checks n = [] := by
  simp [checks, numberMembers, numberLimits, h.format, h.minimum, h.maximum, h.members]

/-! ## Numbers and texts -/

/-- A raw run reads a text as the integer that it spells. -/
theorem read_text_eq_some_iff {t : String} : read (.text t) true = some n ↔
    Decimal.Spells t n.val := by
  rw [← Decimal.integer?_trimChars_eq_some_iff]
  show (Decimal.integer? (Text.trimChars t.toList)).bind WideInt.ofInt? = some n ↔ _
  simp only [Option.bind_eq_some_iff, WideInt.ofInt?_eq_some_iff, exists_eq_right]

theorem read_text_eq_none_iff {t : String} :
    read (.text t) true = none ↔ ¬ ∃ n : WideInt, Decimal.Spells t n.val := by
  simp only [Option.eq_none_iff_forall_ne_some, ne_eq, read_text_eq_some_iff, not_exists]

theorem read_number (n : WideInt) (raw : Bool) :
    read (.value (.number (.int n))) raw = some n := rfl

end IntegerRule

namespace Validator

variable {rule : IntegerRule} {f out : Field} {raw : Bool}

theorem validate_integer_of_isGiven (h : f.IsGiven) :
    (integer rule).validate f raw = rule.examine f raw := by
  rw [validate_integer_eq, Common.settled_eq_of_isGiven h]

/-- An integer node reads what spells an integer, decides rules of integers as such, and does not
tell an integer from its text. -/
theorem validate_integer_exact (rule : IntegerRule) :
    (rule.Unconstrained → ∀ t : String,
      (∀ out, (integer rule).validate (.text t) true = .ok out ↔
        ∃ n : WideInt, Decimal.Spells t n.val ∧ .value (.number (.int n)) = out) ∧
      ((¬ ∃ n : WideInt, Decimal.Spells t n.val) →
        (integer rule).validate (.text t) true = .error (typeError "int"))) ∧
    (rule.IsIntegral → ∀ (n : WideInt) (raw : Bool),
      (integer rule).validate (.value (.number (.int n))) raw =
          .ok (.value (.number (.int n))) ↔
        rule.Allows n.val) ∧
    ∀ (n : WideInt) (raw : Bool),
      (integer rule).validate (.text (toString n.val)) true =
        (integer rule).validate (.value (.number (.int n))) raw := by
  have htext : ∀ t, (integer rule).validate (.text t) true = rule.examine (.text t) true :=
    fun t => validate_integer_of_isGiven ⟨rfl, rfl⟩
  have hnumber : ∀ n raw, (integer rule).validate (.value (.number (.int n))) raw =
      rule.examine (.value (.number (.int n))) raw :=
    fun n raw => validate_integer_of_isGiven ⟨rfl, rfl⟩
  refine ⟨fun hfree t => ⟨fun out => ?_, fun hnone => ?_⟩, fun hintegral n raw => ?_,
    fun n raw => ?_⟩
  · rw [htext, IntegerRule.examine_eq_ok_iff]
    simp only [IntegerRule.read_text_eq_some_iff, hfree.checks_eq_nil, List.not_mem_nil,
      false_implies, implies_true, true_and]
  · rw [htext, IntegerRule.examine, IntegerRule.read_text_eq_none_iff.mpr hnone]
  · rw [hnumber, IntegerRule.examine_eq_ok_iff, ← IntegerRule.admits_iff_allows hintegral,
      ← IntegerRule.checks_hold_iff]
    simp [IntegerRule.read_number]
  · have hread : IntegerRule.read (.text (toString n.val)) true = some n :=
      IntegerRule.read_text_eq_some_iff.mpr (Decimal.spells_toString n.val)
    rw [htext, hnumber, IntegerRule.examine, IntegerRule.examine, hread,
      IntegerRule.read_number]

/-- The greatest of the integers, which only the words without a sign hold. -/
def greatest : WideInt := ⟨18446744073709551615, by decide, by decide⟩

/-- The least of the integers, which only the words with a sign hold. -/
def least : WideInt := ⟨-9223372036854775808, by decide, by decide⟩

/-- Both are members, but the least is out of reach. -/
def widestRule : IntegerRule :=
  { minimum := some ⟨.int least, true⟩
    maximum := some ⟨.int greatest, false⟩
    members := some [.number (.int greatest), .number (.int least)] }

theorem widestRule_isIntegral : widestRule.IsIntegral := by
  refine ⟨fun l hl => ?_, fun l hl => ?_, fun ms hms m hm => ?_⟩
  · cases hl
    exact ⟨_, rfl⟩
  · cases hl
    exact ⟨_, rfl⟩
  · cases hms
    simp only [List.mem_cons, List.not_mem_nil, or_false] at hm
    rcases hm with rfl | rfl <;> exact ⟨_, rfl⟩

/-- The greatest integer is read behind blanks, a sign and zeros, and the next one is not; of limits
and members at both ends of the range the right ones count. -/
theorem validate_integer_at_extremes :
    (integer {}).validate (.text "\u3000+0018446744073709551615\n") true =
        .ok (.value (.number (.int greatest))) ∧
      (integer {}).validate (.text "18446744073709551616") true = .error (typeError "int") ∧
      (integer widestRule).validate (.value (.number (.int greatest))) false =
        .ok (.value (.number (.int greatest))) ∧
      (integer widestRule).validate (.value (.number (.int least))) false ≠
        .ok (.value (.number (.int least))) ∧
      (integer widestRule).validate (.text "-9223372036854775808") true =
        (integer widestRule).validate (.value (.number (.int least))) false := by
  obtain ⟨hfree, -, -⟩ := validate_integer_exact {}
  have hfree := hfree ⟨by decide, rfl, rfl, rfl⟩
  obtain ⟨-, hdecided, htext⟩ := validate_integer_exact widestRule
  have hdecided := hdecided widestRule_isIntegral
  refine ⟨?_, ?_, ?_, ?_, htext least false⟩
  · exact ((hfree _).1 _).mpr
      ⟨greatest, Decimal.integer?_trimChars_eq_some_iff.mp (by decide), rfl⟩
  · refine (hfree _).2 ?_
    rintro ⟨n, hn⟩
    have hread : some n.val = some 18446744073709551616 :=
      (Decimal.integer?_trimChars_eq_some_iff.mpr hn).symm.trans (by decide)
    have hval := Option.some.inj hread
    have hupper := n.upper
    omega
  · refine (hdecided greatest false).mpr ⟨?_, ?_, ?_, ?_⟩
    · intro hformat
      cases hformat
    · intro ms hms
      cases hms
      exact ⟨greatest, List.mem_cons_self, rfl⟩
    · intro l hl k hk
      cases hl
      cases hk
      decide
    · intro l hl k hk
      cases hl
      cases hk
      decide
  · intro hok
    have hallows := (hdecided least false).mp hok
    exact absurd ((hallows.above _ rfl least rfl).2 rfl) (by decide)

end Validator

end SchemaGate
