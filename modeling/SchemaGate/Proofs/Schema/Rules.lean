import SchemaGate.Schema.Validate

/-!
# What rules admit

The keywords of a kind as conditions on numbers, texts, items and members, without complaints and
without an order. For each kind the list of checks holds exactly for what the rule admits:
`IntegerRule.checks_hold_iff`, `NumberRule.checks_hold_iff`, `StringRule.checks_hold_iff`,
`ArrayRule.checks_hold_iff` and `ObjectRule.checks_hold_iff`.
-/

namespace SchemaGate

/-! ## Numbers -/

namespace Limit

/-- The limit is a minimum of the number. -/
def IsMinimumOf (l : Limit) (n : Number) : Prop :=
  n.compare l.value = .gt ∨ (n.compare l.value = .eq ∧ l.exclusive = false)

/-- The limit is a maximum of the number. -/
def IsMaximumOf (l : Limit) (n : Number) : Prop :=
  n.compare l.value = .lt ∨ (n.compare l.value = .eq ∧ l.exclusive = false)

theorem admitsAbove_iff {l : Limit} {n : Number} : l.admitsAbove n = true ↔ l.IsMinimumOf n := by
  rw [admitsAbove, IsMinimumOf]
  cases n.compare l.value <;> simp

theorem admitsBelow_iff {l : Limit} {n : Number} : l.admitsBelow n = true ↔ l.IsMaximumOf n := by
  rw [admitsBelow, IsMaximumOf]
  cases n.compare l.value <;> simp

end Limit

/-- The number is one of the members, if there are members, and keeps to the limits. -/
structure Number.Within (members : Option (List Json)) (minimum maximum : Option Limit)
    (n : Number) : Prop where
  member : ∀ ms ∈ members, ∃ k, .number k ∈ ms ∧ n.compare k = .eq
  above : ∀ l ∈ minimum, l.IsMinimumOf n
  below : ∀ l ∈ maximum, l.IsMaximumOf n

theorem hasNumber_iff {ms : List Json} {n : Number} :
    hasNumber ms n = true ↔ ∃ k, .number k ∈ ms ∧ n.compare k = .eq := by
  rw [hasNumber, List.any_eq_true]
  constructor
  · rintro ⟨m, hm, hany⟩
    cases m with
    | number k => exact ⟨k, hm, by simpa [Json.number?] using hany⟩
    | _ => cases hany
  · rintro ⟨k, hk, heq⟩
    exact ⟨_, hk, by simp [Json.number?, heq]⟩

/-- The checks on a number hold exactly if it is one of the members and keeps to the limits. -/
theorem Number.checks_hold_iff {members : Option (List Json)} {minimum maximum : Option Limit}
    {n : Number} :
    (∀ c ∈ numberMembers members n ++ numberLimits minimum maximum n, c.1 = true) ↔
      n.Within members minimum maximum := by
  have hmembers : (∀ c ∈ numberMembers members n, c.1 = true) ↔
      ∀ ms ∈ members, ∃ k, .number k ∈ ms ∧ n.compare k = .eq := by
    cases members <;> simp [numberMembers, hasNumber_iff]
  have hlimits : (∀ c ∈ numberLimits minimum maximum n, c.1 = true) ↔
      (∀ l ∈ minimum, l.IsMinimumOf n) ∧ ∀ l ∈ maximum, l.IsMaximumOf n := by
    cases minimum <;> cases maximum <;>
      simp [numberLimits, Limit.admitsAbove_iff, Limit.admitsBelow_iff]
  rw [List.forall_mem_append, hmembers, hlimits]
  exact ⟨fun h => ⟨h.1, h.2.1, h.2.2⟩, fun h => ⟨h.member, h.above, h.below⟩⟩

/-- The integer has the width of the format, is a member and keeps to the limits. -/
structure IntegerRule.Admits (r : IntegerRule) (n : WideInt) : Prop where
  width : r.format = some .int32 → -0x80000000 ≤ n.val ∧ n.val < 0x80000000
  within : (Number.int n).Within r.members r.minimum r.maximum

theorem IntegerRule.checks_hold_iff {r : IntegerRule} {n : WideInt} :
    (∀ c ∈ r.checks n, c.1 = true) ↔ r.Admits n := by
  have hwidth : (∀ c ∈ (if r.format = some .int32 then
      [(fits32 n.val, ErrorTree.message "value out of bounds int32")] else []), c.1 = true) ↔
      (r.format = some .int32 → -0x80000000 ≤ n.val ∧ n.val < 0x80000000) := by
    by_cases h : r.format = some .int32 <;> simp [h, fits32]
  rw [checks, List.append_assoc, List.forall_mem_append, hwidth, Number.checks_hold_iff]
  exact ⟨fun h => ⟨h.1, h.2⟩, fun h => ⟨h.width, h.within⟩⟩

/-- The number is a member and keeps to the limits. -/
def NumberRule.Admits (r : NumberRule) (x : Binary64) : Prop :=
  (Number.float x).Within r.members r.minimum r.maximum

theorem NumberRule.checks_hold_iff {r : NumberRule} {x : Binary64} :
    (∀ c ∈ r.checks x, c.1 = true) ↔ r.Admits x := by
  rw [checks, Number.checks_hold_iff, Admits]

/-! ## Texts -/

/-- The text has the right length, is a member, passes the check of the format and matches the
pattern. The binary format has no pattern. -/
structure StringRule.Admits (r : StringRule) (s : String) : Prop where
  minLength : ∀ k ∈ r.minLength, k ≤ s.length
  maxLength : ∀ k ∈ r.maxLength, s.length ≤ k
  member : ∀ ms ∈ r.members, .string s ∈ ms
  format : ∀ c ∈ r.check, c.complaint s = none
  pattern : r.format ≠ some "binary" → ∀ p ∈ r.pattern, p.occursIn s = true

namespace StringRule

theorem exists_string_iff {ms : List Json} {s : String} :
    (∃ m, m ∈ ms ∧ m.string? = some s) ↔ .string s ∈ ms := by
  constructor
  · rintro ⟨m, hm, heq⟩
    cases m with
    | string t =>
        cases heq
        exact hm
    | _ => cases heq
  · exact fun h => ⟨_, h, rfl⟩

/-- The checks on a string hold exactly if the rule admits it. -/
theorem checks_hold_iff {r : StringRule} {s : String} :
    (∀ c ∈ r.checks s, c.1 = true) ↔ r.Admits s := by
  have hpattern : (∀ p ∈ r.activePattern, p.occursIn s = true) ↔
      (r.format ≠ some "binary" → ∀ p ∈ r.pattern, p.occursIn s = true) := by
    rw [activePattern]
    by_cases h : r.format = some "binary" <;> simp [h]
  have hformat : (∀ complaint ∈ r.check.bind fun c => c.complaint s, False) ↔
      ∀ c ∈ r.check, c.complaint s = none := by
    cases r.check with
    | none => simp
    | some c => cases hc : c.complaint s <;> simp [hc]
  have hall : (∀ c ∈ r.checks s, c.1 = true) ↔
      (∀ k ∈ r.minLength, k ≤ s.length) ∧ (∀ k ∈ r.maxLength, s.length ≤ k) ∧
      (∀ ms ∈ r.members, .string s ∈ ms) ∧
      (∀ complaint ∈ r.check.bind fun c => c.complaint s, False) ∧
      ∀ p ∈ r.activePattern, p.occursIn s = true := by
    rw [checks, List.forall_mem_append, List.forall_mem_append, List.forall_mem_append,
      List.forall_mem_append]
    simp only [and_assoc]
    refine and_congr ?_ (and_congr ?_ (and_congr ?_ (and_congr ?_ ?_)))
    · cases r.minLength <;> simp
    · cases r.maxLength <;> simp
    · cases r.members <;> simp [exists_string_iff]
    · cases r.check.bind fun c => c.complaint s <;> simp
    · cases r.activePattern <;> simp
  rw [hall, hpattern, hformat]
  exact ⟨fun ⟨h₁, h₂, h₃, h₄, h₅⟩ => ⟨h₁, h₂, h₃, h₄, h₅⟩,
    fun h => ⟨h.minLength, h.maxLength, h.member, h.format, h.pattern⟩⟩

end StringRule

/-! ## Items and members -/

/-- The array has the right length, and no two of its items are equal where they must differ. -/
structure ArrayRule.Admits (r : ArrayRule) (xs : List Json) : Prop where
  minItems : ∀ k ∈ r.minItems, k ≤ xs.length
  maxItems : ∀ k ∈ r.maxItems, xs.length ≤ k
  unique : r.uniqueItems = true → xs.Pairwise fun x y => x.same y = false

namespace ArrayRule

theorem allDistinct_iff {xs : List Json} :
    allDistinct xs = true ↔ xs.Pairwise fun x y => x.same y = false := by
  induction xs with
  | nil => simp [allDistinct]
  | cons x rest ih =>
      rw [allDistinct, Bool.and_eq_true, ih, List.pairwise_cons]
      simp

theorem checks_hold_iff {r : ArrayRule} {xs : List Json} :
    (∀ c ∈ r.checks xs, c.1 = true) ↔ r.Admits xs := by
  have hall : (∀ c ∈ r.checks xs, c.1 = true) ↔
      (∀ k ∈ r.minItems, k ≤ xs.length) ∧ (∀ k ∈ r.maxItems, xs.length ≤ k) ∧
      (r.uniqueItems = true → xs.Pairwise fun x y => x.same y = false) := by
    rw [checks, List.forall_mem_append, List.forall_mem_append, and_assoc]
    refine and_congr ?_ (and_congr ?_ ?_)
    · cases r.minItems <;> simp
    · cases r.maxItems <;> simp
    · cases r.uniqueItems <;> simp [allDistinct_iff]
  rw [hall]
  exact ⟨fun ⟨h₁, h₂, h₃⟩ => ⟨h₁, h₂, h₃⟩, fun h => ⟨h.minItems, h.maxItems, h.unique⟩⟩

end ArrayRule

/-- The object has the right number of members. -/
structure ObjectRule.Admits (r : ObjectRule) (ms : Entries Json) : Prop where
  minProperties : ∀ k ∈ r.minProperties, k ≤ ms.length
  maxProperties : ∀ k ∈ r.maxProperties, ms.length ≤ k

theorem ObjectRule.checks_hold_iff {r : ObjectRule} {ms : Entries Json} :
    (∀ c ∈ r.checks ms, c.1 = true) ↔ r.Admits ms := by
  have hall : (∀ c ∈ r.checks ms, c.1 = true) ↔
      (∀ k ∈ r.minProperties, k ≤ ms.length) ∧ ∀ k ∈ r.maxProperties, ms.length ≤ k := by
    rw [checks, List.forall_mem_append]
    refine and_congr ?_ ?_
    · cases r.minProperties <;> simp
    · cases r.maxProperties <;> simp
  rw [hall]
  exact ⟨fun h => ⟨h.1, h.2⟩, fun h => ⟨h.minProperties, h.maxProperties⟩⟩

end SchemaGate
