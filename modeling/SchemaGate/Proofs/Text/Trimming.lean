import Mathlib.Data.List.DropRight
import SchemaGate.Text.Blank

/-!
# Trimming

Trimming drops blanks at the front and at the back and nothing else (`Text.exists_blanks_trimChars`),
so blanks around a text make no difference (`Text.trimChars_surrounded`). It does not depend on case
(`Text.trimChars_map_toLower`), as no blank is a letter. Lower case is lost again in upper case
(`Text.toUpper_toLower`).
-/

namespace SchemaGate.Text

variable {cs front back : List Char}

theorem trimChars_eq_rdropWhile (cs : List Char) :
    trimChars cs = (cs.dropWhile isBlank).rdropWhile isBlank := rfl

/-- What trimming drops are blanks at the front and at the back. -/
theorem exists_blanks_trimChars (cs : List Char) :
    ∃ front back, cs = front ++ trimChars cs ++ back ∧ (∀ c ∈ front, isBlank c = true) ∧
      ∀ c ∈ back, isBlank c = true := by
  refine ⟨cs.takeWhile isBlank, (cs.dropWhile isBlank).rtakeWhile isBlank, ?_,
    fun c hc => List.mem_takeWhile_imp hc, fun c hc => List.mem_rtakeWhile_imp hc⟩
  rw [trimChars_eq_rdropWhile, List.append_assoc, List.rdropWhile_append_rtakeWhile,
    List.takeWhile_append_dropWhile]

theorem mem_of_mem_trimChars {c : Char} (h : c ∈ trimChars cs) : c ∈ cs := by
  obtain ⟨front, back, hsplit, -, -⟩ := exists_blanks_trimChars cs
  rw [hsplit]
  exact List.mem_append_left back (List.mem_append_right front h)

theorem mem_trimChars {c : Char} (h : c ∈ cs) (hc : isBlank c = false) : c ∈ trimChars cs := by
  obtain ⟨front, back, hsplit, hfront, hback⟩ := exists_blanks_trimChars cs
  rw [hsplit, List.mem_append, List.mem_append] at h
  rcases h with (h | h) | h
  · exact absurd (hfront c h) (by simp [hc])
  · exact h
  · exact absurd (hback c h) (by simp [hc])

theorem trimChars_eq_self (hcs : ∀ c ∈ cs, isBlank c = false) : trimChars cs = cs := by
  have hkept : ∀ ds : List Char, (∀ c ∈ ds, isBlank c = false) → ds.dropWhile isBlank = ds := by
    intro ds hds
    cases ds with
    | nil => rfl
    | cons d rest => exact List.dropWhile_cons_of_neg (by simp [hds d List.mem_cons_self])
  have hreverse : ∀ c ∈ cs.reverse, isBlank c = false :=
    fun c hc => hcs c (List.mem_reverse.mp hc)
  rw [trimChars, hkept cs hcs, hkept cs.reverse hreverse, List.reverse_reverse]

/-- Blanks around a text make no difference. -/
theorem trimChars_surrounded (cs : List Char) (hfront : ∀ c ∈ front, isBlank c = true)
    (hback : ∀ c ∈ back, isBlank c = true) : trimChars (front ++ cs ++ back) = trimChars cs := by
  rw [trimChars, trimChars, List.append_assoc, List.dropWhile_append_of_pos hfront,
    List.dropWhile_append]
  split
  · -- nothing but blanks
    rename_i hnothing
    rw [List.isEmpty_iff.mp hnothing, List.dropWhile_eq_nil_iff.mpr hback]
  · have hback' : ∀ c ∈ back.reverse, isBlank c = true :=
      fun c hc => hback c (List.mem_reverse.mp hc)
    rw [List.reverse_append, List.dropWhile_append_of_pos hback']

/-- Blanks around characters that are none are dropped, and nothing else. -/
theorem trimChars_of_blanks (hfront : ∀ c ∈ front, isBlank c = true)
    (hcs : ∀ c ∈ cs, isBlank c = false) (hback : ∀ c ∈ back, isBlank c = true) :
    trimChars (front ++ cs ++ back) = cs := by
  rw [trimChars_surrounded cs hfront hback, trimChars_eq_self hcs]

/-! ## Case -/

theorem isBlank_eq_false {c : Char} (hlow : 33 ≤ c.toNat) (hhigh : c.toNat ≤ 126) :
    isBlank c = false := by
  simp only [isBlank, Bool.or_eq_false_iff, Bool.and_eq_false_iff, decide_eq_false_iff_not,
    beq_eq_false_iff_ne]
  omega

/-- Only the capital letters from A to Z have another lower case. -/
theorem toLower_eq_or (c : Char) :
    c.toLower = c ∨ (65 ≤ c.toNat ∧ c.toNat ≤ 90 ∧ c.toLower.toNat = c.toNat + 32) := by
  by_cases hupper : c.val ≥ 'A'.val ∧ c.val ≤ 'Z'.val
  · have hlower : c.toLower.val = c.val + ('a'.val - 'A'.val) := congrArg Char.val (dif_pos hupper)
    obtain ⟨hlow, hhigh⟩ := hupper
    rw [ge_iff_le, UInt32.le_iff_toNat_le] at hlow
    rw [UInt32.le_iff_toNat_le] at hhigh
    have hlow' : 65 ≤ c.val.toNat := hlow
    have hhigh' : c.val.toNat ≤ 90 := hhigh
    have hshift : (c.val + ('a'.val - 'A'.val)).toNat = c.val.toNat + 32 := by
      have hdiff : ('a'.val - 'A'.val).toNat = 32 := by decide
      rw [UInt32.toNat_add, hdiff, Nat.mod_eq_of_lt (by omega)]
    refine .inr ⟨hlow', hhigh', ?_⟩
    show c.toLower.val.toNat = c.val.toNat + 32
    rw [hlower, hshift]
  · exact .inl (dif_neg hupper)

theorem toUpper_toLower_char (c : Char) : c.toLower.toUpper = c.toUpper := by
  rcases toLower_eq_or c with h | ⟨-, hhigh, -⟩
  · rw [h]
  · have hcapital : ∀ n < 91, (Char.ofNat n).toLower.toUpper = (Char.ofNat n).toUpper := by
      decide +kernel
    rw [← Char.ofNat_toNat c]
    exact hcapital _ (by omega)

theorem toUpper_toLower (s : String) : s.toLower.toUpper = s.toUpper := by
  show String.map Char.toUpper (String.map Char.toLower s) = String.map Char.toUpper s
  rw [String.map_map]
  exact congrArg (String.map · s) (funext toUpper_toLower_char)

theorem isBlank_toLower (c : Char) : isBlank c.toLower = isBlank c := by
  rcases toLower_eq_or c with h | ⟨hlow, hhigh, hlower⟩
  · rw [h]
  · have hcapital : isBlank c = false := isBlank_eq_false (by omega) (by omega)
    have hsmall : isBlank c.toLower = false := isBlank_eq_false (by omega) (by omega)
    rw [hcapital, hsmall]

theorem trimChars_map_toLower (cs : List Char) :
    trimChars (cs.map Char.toLower) = (trimChars cs).map Char.toLower := by
  have hblank : isBlank ∘ Char.toLower = isBlank := funext isBlank_toLower
  rw [trimChars, trimChars, List.dropWhile_map, ← List.map_reverse, List.dropWhile_map, hblank,
    List.map_reverse]

end SchemaGate.Text
