import Mathlib
import SchemaGate.Proofs.Schema.Accepted
import SchemaGate.Proofs.Schema.Assembly
import SchemaGate.Proofs.Schema.Integers

/-!
# Limits as a schema declares them

On each side of the integers a schema may declare two limits: one that may be reached, unless a flag
says otherwise, and one that may not. A node has a single limit for a side (`Keyword.LimitOf`): the
second one if there is a second one, and then the first is not looked at.

So every accepted integer keeps to the limits that may not be reached, and to the others where the
former do not fall short of them (`Validator.validate_integer_keepsLimits`). Where they do, integers
are accepted that a declared limit rules out (`Validator.lostMinimum_accepts`).
-/

namespace SchemaGate

namespace Keyword

variable {members : Entries Json} {keyword exclusive : String} {l : Option Limit}

/-- The limit that the two keywords of one side amount to: the exclusive one, if it is a number,
else the other one, which a flag makes exclusive. -/
inductive LimitOf (members : Entries Json) (keyword exclusive : String) : Option Limit → Prop
  | own {e : Number} : Entries.get? exclusive members = some (.number e) →
      LimitOf members keyword exclusive (some ⟨e, true⟩)
  | shared {m : Number} {b : Bool} : Entries.get? keyword members = some (.number m) →
      (∀ e, Entries.get? exclusive members ≠ some (.number e)) →
      (b = true ↔ Entries.get? exclusive members = some (.bool true)) →
      LimitOf members keyword exclusive (some ⟨m, b⟩)
  | free : Entries.get? keyword members = none →
      (∀ e, Entries.get? exclusive members ≠ some (.number e)) →
      LimitOf members keyword exclusive none

/-- The reader of limits goes by the rule above wherever it succeeds. -/
theorem limitOf_of_limit (h : limit members keyword exclusive = .ok l) :
    LimitOf members keyword exclusive l := by
  unfold limit at h
  extract_lets overrule at h
  have hoverrule : ∀ inclusive : Option Number,
      Entries.get? keyword members = inclusive.map .number → overrule inclusive = .ok l →
      LimitOf members keyword exclusive l := by
    intro inclusive hkeyword h
    unfold overrule at h
    split at h
    · rename_i hnone
      cases h
      cases inclusive with
      | none => exact .free hkeyword (by simp [hnone])
      | some m => exact .shared hkeyword (by simp [hnone]) (by simp [hnone])
    · rename_i hflag
      cases h
      cases inclusive with
      | none => exact .free hkeyword (by simp [hflag])
      | some m => exact .shared hkeyword (by simp [hflag]) (by simp [hflag])
    · rename_i hown
      cases h
      exact .own hown
    · cases h
  split at h
  · rename_i hnone
    exact hoverrule none hnone h
  · rename_i n hsome
    exact hoverrule (some n) hsome h
  · cases h

/-- What the rules of an integer schema are made of. -/
theorem of_integerRule {common : Common} {rule : IntegerRule}
    (h : integerRule common members = .ok rule) :
    LimitOf members "minimum" "exclusiveMinimum" rule.minimum ∧
      LimitOf members "maximum" "exclusiveMaximum" rule.maximum ∧
      (Entries.get? "format" members = none → rule.format = none) ∧
      (Entries.get? "enum" members = none → rule.members = none) := by
  obtain ⟨format, hformat, h⟩ := bind_eq_ok_iff.mp h
  obtain ⟨minimum, hmin, h⟩ := bind_eq_ok_iff.mp h
  obtain ⟨maximum, hmax, h⟩ := bind_eq_ok_iff.mp h
  obtain ⟨values, hvalues, heq⟩ := bind_eq_ok_iff.mp h
  cases heq
  refine ⟨limitOf_of_limit hmin, limitOf_of_limit hmax, fun hnone => ?_, fun hnone => ?_⟩
  · rw [numericFormat, text, hnone] at hformat
    cases hformat
    rfl
  · rw [enumeration, hnone] at hvalues
    cases hvalues
    rfl

/-! ## What is kept to -/

/-- The keyword declares this integer. -/
def Declares (members : Entries Json) (keyword : String) (k : Int) : Prop :=
  ∃ n : WideInt, Entries.get? keyword members = some (.number (.int n)) ∧ n.val = k

/-- If the keyword is a number, it is an integer. -/
def IsIntegral (members : Entries Json) (keyword : String) : Prop :=
  ∀ x, Entries.get? keyword members = some (.number x) → ∃ n, x = .int n

/-- The integer keeps to what is declared for one side, whose direction is `past`. The limit that
may be reached counts if all that is past the other one keeps to it anyway. -/
structure KeepsTo (past : Int → Int → Prop) (members : Entries Json) (keyword exclusive : String)
    (n : Int) : Prop where
  beyond : ∀ e, Declares members exclusive e → past e n
  reached : ∀ m, Declares members keyword m →
    (∀ e, Declares members exclusive e → ∀ k, past e k → k = m ∨ past m k) →
    (n = m ∨ past m n) ∧ (Entries.get? exclusive members = some (.bool true) → past m n)

/-- To keep to what is declared for a side is to keep to the limit that it amounts to. -/
theorem LimitOf.keepsTo_iff {past : Int → Int → Prop} {n : Int} {Keeps : Limit → Prop}
    (h : LimitOf members keyword exclusive l) (hkeyword : IsIntegral members keyword)
    (hexclusive : IsIntegral members exclusive)
    (hkeeps : ∀ (k : WideInt) (b : Bool), Keeps ⟨.int k, b⟩ ↔
      (n = k.val ∨ past k.val n) ∧ (b = true → past k.val n)) :
    (∀ k ∈ l, Keeps k) ↔ KeepsTo past members keyword exclusive n := by
  cases h with
  | own hown =>
      obtain ⟨e, rfl⟩ := hexclusive _ hown
      simp only [Option.mem_some_iff, forall_eq', hkeeps]
      constructor
      · rintro ⟨-, hpast⟩
        constructor
        · rintro _ ⟨e', he', rfl⟩
          cases hown.symm.trans he'
          exact hpast trivial
        · -- the node knows nothing of this limit; it is kept to where the other one implies it
          intro m _ hbeside
          refine ⟨hbeside e.val ⟨e, hown, rfl⟩ n (hpast trivial), fun hflag => ?_⟩
          cases hown.symm.trans hflag
      · intro hside
        have hpast := hside.beyond e.val ⟨e, hown, rfl⟩
        exact ⟨.inr hpast, fun _ => hpast⟩
  | shared hm hnot hflag =>
      obtain ⟨k, rfl⟩ := hkeyword _ hm
      simp only [Option.mem_some_iff, forall_eq', hkeeps]
      have hnone : ∀ e, ¬ Declares members exclusive e := by
        rintro _ ⟨e, he, -⟩
        exact hnot _ he
      constructor
      · rintro ⟨hreached, hpast⟩
        refine ⟨fun e he => absurd he (hnone e), ?_⟩
        rintro _ ⟨m, hm', rfl⟩ _
        cases hm.symm.trans hm'
        exact ⟨hreached, fun htrue => hpast (hflag.mpr htrue)⟩
      · intro hside
        obtain ⟨hreached, hpast⟩ :=
          hside.reached k.val ⟨k, hm, rfl⟩ fun e he => absurd he (hnone e)
        exact ⟨hreached, fun hb => hpast (hflag.mp hb)⟩
  | free hmissing hnot =>
      refine iff_of_true ?_ ⟨?_, ?_⟩
      · rintro k ⟨⟩
      · rintro _ ⟨e, he, -⟩
        exact absurd he (hnot _)
      · rintro _ ⟨m, hm, -⟩
        cases hmissing.symm.trans hm

end Keyword

namespace Validator

open Keyword (IsIntegral KeepsTo)

variable {ctx : Context} {members : Entries Json} {v : Validator}

/-- A schema of type `integer` is compiled to an integer node, with the rule that its members amount
to. -/
theorem exists_rule_of_integer (href : Entries.get? "$ref" members = none)
    (htype : Form.ofMembers members = .typed (.string "integer"))
    (hc : compile ctx (.object members) = .ok v) :
    ∃ common rule, Keyword.integerRule common members = .ok rule ∧ v = integer rule := by
  unfold compile at hc
  rw [compileWith_object_eq _ _ href] at hc
  obtain ⟨common, -, hc⟩ := bind_eq_ok_iff.mp hc
  unfold assembleBody at hc
  rw [htype] at hc
  obtain ⟨rule, hrule, heq⟩ := bind_eq_ok_iff.mp hc
  cases heq
  exact ⟨common, rule, hrule, rfl⟩

/-- What a node of type integer accepts is absent, null or an integer that keeps to the limits
declared for both sides, as far as the ones that may not be reached let the others count. Where
there is neither a format nor an enumeration, every integer that does so is accepted. -/
theorem validate_integer_keepsLimits (href : Entries.get? "$ref" members = none)
    (htype : Form.ofMembers members = .typed (.string "integer"))
    (hintegral : ∀ keyword ∈ ["minimum", "exclusiveMinimum", "maximum", "exclusiveMaximum"],
      IsIntegral members keyword)
    (hc : compile ctx (.object members) = .ok v) :
    (∀ (input out : Field) (raw : Bool), v.validate input raw = .ok out →
      out = .absent ∨ out = .null ∨ ∃ n : WideInt, out = .value (.number (.int n)) ∧
        KeepsTo (· < ·) members "minimum" "exclusiveMinimum" n.val ∧
        KeepsTo (· > ·) members "maximum" "exclusiveMaximum" n.val) ∧
    (Entries.get? "format" members = none → Entries.get? "enum" members = none →
      ∀ (n : WideInt) (raw : Bool),
        KeepsTo (· < ·) members "minimum" "exclusiveMinimum" n.val →
        KeepsTo (· > ·) members "maximum" "exclusiveMaximum" n.val →
        v.validate (.value (.number (.int n))) raw = .ok (.value (.number (.int n)))) := by
  obtain ⟨common, rule, hrule, rfl⟩ := exists_rule_of_integer href htype hc
  obtain ⟨hmin, hmax, hformat, henum⟩ := Keyword.of_integerRule hrule
  have hlow : ∀ n : WideInt, (∀ l ∈ rule.minimum, l.IsMinimumOf (.int n)) ↔
      KeepsTo (· < ·) members "minimum" "exclusiveMinimum" n.val := fun n =>
    hmin.keepsTo_iff (hintegral _ (by simp)) (hintegral _ (by simp)) fun k b =>
      (Limit.isMinimumOf_int_iff rfl).trans (and_congr (by omega) .rfl)
  have hhigh : ∀ n : WideInt, (∀ l ∈ rule.maximum, l.IsMaximumOf (.int n)) ↔
      KeepsTo (· > ·) members "maximum" "exclusiveMaximum" n.val := fun n =>
    hmax.keepsTo_iff (hintegral _ (by simp)) (hintegral _ (by simp)) fun k b =>
      (Limit.isMaximumOf_int_iff rfl).trans (and_congr (by omega) .rfl)
  constructor
  · intro input out raw hok
    cases accepted_of_validate hok with
    | absent _ => exact .inl rfl
    | null _ _ => exact .inr (.inl rfl)
    | @integer _ _ n _ hchecks =>
        have hwithin := (IntegerRule.checks_hold_iff.mp hchecks).within
        exact .inr (.inr ⟨n, rfl, (hlow n).mp hwithin.above, (hhigh n).mp hwithin.below⟩)
  · intro hnoFormat hnoEnum n raw hkeepsMin hkeepsMax
    have hadmits : rule.Admits n := by
      refine ⟨fun h => ?_, fun ms hms => ?_, (hlow n).mpr hkeepsMin, (hhigh n).mpr hkeepsMax⟩
      · rw [hformat hnoFormat] at h
        cases h
      · rw [henum hnoEnum] at hms
        cases hms
    rw [validate_integer_of_isGiven ⟨rfl, rfl⟩, IntegerRule.examine_eq_ok_iff]
    exact ⟨n, rfl, IntegerRule.checks_hold_iff.mpr hadmits, rfl⟩

/-! ## Limits beside each other -/

/-- Seats that a booking may have, with limits of both dialects. -/
def seatMembers : Entries Json :=
  [("type", .string "integer"), ("minimum", .number (.int ⟨4, by decide, by decide⟩)),
    ("exclusiveMinimum", .number (.int ⟨9, by decide, by decide⟩)),
    ("maximum", .number (.int ⟨30, by decide, by decide⟩)), ("exclusiveMaximum", .bool true)]

/-- What the seats are compiled to: there is no trace of the minimum. -/
def seats : Validator :=
  .integer
    { minimum := some ⟨.int ⟨9, by decide, by decide⟩, true⟩
      maximum := some ⟨.int ⟨30, by decide, by decide⟩, true⟩ }

/-- The number of seats that is asked for. -/
def seatsSent : WideInt := ⟨12, by decide, by decide⟩

theorem compile_seats : compile ⟨none, .empty⟩ (.object seatMembers) = .ok seats := by
  unfold compile
  rw [compileWith_object_eq _ _ rfl]
  cbv

/-- The seats keep to the three limits that they are compared with, and so to the fourth. -/
theorem seats_keepLimits :
    seats.validate (.value (.string " 12")) true = .ok (.value (.number (.int seatsSent))) ∧
      (9 < seatsSent.val ∧ 4 ≤ seatsSent.val ∧ seatsSent.val < 30) ∧
      seats.validate (.value (.number (.int seatsSent))) false =
        .ok (.value (.number (.int seatsSent))) := by
  have hok : seats.validate (.value (.string " 12")) true =
      .ok (.value (.number (.int seatsSent))) := by cbv
  have hintegral : ∀ keyword ∈ ["minimum", "exclusiveMinimum", "maximum", "exclusiveMaximum"],
      IsIntegral seatMembers keyword := by
    intro keyword hkeyword x hx
    simp only [List.mem_cons, List.not_mem_nil, or_false] at hkeyword
    rcases hkeyword with rfl | rfl | rfl | rfl
    all_goals cases hx
    all_goals exact ⟨_, rfl⟩
  obtain ⟨haccepted, hkept⟩ := validate_integer_keepsLimits rfl rfl hintegral compile_seats
  obtain habsent | hnull | ⟨n, hn, hmin, hmax⟩ := haccepted _ _ _ hok
  · cases habsent
  · cases hnull
  · cases hn
    refine ⟨hok, ⟨hmin.beyond 9 ⟨_, rfl, rfl⟩, ?_, ?_⟩, hkept rfl rfl _ _ hmin hmax⟩
    · have hreached := (hmin.reached 4 ⟨_, rfl, rfl⟩ ?_).1
      · omega
      · rintro _ ⟨e, he, rfl⟩ k hk
        cases he
        have hnine : (9 : Int) < k := hk
        show k = 4 ∨ 4 < k
        omega
    · refine (hmax.reached 30 ⟨_, rfl, rfl⟩ ?_).2 rfl
      rintro _ ⟨e, he, rfl⟩
      cases he

/-- A minimum with an exclusive limit below it. -/
def lostMinimum : Entries Json :=
  [("type", .string "integer"), ("minimum", .number (.int ⟨10, by decide, by decide⟩)),
    ("exclusiveMinimum", .number (.int ⟨5, by decide, by decide⟩))]

/-- An integer between the two. -/
def belowMinimum : WideInt := ⟨6, by decide, by decide⟩

/-- The integer is accepted, though the minimum rules it out. -/
theorem lostMinimum_accepts :
    Form.ofMembers lostMinimum = .typed (.string "integer") ∧
      (∀ keyword ∈ ["minimum", "exclusiveMinimum", "maximum", "exclusiveMaximum"],
        IsIntegral lostMinimum keyword) ∧
      ∃ v, compile ⟨none, .empty⟩ (.object lostMinimum) = .ok v ∧
        v.validate (.value (.number (.int belowMinimum))) false =
          .ok (.value (.number (.int belowMinimum))) ∧
        Keyword.Declares lostMinimum "minimum" 10 ∧ belowMinimum.val < 10 := by
  refine ⟨rfl, ?_, .integer { minimum := some ⟨.int ⟨5, by decide, by decide⟩, true⟩ }, ?_, by cbv,
    ⟨_, rfl, rfl⟩, by decide⟩
  · intro keyword hkeyword x hx
    simp only [List.mem_cons, List.not_mem_nil, or_false] at hkeyword
    rcases hkeyword with rfl | rfl | rfl | rfl
    all_goals cases hx
    all_goals exact ⟨_, rfl⟩
  · unfold compile
    rw [compileWith_object_eq _ _ rfl]
    cbv

end Validator

end SchemaGate
