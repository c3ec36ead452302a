import Mathlib.Data.Nat.Digits.Defs
import SchemaGate.Decimal.Literal
import SchemaGate.Proofs.Text.Trimming

/-!
# Integers in text

Which texts are integers, and which integers they are (`Decimal.Spells`): blanks, a sign at most,
one digit or more, blanks. Digits count by their places, so leading zeros make no difference.

* `Decimal.integer?_eq_some_iff`: the reader accepts a sign and digits and nothing else, and answers
  with the integer that they denote;
* `Decimal.integer?_trimChars_eq_some_iff`: behind the trimming of blanks it accepts the grammar;
* `Decimal.spells_toString`: an integer is spelled by the text that it is written as.
-/

namespace SchemaGate.Decimal

/-! ## Digits -/

/-- The characters are digits, and there are some. -/
def IsRow (ds : List Char) : Prop := ds ≠ [] ∧ ∀ c ∈ ds, c.isDigit = true

/-- The number that digits denote by their places, the last one being that of the units. -/
def placeValue (ds : List Char) : Nat := Nat.ofDigits 10 (ds.reverse.map digitValue)

theorem ofDigits_eq_placeValue (ds : List Char) : ofDigits ds = placeValue ds := by
  rw [ofDigits, placeValue, Nat.ofDigits_eq_foldr, List.foldr_map, List.foldr_reverse]
  refine congrArg (fun step => ds.foldl step 0) ?_
  funext n d
  exact Nat.add_comm _ _

theorem natural?_eq_some_iff {cs : List Char} {n : Nat} :
    natural? cs = some n ↔ IsRow cs ∧ placeValue cs = n := by
  rw [natural?, ofDigits_eq_placeValue, Option.ite_none_right_eq_some, Option.some.injEq,
    List.all_eq_true, IsRow]

/-- The digits of a number, as it is written, denote the number. -/
theorem placeValue_toDigits (n : Nat) : placeValue (Nat.toDigits 10 n) = n := by
  rw [← ofDigits_eq_placeValue]
  exact Nat.ofDigitChars_ten_toDigits

theorem isRow_toDigits (n : Nat) : IsRow (Nat.toDigits 10 n) :=
  ⟨Nat.toDigits_ne_nil, fun _ hc => Nat.isDigit_of_mem_toDigits (by decide) (by decide) hc⟩

theorem not_isBlank_of_isDigit {c : Char} (h : c.isDigit = true) : Text.isBlank c = false := by
  obtain ⟨hlow, hhigh⟩ : 48 ≤ c.toNat ∧ c.toNat ≤ 57 := Char.isDigit_iff_toNat.mp h
  exact Text.isBlank_eq_false (by omega) (by omega)

theorem not_isRow_cons {c : Char} {ds : List Char} (h : c.isDigit = false) :
    ¬ IsRow (c :: ds) := by
  rintro ⟨-, hdigits⟩
  have hc := hdigits c List.mem_cons_self
  rw [h] at hc
  cases hc

/-! ## Signs -/

/-- A sign at most in front of digits, and the integer that they denote. -/
inductive Denotes : List Char → Int → Prop
  | plain {ds : List Char} : IsRow ds → Denotes ds (placeValue ds)
  | plus {ds : List Char} : IsRow ds → Denotes ('+' :: ds) (placeValue ds)
  | minus {ds : List Char} : IsRow ds → Denotes ('-' :: ds) (-(placeValue ds : Int))

theorem integer?_eq (cs : List Char) :
    integer? cs = (natural? (spanSign cs).2).map fun n : Nat =>
      if (spanSign cs).1 then -(n : Int) else (n : Int) := by
  rw [integer?]
  rcases spanSign cs with ⟨sign, ds⟩
  show Option.map _ (natural? ds >>= _) = _
  cases natural? ds <;> rfl

/-- The reader of integers accepts what denotes one. -/
theorem integer?_eq_some_iff {cs : List Char} {n : Int} :
    integer? cs = some n ↔ Denotes cs n := by
  have hread : integer? cs = some n ↔ ∃ sign ds, spanSign cs = (sign, ds) ∧ IsRow ds ∧
      (if sign then -(placeValue ds : Int) else (placeValue ds : Int)) = n := by
    rw [integer?_eq, Option.map_eq_some_iff]
    constructor
    · rintro ⟨k, hk, rfl⟩
      obtain ⟨hrow, rfl⟩ := natural?_eq_some_iff.mp hk
      exact ⟨_, _, rfl, hrow, rfl⟩
    · rintro ⟨sign, ds, hsign, hrow, rfl⟩
      rw [hsign]
      exact ⟨_, natural?_eq_some_iff.mpr ⟨hrow, rfl⟩, rfl⟩
  rw [hread]
  constructor
  · rintro ⟨sign, ds, hsign, hrow, rfl⟩
    unfold spanSign at hsign
    split at hsign
    all_goals cases hsign
    · exact .minus hrow
    · exact .plus hrow
    · exact .plain hrow
  · intro h
    cases h with
    | plus hrow => exact ⟨false, _, rfl, hrow, rfl⟩
    | minus hrow => exact ⟨true, _, rfl, hrow, rfl⟩
    | plain hrow =>
        refine ⟨false, cs, ?_, hrow, rfl⟩
        unfold spanSign
        -- a sign is no digit
        split
        · exact absurd hrow (not_isRow_cons (by decide))
        · exact absurd hrow (not_isRow_cons (by decide))
        · rfl

theorem Denotes.not_isBlank {cs : List Char} {n : Int} (h : Denotes cs n) :
    ∀ c ∈ cs, Text.isBlank c = false := by
  cases h with
  | plain hrow => exact fun c hc => not_isBlank_of_isDigit (hrow.2 c hc)
  | plus hrow =>
      rw [List.forall_mem_cons]
      exact ⟨by decide, fun c hc => not_isBlank_of_isDigit (hrow.2 c hc)⟩
  | minus hrow =>
      rw [List.forall_mem_cons]
      exact ⟨by decide, fun c hc => not_isBlank_of_isDigit (hrow.2 c hc)⟩

/-- An integer is denoted by the text that it is written as. -/
theorem denotes_toString (n : Int) : Denotes (toString n).toList n := by
  cases n with
  | ofNat m =>
      have hdigits : (toString (Int.ofNat m)).toList = Nat.toDigits 10 m := Nat.toList_repr
      have hplain : Denotes (Nat.toDigits 10 m) (placeValue (Nat.toDigits 10 m)) :=
        .plain (isRow_toDigits m)
      rw [placeValue_toDigits] at hplain
      rw [hdigits]
      exact hplain
  | negSucc m =>
      have hdigits : (toString (Int.negSucc m)).toList = '-' :: Nat.toDigits 10 (m + 1) := by
        have hsigned : (toString (Int.negSucc m)).toList =
            ("-" ++ Nat.repr (m + 1)).toList := rfl
        rw [hsigned, String.toList_append, Nat.toList_repr]
        rfl
      have hminus : Denotes ('-' :: Nat.toDigits 10 (m + 1))
          (-(placeValue (Nat.toDigits 10 (m + 1)) : Int)) := .minus (isRow_toDigits (m + 1))
      rw [placeValue_toDigits] at hminus
      rw [hdigits]
      exact hminus

/-! ## Blanks around -/

/-- The text is an integer in decimal, with blanks around it or without. -/
def Spells (s : String) (n : Int) : Prop :=
  ∃ front written back, s.toList = front ++ written ++ back ∧
    (∀ c ∈ front, Text.isBlank c = true) ∧ Denotes written n ∧
    ∀ c ∈ back, Text.isBlank c = true

/-- Trimmed and read, a text is the integer that it spells. -/
theorem integer?_trimChars_eq_some_iff {s : String} {n : Int} :
    integer? (Text.trimChars s.toList) = some n ↔ Spells s n := by
  rw [integer?_eq_some_iff]
  constructor
  · intro h
    obtain ⟨front, back, hsplit, hfront, hback⟩ := Text.exists_blanks_trimChars s.toList
    exact ⟨front, _, back, hsplit, hfront, h, hback⟩
  · rintro ⟨front, written, back, hsplit, hfront, hwritten, hback⟩
    rwa [hsplit, Text.trimChars_of_blanks hfront hwritten.not_isBlank hback]

/-- What an integer is written as spells the integer. -/
theorem spells_toString (n : Int) : Spells (toString n) n :=
  ⟨[], (toString n).toList, [], by simp, by simp, denotes_toString n, by simp⟩

end SchemaGate.Decimal
