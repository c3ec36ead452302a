import SchemaGate.Json.Number
import SchemaGate.Text.Utf8

/-!
# Numerals in written values

A numeral is read in two steps. Its digits are gathered into a significand of 64 bits: a digit
that would overflow it, and every later one of the same row, is dropped and leaves its mark on
the exponent only. The significand, as a floating-point number, is then multiplied or divided
by a power of ten, each step rounding once (`Numeral.assemble?`). A numeral without point,
exponent or dropped digit is an integer.

A failure is a `Stop`: what is wrong, and how many octets were left where it showed.
`Numeral.length_of_read` is what lets readers of whole values end.
-/

namespace SchemaGate

open Utf8 (Octets)

/-- Why a written value cannot be read. -/
inductive Defect where
  | endInValue
  | endInList
  | endInObject
  | endInString
  | noValue
  | noIdent
  | noColon
  | noListEnd
  | noObjectEnd
  | keyNotString
  | trailingComma
  | trailingCharacters
  | badNumber
  | numberTooLarge
  | badEscape
  | badCodePoint
  | shortHexEscape
  | loneSurrogate
  | controlCharacter
  | tooDeep
  deriving DecidableEq

/-- A defect, and how many octets were unread when it showed. -/
structure Stop where
  defect : Defect
  left : Nat
  deriving DecidableEq

namespace Stop

/-- A defect that shows behind the octets read so far. -/
def behind (defect : Defect) (rest : Octets) : Stop := ⟨defect, rest.length⟩

/-- A defect of the next octet, which counts as read. -/
def within (defect : Defect) (rest : Octets) : Stop := ⟨defect, rest.length - 1⟩

end Stop

namespace Numeral

/-- Whether an octet is an ASCII digit. -/
def isDigit (b : UInt8) : Bool := 0x30 ≤ b && b ≤ 0x39

/-- The digits at the front, and what follows them. -/
def spanDigits (bs : Octets) : Octets × Octets := (bs.takeWhile isDigit, bs.dropWhile isDigit)

theorem length_dropWhile_le (p : UInt8 → Bool) (bs : Octets) :
    (bs.dropWhile p).length ≤ bs.length :=
  (List.dropWhile_sublist p).length_le

/-- Takes digits into a significand as long as it stays below `2 ^ 64`. The answer is the
significand, how many digits it took, and how many are left. -/
def gather (significand taken : Nat) : Octets → Nat × Nat × Nat
  | [] => (significand, taken, 0)
  | d :: rest =>
    let next := significand * 10 + (d.toNat - 0x30)
    if next < 0x10000000000000000 then gather next (taken + 1) rest
    else (significand, taken, rest.length + 1)

/-- A power of ten up to the largest finite one. -/
def powerOfTen (n : Nat) : Binary64 := (Binary64.ofDecimal? false 1 n).getD default

/-- Multiplies or divides by a power of ten. Division takes steps of `10 ^ 308`; there is no
answer when the product is too large. -/
def scale? (x : Binary64) (e : Int) : Option Binary64 :=
  if 0 ≤ e then
    if e ≤ 308 then x.mul? (powerOfTen e.toNat)
    else if x.magnitude = 0 then some x
    else none
  else if -308 ≤ e then some ((x.div? (powerOfTen (-e).toNat)).getD x)
  else if x.magnitude = 0 then some x
  else scale? ((x.div? (powerOfTen 308)).getD x) (e + 308)
termination_by (-e).toNat

/-- The number of a significand and a decimal exponent, unless it is too large. -/
def assemble? (negative : Bool) (significand : Nat) (e : Int) : Option Number :=
  (scale? (Binary64.ofInt significand) e).map fun x =>
    .float (if negative then x.negate else x)

/-- The number, or the complaint that it is too large. -/
def assemble (negative : Bool) (significand : Nat) (e : Int) (rest : Octets) :
    Except Stop (Number × Octets) :=
  match assemble? negative significand e with
  | some n => .ok (n, rest)
  | none => .error (.behind .numberTooLarge rest)

/-- The value of exponent digits and the octets after them. A value past `2 ^ 31 - 1` is not
computed; the octets are then those after the digit that passed it. -/
def gatherExponent (value : Nat) : Octets → Option Nat × Octets
  | [] => (some value, [])
  | d :: rest =>
    if isDigit d then
      let next := value * 10 + (d.toNat - 0x30)
      if next < 0x80000000 then gatherExponent next rest else (none, rest)
    else (some value, d :: rest)

/-- The sign of an exponent and what follows it. -/
def spanExponentSign : Octets → Bool × Octets
  | 0x2b :: rest => (false, rest)
  | 0x2d :: rest => (true, rest)
  | bs => (false, bs)

/-- Reads an exponent after its mark. -/
def exponent (negative : Bool) (significand : Nat) (start : Int) (bs : Octets) :
    Except Stop (Number × Octets) :=
  let (down, rest) := spanExponentSign bs
  match rest with
  | [] => .error (.behind .endInValue rest)
  | d :: more =>
    if isDigit d then
      match gatherExponent 0 rest with
      | (some e, rest) => assemble negative significand (if down then start - e else start + e) rest
      | (none, rest) =>
        if significand != 0 && !down then .error (.behind .numberTooLarge rest)
        else .ok (.float (.signedZero negative), rest.dropWhile isDigit)
    else .error (.behind .badNumber more)

/-- Reads what may follow the digits of a numeral that is known to be no integer. -/
def tail (negative : Bool) (significand : Nat) (start : Int) (bs : Octets) :
    Except Stop (Number × Octets) :=
  match bs with
  | 0x65 :: rest => exponent negative significand start rest
  | 0x45 :: rest => exponent negative significand start rest
  | rest => assemble negative significand start rest

/-- Reads a fraction after its point. -/
def fraction (negative : Bool) (significand : Nat) (start : Int) (bs : Octets) :
    Except Stop (Number × Octets) :=
  let (digits, rest) := spanDigits bs
  let (gathered, taken, left) := gather significand 0 digits
  if taken = 0 ∧ left = 0 then
    .error (.within (if rest.isEmpty then .endInValue else .badNumber) rest)
  else tail negative gathered (start - taken) rest

/-- An integer as a number. Minus zero and what is below the signed range are floating-point. -/
def whole (negative : Bool) (significand : Nat) : Number :=
  let n : Int := if negative then -(significand : Int) else significand
  match (if negative ∧ significand = 0 then none else WideInt.ofInt? n) with
  | some w => .int w
  | none =>
    let x := Binary64.ofInt significand
    .float (if negative then x.negate else x)

/-- Reads what follows the first row of digits. -/
def afterWhole (negative : Bool) (digits rest : Octets) : Except Stop (Number × Octets) :=
  let (significand, _, left) := gather 0 0 digits
  match rest with
  | 0x2e :: more => fraction negative significand left more
  | _ =>
    if left = 0 ∧ rest.head? ≠ some 0x65 ∧ rest.head? ≠ some 0x45 then
      .ok (whole negative significand, rest)
    else tail negative significand left rest

/-- Reads a numeral after its sign. A zero in front stands alone. -/
def read (negative : Bool) (bs : Octets) : Except Stop (Number × Octets) :=
  match bs with
  | [] => .error (.behind .endInValue bs)
  | 0x30 :: rest =>
    if rest.head?.any isDigit then .error (.within .badNumber rest)
    else afterWhole negative [0x30] rest
  | d :: rest =>
    if isDigit d then
      let (digits, rest) := spanDigits bs
      afterWhole negative digits rest
    else .error (.behind .badNumber rest)

/-! ## Reading moves on -/

theorem length_of_assemble {negative : Bool} {significand : Nat} {e : Int} {bs rest : Octets}
    {n : Number} (h : assemble negative significand e bs = .ok (n, rest)) : rest = bs := by
  unfold assemble at h
  split at h <;> simp_all

theorem length_spanDigits_le (bs : Octets) : (spanDigits bs).2.length ≤ bs.length :=
  length_dropWhile_le _ _

theorem length_gatherExponent_le (value : Nat) (bs : Octets) :
    (gatherExponent value bs).2.length ≤ bs.length := by
  induction bs generalizing value with
  | nil => simp [gatherExponent]
  | cons d rest ih =>
    simp only [gatherExponent]
    repeat' split
    · exact Nat.le_succ_of_le (ih _)
    · simp
    · simp

theorem length_spanExponentSign_le (bs : Octets) :
    (spanExponentSign bs).2.length ≤ bs.length := by
  unfold spanExponentSign
  split <;> simp

theorem length_of_exponent {negative : Bool} {significand : Nat} {start : Int}
    {bs rest : Octets} {n : Number}
    (h : exponent negative significand start bs = .ok (n, rest)) : rest.length ≤ bs.length := by
  have hs := length_spanExponentSign_le bs
  unfold exponent at h
  simp only at h
  split at h
  · simp at h
  · rename_i d more hd
    have hg := length_gatherExponent_le 0 (spanExponentSign bs).2
    split at h
    · split at h
      · rename_i e left he
        rw [he] at hg
        rw [length_of_assemble h]
        exact Nat.le_trans hg hs
      · rename_i left he
        rw [he] at hg
        split at h
        · simp at h
        · simp only [Except.ok.injEq, Prod.mk.injEq] at h
          rw [← h.2]
          exact Nat.le_trans (length_dropWhile_le _ _) (Nat.le_trans hg hs)
    · simp at h

theorem length_of_tail {negative : Bool} {significand : Nat} {start : Int} {bs rest : Octets}
    {n : Number} (h : tail negative significand start bs = .ok (n, rest)) :
    rest.length ≤ bs.length := by
  unfold tail at h
  split at h
  · exact Nat.le_succ_of_le (length_of_exponent h)
  · exact Nat.le_succ_of_le (length_of_exponent h)
  · exact Nat.le_of_eq (congrArg List.length (length_of_assemble h))

theorem length_of_fraction {negative : Bool} {significand : Nat} {start : Int}
    {bs rest : Octets} {n : Number}
    (h : fraction negative significand start bs = .ok (n, rest)) : rest.length ≤ bs.length := by
  unfold fraction at h
  simp only at h
  by_cases hnone : (gather significand 0 (spanDigits bs).1).2.1 = 0 ∧
      (gather significand 0 (spanDigits bs).1).2.2 = 0
  · simp [hnone] at h
  · rw [if_neg hnone] at h
    exact Nat.le_trans (length_of_tail h) (length_spanDigits_le bs)

theorem length_of_afterWhole {negative : Bool} {digits bs rest : Octets} {n : Number}
    (h : afterWhole negative digits bs = .ok (n, rest)) : rest.length ≤ bs.length := by
  unfold afterWhole at h
  simp only at h
  split at h
  · exact Nat.le_succ_of_le (length_of_fraction h)
  · split at h
    · simp only [Except.ok.injEq, Prod.mk.injEq] at h
      exact Nat.le_of_eq (congrArg List.length h.2.symm)
    · exact length_of_tail h

/-- A number takes at least one octet. -/
theorem length_of_read {negative : Bool} {bs rest : Octets} {n : Number}
    (h : read negative bs = .ok (n, rest)) : rest.length < bs.length := by
  unfold read at h
  split at h
  · simp at h
  · split at h
    · simp at h
    · exact Nat.lt_succ_of_le (length_of_afterWhole h)
  · rename_i d more _
    split at h
    · rename_i hd
      refine Nat.lt_of_le_of_lt (length_of_afterWhole h) ?_
      simp only [List.dropWhile_cons, hd, if_true]
      exact Nat.lt_succ_of_le (length_dropWhile_le _ _)
    · simp at h

end Numeral

end SchemaGate
