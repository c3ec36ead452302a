/-!
# UTF-8

Reading octets as UTF-8 text, strictly or with replacement.

* `Utf8.lead` says what the first octet of a sequence asks for;
* `Utf8.next` reads one scalar value, or names how many octets the longest valid start of a
  sequence takes;
* `Utf8.decodeLossy` puts one U+FFFD in the place of each such start;
* `Utf8.decode?` accepts well-formed text only.
-/

namespace SchemaGate.Utf8

/-- An octet string. -/
abbrev Octets := List UInt8

/-- The octets of a text. -/
def encode (s : String) : Octets := s.toUTF8.toList

/-- What the first octet of a sequence promises: the bits that it contributes, how many octets
follow, and the range of the first of them. That range is what shuts out overlong forms,
surrogates and values past U+10FFFF. -/
structure Lead where
  bits : Nat
  following : Nat
  low : Nat
  high : Nat

/-- The promise of a first octet, if it can start a sequence. -/
def lead (b : UInt8) : Option Lead :=
  let n := b.toNat
  if n < 0x80 then some ⟨n, 0, 0x80, 0xbf⟩
  else if 0xc2 ≤ n && n ≤ 0xdf then some ⟨n - 0xc0, 1, 0x80, 0xbf⟩
  else if n == 0xe0 then some ⟨0, 2, 0xa0, 0xbf⟩
  else if n == 0xed then some ⟨0xd, 2, 0x80, 0x9f⟩
  else if 0xe1 ≤ n && n ≤ 0xef then some ⟨n - 0xe0, 2, 0x80, 0xbf⟩
  else if n == 0xf0 then some ⟨0, 3, 0x90, 0xbf⟩
  else if n == 0xf4 then some ⟨4, 3, 0x80, 0x8f⟩
  else if 0xf1 ≤ n && n ≤ 0xf3 then some ⟨n - 0xf0, 3, 0x80, 0xbf⟩
  else none

/-- Takes `following` continuation octets, the first of them between `low` and `high`. The
second part of the answer is what is left where reading stopped. -/
def continuation (bits following low high : Nat) : Octets → Option Nat × Octets
  | [] => (if following = 0 then some bits else none, [])
  | b :: rest =>
    match following with
    | 0 => (some bits, b :: rest)
    | k + 1 =>
      if low ≤ b.toNat && b.toNat ≤ high then
        continuation (bits * 64 + (b.toNat - 0x80)) k 0x80 0xbf rest
      else (none, b :: rest)

theorem length_continuation_le (bits following low high : Nat) (bs : Octets) :
    (continuation bits following low high bs).2.length ≤ bs.length := by
  induction bs generalizing bits following low high with
  | nil => simp [continuation]
  | cons b rest ih =>
    cases following with
    | zero => simp [continuation]
    | succ k =>
      simp only [continuation]
      split
      · exact Nat.le_succ_of_le (ih ..)
      · simp

/-- One scalar value and the octets after it, or no value and the octets after the longest
start of a sequence (at least one octet is gone in either case). -/
def next (b : UInt8) (rest : Octets) : Option Char × Octets :=
  match lead b with
  | none => (none, rest)
  | some l =>
    let (code, left) := continuation l.bits l.following l.low l.high rest
    (code.map Char.ofNat, left)

theorem length_next_le (b : UInt8) (rest : Octets) : (next b rest).2.length ≤ rest.length := by
  unfold next
  split
  · simp
  · exact length_continuation_le ..

/-- Appends the text of the octets to the characters read so far, kept in reverse. -/
def decodeLossyFrom (seen : List Char) : Octets → List Char
  | [] => seen.reverse
  | b :: rest => decodeLossyFrom ((next b rest).1.getD '\uFFFD' :: seen) (next b rest).2
termination_by bs => bs.length
decreasing_by exact Nat.lt_succ_of_le (length_next_le b rest)

/-- Octets as text, with U+FFFD for each longest start that no octet completes. -/
def decodeLossy (bs : Octets) : String := String.ofList (decodeLossyFrom [] bs)

/-- Appends the text of well-formed octets to the characters read so far, kept in reverse. -/
def decodeFrom? (seen : List Char) : Octets → Option (List Char)
  | [] => some seen.reverse
  | b :: rest =>
    match (next b rest).1 with
    | none => none
    | some c => decodeFrom? (c :: seen) (next b rest).2
termination_by bs => bs.length
decreasing_by exact Nat.lt_succ_of_le (length_next_le b rest)

/-- Octets as text, if they are well-formed. -/
def decode? (bs : Octets) : Option String := (decodeFrom? [] bs).map String.ofList

end SchemaGate.Utf8
