/-!
# Runs of octets

The encodings of a range of code points as sequences of runs of octets: a text is the encoding
of a character of the range if each of its octets lies in the run of its place, for one of the
sequences. Sequences stand in the order of the code points.

* `Utf8.runsOfRange` cuts a range of code points;
* `Utf8.countShared` counts the runs, where those at a common front count once.
-/

namespace SchemaGate

namespace Utf8

/-- The octets of a code point. -/
def octets (n : Nat) : List Nat := (String.utf8EncodeChar (Char.ofNat n)).map UInt8.toNat

/-- The runs that any continuation lies in. -/
def anyTail (tail : List Nat) : List (Nat × Nat) := tail.map fun _ => (0x80, 0xbf)

/-- Cuts the continuations from one up to the last into runs of octets. -/
def runsFrom : List Nat → List (List (Nat × Nat))
  | [] => [[]]
  | a :: tail =>
    if tail.all (· == 0x80) then [(a, 0xbf) :: anyTail tail]
    else
      (runsFrom tail).map ((a, a) :: ·) ++
        (if a < 0xbf then [(a + 1, 0xbf) :: anyTail tail] else [])

/-- Cuts the continuations from the first up to one into runs of octets. -/
def runsUpTo : List Nat → List (List (Nat × Nat))
  | [] => [[]]
  | b :: tail =>
    if tail.all (· == 0xbf) then [(0x80, b) :: anyTail tail]
    else
      (if 0x80 < b then [(0x80, b - 1) :: anyTail tail] else []) ++
        (runsUpTo tail).map ((b, b) :: ·)

/-- Cuts the range between two encodings of one length into runs of octets: the sequences whose
octets lie in the runs of their places are the encodings in the range. -/
def octetRuns : List Nat → List Nat → List (List (Nat × Nat))
  | a :: as, b :: bs =>
    if a = b then (octetRuns as bs).map ((a, a) :: ·)
    else
      let startsWhole := as.all (· == 0x80)
      let endsWhole := bs.all (· == 0xbf)
      let first := if startsWhole then a else a + 1
      let last := if endsWhole then b else b - 1
      (if startsWhole then [] else (runsFrom as).map ((a, a) :: ·)) ++
        (if first ≤ last then [(first, last) :: anyTail as] else []) ++
        (if endsWhole then [] else (runsUpTo bs).map ((b, b) :: ·))
  | _, _ => [[]]

/-- The ranges of code points whose encodings have one length, without the surrogates. -/
def blocks : List (Nat × Nat) :=
  [(0, 0x7f), (0x80, 0x7ff), (0x800, 0xd7ff), (0xe000, 0xffff), (0x10000, 0x10ffff)]

/-- The runs of octets of a range of code points. -/
def runsOfRange (low high : Nat) : List (List (Nat × Nat)) :=
  blocks.flatMap fun block =>
    let first := max low block.1
    let last := min high block.2
    if first ≤ last then octetRuns (octets first) (octets last) else []

/-- How many places two lists begin with in common. -/
def shared : List (Nat × Nat) → List (Nat × Nat) → Nat
  | a :: as, b :: bs => if a = b then shared as bs + 1 else 0
  | _, _ => 0

/-- How many runs sequences hold when each shares its front with the one before. -/
def countShared (before : List (Nat × Nat)) : List (List (Nat × Nat)) → Nat
  | [] => 0
  | runs :: rest => runs.length - shared before runs + countShared runs rest

end Utf8

end SchemaGate
