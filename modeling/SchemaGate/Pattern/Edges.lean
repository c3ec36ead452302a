import SchemaGate.Pattern.CharSet

/-!
# Edges of sets of characters

A set of characters as the list of the code points at which membership changes: those where a
range begins and those just behind its end. Two such lists are combined in one pass from the
lowest code point up.

* `CharSet.edges` is the list of a set;
* `CharSet.ranges` is the same as ranges.
-/

namespace SchemaGate

namespace CharSet

/-- Makes membership change at a place, in front of later changes. Two changes at one place are
none. -/
def turnAt (n : Nat) : List Nat → List Nat
  | [] => [n]
  | m :: rest => if m = n then rest else n :: m :: rest

/-- The edges of what an operation makes of two sets with the given edges; `x` and `y` tell
whether the places before are members. -/
def sweep (op : Bool → Bool → Bool) (x y : Bool) : List Nat → List Nat → List Nat
  | [], [] => []
  | a :: as, [] => turnIf (op x y != op (!x) y) a (sweep op (!x) y as [])
  | [], b :: bs => turnIf (op x y != op x (!y)) b (sweep op x (!y) [] bs)
  | a :: as, b :: bs =>
    if a < b then turnIf (op x y != op (!x) y) a (sweep op (!x) y as (b :: bs))
    else if b < a then turnIf (op x y != op x (!y)) b (sweep op x (!y) (a :: as) bs)
    else turnIf (op x y != op (!x) (!y)) a (sweep op (!x) (!y) as bs)
where
  /-- A change at a place, if there is one. -/
  turnIf (changes : Bool) (n : Nat) (rest : List Nat) : List Nat :=
    if changes then turnAt n rest else rest

/-- The edges of runs. -/
def edgesOfRuns (runs : Unicode.Runs) : List Nat :=
  runs.foldr (fun r rest => turnAt r.1 (turnAt (r.2 + 1) rest)) []

/-- Adds single code points to a set. -/
def withPoints (points edges : List Nat) : List Nat :=
  points.foldl (fun edges n => sweep or false false edges [n, n + 1]) edges

/-- The code points that have a partner of the other case. -/
def casedPoints : List Nat :=
  Unicode.foldRuns.flatMap fun r =>
    ((List.range (r.last + 1 - r.first)).map (r.first + ·)).flatMap fun n =>
      if r.holds n then [n, ((n : Int) + r.plus).toNat] else []

/-- The blank code points. -/
def blankPoints : List Nat := (List.range 0x3001).filter fun n => Text.isBlank (Char.ofNat n)

/-- Where membership changes, in ascending order: a code point is a member if an odd number of
edges is not above it. -/
def edges : CharSet → List Nat
  | none => []
  | range low high => if low ≤ high then [low, high + 1] else []
  | blank => edgesOfRuns (blankPoints.map fun n => (n, n))
  | category name => edgesOfRuns ((row? Unicode.categories name).getD [])
  | script name => edgesOfRuns ((row? Unicode.scripts name).getD [])
  | property name =>
    match Unicode.properties.find? (·.names.contains name) with
    | some p =>
      let whole := p.categories.foldl
        (fun edges c => sweep or false false edges
          (edgesOfRuns ((row? Unicode.categories c).getD [])))
        (edgesOfRuns p.added)
      sweep (fun x y => x && !y) false false whole (edgesOfRuns p.removed)
    | Option.none => []
  | union a b => sweep or false false a.edges b.edges
  | meet a b => sweep and false false a.edges b.edges
  | without a b => sweep (fun x y => x && !y) false false a.edges b.edges
  | either a b => sweep (· != ·) false false a.edges b.edges
  | complement a => turnAt 0 a.edges
  | folded true a => withPoints ((casedPoints.filter a.holds).flatMap Unicode.orbit) a.edges
  | folded false a =>
    withPoints (((List.range 0x80).filter a.holds).map asciiPartner) a.edges

/-- The ranges between edges. The last one may have no end. -/
def rangesOfEdges : List Nat → List (Nat × Nat)
  | low :: next :: rest => (low, next - 1) :: rangesOfEdges rest
  | [low] => [(low, 0x10ffff)]
  | [] => []

/-- The members as ranges, first and last included, in ascending order. -/
def ranges (s : CharSet) : List (Nat × Nat) := rangesOfEdges s.edges

end CharSet

end SchemaGate
