import Mathlib.Data.List.Basic
import SchemaGate.Pattern.Expr

/-!
# What a pattern matches

A pattern expression is a relation between places of a text: the place where a match begins and
the place where it ends. `Expr.Matches` says which places these are, one line for each way of
putting expressions together, and knows nothing of how they are found. A place is told by the
character before it and the characters after it, which is all that looking around needs.

* `Place.Over`: the way from one place to another, which only leads forward;
* `Expr.Forward`: relations that hold along such ways, and `Expr.forward_matches`: every expression
  is one of them;
* `Expr.Rounds.exists_first`: of the rounds of a repetition that takes something, one is the first
  to do so;
* `Expr.matches_times_char_iff`: a set of characters that is repeated;
* `Expr.matches_self_iff`: `Expr.nullable` tells the places where nothing need be taken.
-/

namespace SchemaGate

/-! ## Places -/

/-- A place in a text: the character before it, unless the text starts there, and the characters
after it. -/
structure Place where
  before : Option Char
  after : List Char

namespace Place

/-- One comes from a place over some characters to another place. -/
inductive Over : Place → List Char → Place → Prop
  | here (p : Place) : Over p [] p
  | next {before : Option Char} {c : Char} {rest cs : List Char} {q : Place} :
      Over ⟨some c, rest⟩ cs q → Over ⟨before, c :: rest⟩ (c :: cs) q

variable {p q r : Place} {cs ds rest : List Char}

theorem Over.trans (h : p.Over cs q) (h' : q.Over ds r) : p.Over (cs ++ ds) r := by
  induction h with
  | here p => exact h'
  | next _ ih => exact .next (ih h')

/-- A way over characters in two parts is a way over the one and then over the other. -/
theorem over_append_iff : p.Over (cs ++ ds) q ↔ ∃ r, p.Over cs r ∧ r.Over ds q := by
  constructor
  · intro h
    induction cs generalizing p with
    | nil => exact ⟨p, .here p, h⟩
    | cons c cs ih =>
        cases h with
        | next h =>
            obtain ⟨r, hcs, hds⟩ := ih h
            exact ⟨r, .next hcs, hds⟩
  · intro h
    obtain ⟨r, hcs, hds⟩ := h
    exact hcs.trans hds

theorem over_cons_iff {c : Char} : p.Over (c :: cs) q ↔ ∃ r, p.Over [c] r ∧ r.Over cs q := by
  show p.Over ([c] ++ cs) q ↔ _
  exact over_append_iff

theorem Over.after_eq (h : p.Over cs q) : p.after = cs ++ q.after := by
  induction h with
  | here p => rfl
  | next _ ih => exact congrArg (List.cons _) ih

/-- The characters after a place can be gone over. -/
theorem exists_over (h : p.after = cs ++ rest) : ∃ before, p.Over cs ⟨before, rest⟩ := by
  induction cs generalizing p with
  | nil =>
      obtain ⟨before, after⟩ := p
      obtain rfl : after = rest := h
      exact ⟨before, .here _⟩
  | cons c cs ih =>
      obtain ⟨before, after⟩ := p
      obtain rfl : after = c :: (cs ++ rest) := h
      obtain ⟨last, hover⟩ := @ih ⟨some c, cs ++ rest⟩ rfl
      exact ⟨last, .next hover⟩

/-- Only the way over nothing ends at the start of a text. -/
theorem Over.eq_nil (h : p.Over cs q) (hq : q.before = none) : cs = [] ∧ q = p := by
  induction h with
  | here p => exact ⟨rfl, rfl⟩
  | next _ ih =>
      obtain ⟨-, rfl⟩ := ih hq
      cases hq

/-- A way leads forward or nowhere. -/
theorem Over.eq_or_lt (h : p.Over cs q) : q = p ∨ q.after.length < p.after.length := by
  cases h with
  | here p => exact .inl rfl
  | next h =>
      have hlength := congrArg List.length h.after_eq
      simp only [List.length_append] at hlength
      simp only [List.length_cons]
      omega

/-- There is no way back. -/
theorem Over.antisymm (h : p.Over cs q) (h' : q.Over ds p) : q = p := by
  rcases h.eq_or_lt with heq | hlt
  · exact heq
  · rcases h'.eq_or_lt with heq | hlt'
    · exact heq.symm
    · omega

end Place

namespace CharSet

theorem holds_single_iff {c d : Char} : (single c).holds d.toNat = true ↔ d = c := by
  have hchar : d.toNat = c.toNat ↔ d = c := Char.toNat_inj
  rw [← hchar, single, holds, Bool.and_eq_true, decide_eq_true_eq, decide_eq_true_eq]
  omega

end CharSet

namespace Expr

/-! ## Matches -/

/-- So many rounds in a row. -/
def Rounds (R : Place → Place → Prop) : Nat → Place → Place → Prop
  | 0, p, q => q = p
  | n + 1, p, q => ∃ r, R p r ∧ Rounds R n r q

/-- The expression matches what stands between two places. -/
def Matches : Expr → Place → Place → Prop
  | empty, p, q => q = p
  | char set, p, q => ∃ c, set.holds c.toNat = true ∧ p.Over [c] q
  | look condition, p, q => q = p ∧ condition.holds p.before p.after.head? = true
  | seq a b, p, q => ∃ r, a.Matches p r ∧ b.Matches r q
  | alt a b, p, q => a.Matches p q ∨ b.Matches p q
  | times e least most, p, q =>
    ∃ n, (least ≤ n ∧ ∀ m ∈ most, n ≤ m) ∧ Rounds e.Matches n p q

/-- Expressions that match one after the other. -/
def MatchesAll : List Expr → Place → Place → Prop
  | [], p, q => q = p
  | e :: rest, p, q => ∃ r, e.Matches p r ∧ MatchesAll rest r q

/-- No repetition asks for more rounds than it allows. -/
def WellFormed : Expr → Prop
  | empty => True
  | char _ => True
  | look _ => True
  | seq a b => a.WellFormed ∧ b.WellFormed
  | alt a b => a.WellFormed ∧ b.WellFormed
  | times e least most => e.WellFormed ∧ ∀ m ∈ most, least ≤ m

section

variable {a b : Expr} {c : Char} {p q : Place}

theorem matches_seq_iff : (seq a b).Matches p q ↔ ∃ r, a.Matches p r ∧ b.Matches r q := Iff.rfl

theorem matches_single_iff : (char (.single c)).Matches p q ↔ p.Over [c] q := by
  constructor
  · intro h
    obtain ⟨d, hd, hover⟩ := h
    rwa [CharSet.holds_single_iff.mp hd] at hover
  · intro hover
    exact ⟨c, CharSet.holds_single_iff.mpr rfl, hover⟩

end

/-! ## Relations that lead forward -/

/-- A relation that leads from a place over characters, if anywhere. -/
def Forward (R : Place → Place → Prop) : Prop := ∀ ⦃p q : Place⦄, R p q → ∃ cs, p.Over cs q

section

variable {R S : Place → Place → Prop} {n m : Nat} {p q r : Place}

theorem forward_eq : Forward fun p q => q = p := by
  intro p q h
  subst h
  exact ⟨[], .here q⟩

theorem Forward.comp (hR : Forward R) (hS : Forward S) : Forward fun p q => ∃ r, R p r ∧ S r q := by
  intro p q h
  obtain ⟨r, hpr, hrq⟩ := h
  obtain ⟨cs, hcs⟩ := hR hpr
  obtain ⟨ds, hds⟩ := hS hrq
  exact ⟨cs ++ ds, hcs.trans hds⟩

theorem Forward.antisymm (hR : Forward R) (hS : Forward S) (hpr : R p r) (hrp : S r p) : r = p := by
  obtain ⟨cs, hcs⟩ := hR hpr
  obtain ⟨ds, hds⟩ := hS hrp
  exact hcs.antisymm hds

/-- A way of two parts that ends where it began has stayed there. -/
theorem Forward.comp_self_iff (hR : Forward R) (hS : Forward S) :
    (∃ r, R p r ∧ S r p) ↔ R p p ∧ S p p := by
  constructor
  · intro h
    obtain ⟨r, hpr, hrp⟩ := h
    obtain rfl : r = p := hR.antisymm hS hpr hrp
    exact ⟨hpr, hrp⟩
  · intro h
    exact ⟨p, h⟩

/-- A way of two parts that ends elsewhere leaves its place with the first part, or stays there and
leaves it with the second. -/
theorem Forward.comp_ne_iff (hR : Forward R) (hS : Forward S) :
    (∃ r, R p r ∧ S r q) ∧ q ≠ p ↔ (∃ r, (R p r ∧ r ≠ p) ∧ S r q) ∨ R p p ∧ S p q ∧ q ≠ p := by
  constructor
  · rintro ⟨⟨r, hpr, hrq⟩, hne⟩
    by_cases hr : r = p
    · subst hr
      exact .inr ⟨hpr, hrq, hne⟩
    · exact .inl ⟨r, ⟨hpr, hr⟩, hrq⟩
  · rintro (⟨r, ⟨hpr, hr⟩, hrq⟩ | ⟨hpp, hpq, hne⟩)
    · refine ⟨⟨r, hpr, hrq⟩, ?_⟩
      intro hq
      subst hq
      exact hr (hR.antisymm hS hpr hrq)
    · exact ⟨⟨p, hpp, hpq⟩, hne⟩

/-! ## Rounds -/

theorem Forward.rounds (hR : Forward R) (n : Nat) : Forward (Rounds R n) := by
  induction n with
  | zero => exact forward_eq
  | succ n ih => exact hR.comp ih

theorem rounds_self (h : R p p) (n : Nat) : Rounds R n p p := by
  induction n with
  | zero => rfl
  | succ n ih => exact ⟨p, h, ih⟩

/-- Rounds that end where they began all stayed there. -/
theorem rounds_self_iff (hR : Forward R) : Rounds R n p p ↔ n = 0 ∨ R p p := by
  constructor
  · intro h
    cases n with
    | zero => exact .inl rfl
    | succ n => exact .inr ((hR.comp_self_iff (hR.rounds n)).mp h).1
  · intro h
    rcases h with rfl | h
    · rfl
    · exact rounds_self h n

/-- Rounds that take nothing may come before others. -/
theorem Rounds.add (hself : n ≠ 0 → R p p) (h : Rounds R m p q) : Rounds R (n + m) p q := by
  induction n with
  | zero => rwa [Nat.zero_add]
  | succ n ih =>
      have hp : R p p := hself (Nat.succ_ne_zero n)
      rw [Nat.succ_add]
      exact ⟨p, hp, ih fun _ => hp⟩

/-- Rounds that take something: those before the first that does, this one, and those after it. -/
theorem Rounds.exists_first (h : Rounds R n p q) (hne : q ≠ p) :
    ∃ k m r, n = k + (m + 1) ∧ (k ≠ 0 → R p p) ∧ (R p r ∧ r ≠ p) ∧ Rounds R m r q := by
  induction n with
  | zero => exact absurd h hne
  | succ n ih =>
      obtain ⟨r, hfirst, hmore⟩ := h
      by_cases hr : r = p
      · -- the first round takes nothing, so it is one more of those before
        subst hr
        obtain ⟨k, m, s, rfl, -, hrest⟩ := ih hmore
        exact ⟨k + 1, m, s, by omega, fun _ => hfirst, hrest⟩
      · exact ⟨0, n, r, by omega, fun h0 => absurd rfl h0, ⟨hfirst, hr⟩, hmore⟩

/-- Rounds over one character each are one way over all of them. -/
theorem rounds_char_iff {set : CharSet} :
    Rounds (char set).Matches n p q ↔
      ∃ cs, cs.length = n ∧ (∀ c ∈ cs, set.holds c.toNat = true) ∧ p.Over cs q := by
  induction n generalizing p with
  | zero =>
      constructor
      · intro h
        obtain rfl : q = p := h
        exact ⟨[], rfl, fun c hc => absurd hc List.not_mem_nil, .here q⟩
      · rintro ⟨cs, hlength, -, hover⟩
        obtain rfl := List.length_eq_zero_iff.mp hlength
        cases hover
        rfl
  | succ n ih =>
      constructor
      · rintro ⟨r, ⟨c, hc, hfirst⟩, hmore⟩
        obtain ⟨cs, rfl, hcs, hover⟩ := ih.mp hmore
        exact ⟨c :: cs, rfl, List.forall_mem_cons.mpr ⟨hc, hcs⟩, hfirst.trans hover⟩
      · rintro ⟨cs, hlength, hcs, hover⟩
        obtain ⟨c, cs, rfl⟩ := List.exists_cons_of_length_eq_add_one hlength
        rw [List.forall_mem_cons] at hcs
        obtain ⟨r, hfirst, hmore⟩ := Place.over_cons_iff.mp hover
        exact ⟨r, ⟨c, hcs.1, hfirst⟩, ih.mpr ⟨cs, Nat.succ.inj hlength, hcs.2, hmore⟩⟩

/-- A set that is repeated without a limit matches any characters of the set, if they are enough. -/
theorem matches_times_char_iff {set : CharSet} {least : Nat} :
    (times (char set) least none).Matches p q ↔
      ∃ cs, (least ≤ cs.length ∧ ∀ c ∈ cs, set.holds c.toNat = true) ∧ p.Over cs q := by
  constructor
  · rintro ⟨n, ⟨hleast, -⟩, hrounds⟩
    obtain ⟨cs, rfl, hcs, hover⟩ := rounds_char_iff.mp hrounds
    exact ⟨cs, ⟨hleast, hcs⟩, hover⟩
  · rintro ⟨cs, ⟨hleast, hcs⟩, hover⟩
    exact ⟨cs.length, ⟨hleast, by simp⟩, rounds_char_iff.mpr ⟨cs, rfl, hcs, hover⟩⟩

end

/-! ## Taking nothing -/

section

variable {es : List Expr} {p : Place}

/-- No expression matches backwards. -/
theorem forward_matches (e : Expr) : Forward e.Matches := by
  induction e with
  | empty => exact forward_eq
  | char set =>
      intro p q h
      obtain ⟨c, -, hover⟩ := h
      exact ⟨[c], hover⟩
  | look condition =>
      intro p q h
      exact forward_eq h.1
  | seq a b iha ihb => exact iha.comp ihb
  | alt a b iha ihb =>
      intro p q h
      rcases h with ha | hb
      · exact iha ha
      · exact ihb hb
  | times e least most ih =>
      intro p q h
      obtain ⟨n, -, hrounds⟩ := h
      exact ih.rounds n hrounds

theorem forward_matchesAll (es : List Expr) : Forward (MatchesAll es) := by
  induction es with
  | nil => exact forward_eq
  | cons e rest ih => exact (forward_matches e).comp ih

/-- An expression that need take nothing at a place is told by what stands around it. Of a
repetition this needs counts in the right order, since as many rounds over nothing must be allowed
as are asked for. -/
theorem matches_self_iff {e : Expr} (hw : e.WellFormed) :
    e.Matches p p ↔ e.nullable p.before p.after.head? = true := by
  induction e with
  | empty => simp [Matches, nullable]
  | char set =>
      -- a way over a character does not end where it began
      simp only [Matches, nullable, Bool.false_eq_true, iff_false]
      rintro ⟨c, -, hover⟩
      simpa using congrArg List.length hover.after_eq
  | look condition => simp [Matches, nullable]
  | seq a b iha ihb =>
      simp only [nullable, Bool.and_eq_true, ← iha hw.1, ← ihb hw.2]
      exact (forward_matches a).comp_self_iff (forward_matches b)
  | alt a b iha ihb => simp only [Matches, nullable, Bool.or_eq_true, ← iha hw.1, ← ihb hw.2]
  | times e least most ih =>
      simp only [Matches, nullable, Bool.or_eq_true, beq_iff_eq, ← ih hw.1,
        rounds_self_iff (forward_matches e)]
      constructor
      · rintro ⟨n, ⟨hleast, -⟩, rfl | h⟩
        · exact .inl (Nat.le_zero.mp hleast)
        · exact .inr h
      · -- as many rounds over nothing as are asked for, which the counts allow
        rintro (rfl | h)
        · exact ⟨0, ⟨Nat.le_refl 0, fun m _ => Nat.zero_le m⟩, .inl rfl⟩
        · exact ⟨least, ⟨Nat.le_refl least, hw.2⟩, .inr h⟩

theorem matchesAll_self_iff (hw : ∀ e ∈ es, e.WellFormed) :
    MatchesAll es p p ↔ finished p.before p.after.head? es = true := by
  induction es with
  | nil => simp [MatchesAll, finished]
  | cons e rest ih =>
      rw [List.forall_mem_cons] at hw
      rw [finished, List.all_cons, Bool.and_eq_true, ← matches_self_iff hw.1, ← finished, ← ih hw.2]
      exact (forward_matches e).comp_self_iff (forward_matchesAll rest)

end

end Expr

end SchemaGate
