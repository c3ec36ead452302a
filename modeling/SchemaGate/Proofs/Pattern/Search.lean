import SchemaGate.Proofs.Pattern.Matches

/-!
# What a search finds

A search goes over a text once and keeps what is left to match. It finds an expression exactly if
the expression matches what stands between two places of the text. This needs expressions whose
repetitions ask for no more rounds than they allow, since what is left of other repetitions is
counted down below nothing.

* `Expr.matches_times_ne_iff` and `Expr.exists_mem_advance_iff`: what is left of an expression
  behind a character is what the expression matches from there on, if it takes the character;
* `Expr.exists_completes_iff`: one character of the search;
* `Expr.search_iff`: the whole search, by induction over the text, and `Expr.matchesIn_iff`.
-/

namespace SchemaGate

namespace Expr

section

variable {e : Expr} {es rest : List Expr} {before : Option Char} {c : Char} {text : List Char}
  {least : Nat} {most : Option Nat} {p q : Place}

/-! ## Repetitions -/

theorem WellFormed.times_sub (hw : (times e least most).WellFormed) (n : Nat) :
    (times e (least - n) (most.map (· - n))).WellFormed := by
  refine ⟨hw.1, ?_⟩
  intro m hm
  obtain ⟨most, hmost, rfl⟩ := Option.map_eq_some_iff.mp hm
  exact Nat.sub_le_sub_right (hw.2 most hmost) n

/-- What is left of a repetition after a character: its expression took the character in some round,
and the rounds before that one took nothing. -/
theorem mem_advance_times_iff :
    es ∈ (times e least most).advance before c rest ↔
      most ≠ some 0 ∧ ∃ i, (i = 0 ∨ e.nullable before (some c) = true ∧ i < least) ∧
        es ∈ e.advance before c (times e (least - (i + 1)) (most.map (· - (i + 1))) :: rest) := by
  rw [advance]
  by_cases hmost : most = some 0
  · simp [hmost]
  · have hcount : ∀ i, i ∈ List.range (max (if e.nullable before (some c) then least else 1) 1) ↔
        i = 0 ∨ e.nullable before (some c) = true ∧ i < least := by
      intro i
      rw [List.mem_range]
      split <;> simp_all
      omega
    rw [if_neg hmost, List.mem_flatMap]
    simp only [hcount, hmost, ne_eq, not_false_eq_true, true_and]

/-- A repetition that takes something makes some rounds that take nothing, then one that does, and
what comes behind is a repetition again. Of the rounds that take nothing it is enough to look at
those that are asked for. -/
theorem matches_times_ne_iff (hw : (times e least most).WellFormed) :
    (times e least most).Matches p q ∧ q ≠ p ↔
      most ≠ some 0 ∧ ∃ i, (i = 0 ∨ e.Matches p p ∧ i < least) ∧
        ∃ r, (e.Matches p r ∧ r ≠ p) ∧
          (times e (least - (i + 1)) (most.map (· - (i + 1)))).Matches r q := by
  constructor
  · rintro ⟨⟨n, ⟨hleast, hmost⟩, hrounds⟩, hne⟩
    obtain ⟨k, m, r, rfl, hself, hfirst, hrest⟩ := hrounds.exists_first hne
    -- fewer rounds than `least` may be left out before the first that takes something
    refine ⟨?_, min k (least - 1), ?_, r, hfirst, m, ⟨by omega, ?_⟩, hrest⟩
    · intro hzero
      have := hmost 0 hzero
      omega
    · by_cases hk : k = 0
      · exact .inl (by omega)
      · by_cases hl : least = 0
        · exact .inl (by omega)
        · exact .inr ⟨hself hk, by omega⟩
    · intro m' hm'
      obtain ⟨most, hmost', rfl⟩ := Option.map_eq_some_iff.mp hm'
      have := hmost most hmost'
      omega
  · rintro ⟨hzero, i, hi, r, hfirst, m, ⟨hleast, hmost⟩, hrest⟩
    have hrounds : Rounds e.Matches (i + (m + 1)) p q :=
      Rounds.add (fun hpos => (hi.resolve_left hpos).1) ⟨r, hfirst.1, hrest⟩
    have hne : q ≠ p := by
      intro hq
      subst hq
      exact hfirst.2 ((forward_matches e).antisymm ((forward_matches e).rounds m) hfirst.1 hrest)
    refine ⟨⟨i + (m + 1), ⟨by omega, ?_⟩, hrounds⟩, hne⟩
    intro limit hlimit
    have hle := hw.2 limit hlimit
    have hpos : limit ≠ 0 := fun h0 => hzero (h0 ▸ hlimit)
    have hm := hmost (limit - (i + 1)) (Option.map_eq_some_iff.mpr ⟨limit, hlimit, rfl⟩)
    omega

/-! ## Taking a character -/

/-- What is left of well-formed expressions is well formed. -/
theorem wellFormed_of_mem_advance (hw : e.WellFormed) (hrest : ∀ x ∈ rest, x.WellFormed)
    (h : es ∈ e.advance before c rest) : ∀ x ∈ es, x.WellFormed := by
  induction e generalizing rest with
  | empty => exact absurd h List.not_mem_nil
  | look condition => exact absurd h List.not_mem_nil
  | char set =>
      rw [advance, List.mem_ite_nil_right, List.mem_singleton] at h
      rwa [h.2]
  | seq a b iha ihb =>
      rw [advance, List.mem_append, List.mem_ite_nil_right] at h
      rcases h with h | ⟨-, h⟩
      · exact iha hw.1 (List.forall_mem_cons.mpr ⟨hw.2, hrest⟩) h
      · exact ihb hw.2 hrest h
  | alt a b iha ihb =>
      rw [advance, List.mem_append] at h
      rcases h with h | h
      · exact iha hw.1 hrest h
      · exact ihb hw.2 hrest h
  | times e least most ih =>
      obtain ⟨-, i, -, hi⟩ := mem_advance_times_iff.mp h
      exact ih hw.1 (List.forall_mem_cons.mpr ⟨hw.times_sub (i + 1), hrest⟩) hi

theorem nullable_iff_matches (hw : e.WellFormed) (text : List Char) :
    e.nullable before (some c) = true ↔ e.Matches ⟨before, c :: text⟩ ⟨before, c :: text⟩ := by
  have hself : e.Matches ⟨before, c :: text⟩ ⟨before, c :: text⟩ ↔
      e.nullable before (some c) = true := matches_self_iff hw
  exact hself.symm

theorem exists_mem_append_ite {α : Type} {P : α → Prop} {b : Bool} {xs ys : List α} :
    (∃ x ∈ xs ++ (if b = true then ys else []), P x) ↔
      (∃ x ∈ xs, P x) ∨ b = true ∧ ∃ x ∈ ys, P x := by
  simp only [List.mem_append, List.mem_ite_nil_right, or_and_right, exists_or, and_assoc,
    exists_and_left]

/-- What is left of an expression after a character matches behind that character what the
expression, if it takes anything, matches from the place before it. -/
theorem exists_mem_advance_iff (hw : e.WellFormed) :
    (∃ es ∈ e.advance before c rest, MatchesAll es ⟨some c, text⟩ q) ↔
      ∃ r, (e.Matches ⟨before, c :: text⟩ r ∧ r ≠ ⟨before, c :: text⟩) ∧ MatchesAll rest r q := by
  induction e generalizing rest q with
  | empty => simp [advance, Matches]
  | look condition => simp [advance, Matches]
  | char set =>
      simp only [advance, List.mem_ite_nil_right, List.mem_singleton]
      constructor
      · rintro ⟨es, ⟨hset, rfl⟩, hall⟩
        exact ⟨⟨some c, text⟩, ⟨⟨c, hset, .next (.here _)⟩, by simp⟩, hall⟩
      · rintro ⟨r, ⟨⟨d, hset, hover⟩, -⟩, hall⟩
        -- the only character that can be taken is the next one
        cases hover with
        | next hhere =>
            cases hhere
            exact ⟨rest, ⟨hset, rfl⟩, hall⟩
  | seq a b iha ihb =>
      rw [advance, exists_mem_append_ite, iha hw.1, ihb hw.2, nullable_iff_matches hw.1 text]
      simp only [Matches, (forward_matches a).comp_ne_iff (forward_matches b)]
      constructor
      · rintro (⟨m, hm, r, hr, hall⟩ | ⟨hp, r, hr, hall⟩)
        · exact ⟨r, .inl ⟨m, hm, hr⟩, hall⟩
        · exact ⟨r, .inr ⟨hp, hr⟩, hall⟩
      · rintro ⟨r, ⟨m, hm, hr⟩ | ⟨hp, hr⟩, hall⟩
        · exact .inl ⟨m, hm, r, hr, hall⟩
        · exact .inr ⟨hp, r, hr, hall⟩
  | alt a b iha ihb =>
      simp only [advance, List.mem_append, or_and_right, exists_or, iha hw.1, ihb hw.2, Matches]
  | times e least most ih =>
      simp only [mem_advance_times_iff, matches_times_ne_iff hw, nullable_iff_matches hw.1 text]
      constructor
      · rintro ⟨es, ⟨hmost, i, hi, hes⟩, hall⟩
        obtain ⟨r, hr, s, hs, hrest⟩ := (ih hw.1).mp ⟨es, hes, hall⟩
        exact ⟨s, ⟨hmost, i, hi, r, hr, hs⟩, hrest⟩
      · rintro ⟨s, ⟨hmost, i, hi, r, hr, hs⟩, hrest⟩
        have hboth : MatchesAll (_ :: rest) r q := ⟨s, hs, hrest⟩
        obtain ⟨es, hes, hall⟩ := (ih hw.1).mpr ⟨r, hr, hboth⟩
        exact ⟨es, ⟨hmost, i, hi, hes⟩, hall⟩

theorem wellFormed_of_mem_advanceAll {xs : List Expr} (hw : ∀ x ∈ xs, x.WellFormed)
    (h : es ∈ advanceAll before c xs) : ∀ x ∈ es, x.WellFormed := by
  induction xs with
  | nil => exact absurd h List.not_mem_nil
  | cons e rest ih =>
      rw [List.forall_mem_cons] at hw
      rw [advanceAll, List.mem_append, List.mem_ite_nil_right] at h
      rcases h with h | ⟨-, h⟩
      · exact wellFormed_of_mem_advance hw.1 hw.2 h
      · exact ih hw.2 h

/-- What is left of expressions in a row matches behind a character what they match from before it
on, if they take anything. -/
theorem exists_mem_advanceAll_iff {xs : List Expr} (hw : ∀ x ∈ xs, x.WellFormed) :
    (∃ es ∈ advanceAll before c xs, MatchesAll es ⟨some c, text⟩ q) ↔
      MatchesAll xs ⟨before, c :: text⟩ q ∧ q ≠ ⟨before, c :: text⟩ := by
  induction xs with
  | nil => simp [advanceAll, MatchesAll]
  | cons e rest ih =>
      rw [List.forall_mem_cons] at hw
      rw [advanceAll, exists_mem_append_ite, exists_mem_advance_iff hw.1, ih hw.2,
        nullable_iff_matches hw.1 text]
      exact ((forward_matches e).comp_ne_iff (forward_matchesAll rest)).symm

end

/-! ## Searching -/

/-- Expressions that match from a place on, up to wherever. -/
def Completes (es : List Expr) (p : Place) : Prop := ∃ q, MatchesAll es p q

/-- A match that begins at a place or behind it. -/
def Occurs (e : Expr) (p : Place) : Prop := ∃ cs r, p.Over cs r ∧ Completes [e] r

section

variable {e : Expr} {es : List Expr} {before : Option Char} {c : Char} {text : List Char}

/-- At the end of a text there is nothing to take. -/
theorem completes_nil_iff (hw : ∀ x ∈ es, x.WellFormed) :
    Completes es ⟨before, []⟩ ↔ finished before none es = true := by
  have hself : MatchesAll es ⟨before, []⟩ ⟨before, []⟩ ↔ finished before none es = true :=
    matchesAll_self_iff hw
  rw [← hself]
  constructor
  · intro h
    obtain ⟨q, hq⟩ := h
    obtain ⟨cs, hcs⟩ := forward_matchesAll es hq
    cases hcs
    exact hq
  · intro h
    exact ⟨_, h⟩

/-- Expressions complete before a character if they are finished there, or if what is left of them
completes behind it. -/
theorem completes_cons_iff (hw : ∀ x ∈ es, x.WellFormed) :
    Completes es ⟨before, c :: text⟩ ↔ finished before (some c) es = true ∨
      ∃ left ∈ advanceAll before c es, Completes left ⟨some c, text⟩ := by
  have hself : MatchesAll es ⟨before, c :: text⟩ ⟨before, c :: text⟩ ↔
      finished before (some c) es = true := matchesAll_self_iff hw
  rw [← hself]
  constructor
  · intro h
    obtain ⟨q, hq⟩ := h
    by_cases hne : q = ⟨before, c :: text⟩
    · exact .inl (hne ▸ hq)
    · obtain ⟨left, hleft, hall⟩ := (exists_mem_advanceAll_iff hw).mpr ⟨hq, hne⟩
      exact .inr ⟨left, hleft, q, hall⟩
  · rintro (h | ⟨left, hleft, q, hall⟩)
    · exact ⟨_, h⟩
    · exact ⟨q, ((exists_mem_advanceAll_iff hw).mp ⟨left, hleft, hall⟩).1⟩

theorem occurs_nil_iff : e.Occurs ⟨before, []⟩ ↔ Completes [e] ⟨before, []⟩ := by
  constructor
  · intro h
    obtain ⟨cs, r, hover, h⟩ := h
    cases hover
    exact h
  · intro h
    exact ⟨[], _, .here _, h⟩

/-- A match begins here or behind the next character. -/
theorem occurs_cons_iff :
    e.Occurs ⟨before, c :: text⟩ ↔
      Completes [e] ⟨before, c :: text⟩ ∨ e.Occurs ⟨some c, text⟩ := by
  constructor
  · intro h
    obtain ⟨cs, r, hover, h⟩ := h
    cases hover with
    | here => exact .inl h
    | next hover => exact .inr ⟨_, r, hover, h⟩
  · rintro (h | ⟨cs, r, hover, h⟩)
    · exact ⟨[], _, .here _, h⟩
    · exact ⟨c :: cs, r, .next hover, h⟩

/-- One character of a search: what was left to match is finished here, or goes on behind the
character. -/
theorem exists_completes_iff {states : List (List Expr)}
    (hw : ∀ es ∈ states, ∀ x ∈ es, x.WellFormed) :
    (∃ es ∈ states, Completes es ⟨before, c :: text⟩) ↔
      states.any (finished before (some c)) = true ∨
        ∃ left ∈ (states.flatMap (advanceAll before c)).eraseDups,
          Completes left ⟨some c, text⟩ := by
  simp only [List.any_eq_true, List.mem_eraseDups, List.mem_flatMap]
  constructor
  · rintro ⟨es, hes, h⟩
    rcases (completes_cons_iff (hw es hes)).mp h with hfinished | ⟨left, hleft, hmore⟩
    · exact .inl ⟨es, hes, hfinished⟩
    · exact .inr ⟨left, ⟨es, hes, hleft⟩, hmore⟩
  · rintro (⟨es, hes, hfinished⟩ | ⟨left, ⟨es, hes, hleft⟩, hmore⟩)
    · exact ⟨es, hes, (completes_cons_iff (hw es hes)).mpr (.inl hfinished)⟩
    · exact ⟨es, hes, (completes_cons_iff (hw es hes)).mpr (.inr ⟨left, hleft, hmore⟩)⟩

/-- A search tells whether the expression matches from here on, or something that was left to match
completes. -/
theorem search_iff (hw : e.WellFormed) {open_ : List (List Expr)}
    (hopen : ∀ es ∈ open_, ∀ x ∈ es, x.WellFormed) :
    search e open_ before text = true ↔
      e.Occurs ⟨before, text⟩ ∨ ∃ es ∈ open_, Completes es ⟨before, text⟩ := by
  have hstart : ∀ x ∈ [e], x.WellFormed := List.forall_mem_singleton.mpr hw
  induction text generalizing open_ before with
  | nil =>
      rw [search, List.any_cons, Bool.or_eq_true, List.any_eq_true, occurs_nil_iff,
        completes_nil_iff hstart]
      exact or_congr_right (exists_congr fun es => and_congr_right fun hes =>
        (completes_nil_iff (hopen es hes)).symm)
  | cons c text ih =>
      have hstates := List.forall_mem_cons.mpr ⟨hstart, hopen⟩
      have hleft : ∀ es ∈ (([e] :: open_).flatMap (advanceAll before c)).eraseDups,
          ∀ x ∈ es, x.WellFormed := by
        intro es hes
        obtain ⟨state, hstate, hes⟩ := List.mem_flatMap.mp (List.mem_eraseDups.mp hes)
        exact wellFormed_of_mem_advanceAll (hstates state hstate) hes
      -- the match that begins here is one more of those under way
      have hhere : (∃ es ∈ [e] :: open_, Completes es ⟨before, c :: text⟩) ↔ _ :=
        exists_completes_iff hstates
      have hbehind : search e _ (some c) text = true ↔ _ := ih hleft
      rw [List.exists_mem_cons_iff] at hhere
      rw [search, Bool.or_eq_true, hbehind, occurs_cons_iff, or_left_comm, ← hhere, or_left_comm,
        or_assoc]

/-- An expression is found in a text if it matches what stands between two places of the text. -/
theorem matchesIn_iff (hw : e.WellFormed) {text : String} :
    e.matchesIn text = true ↔
      ∃ front p q, Place.Over ⟨none, text.toList⟩ front p ∧ e.Matches p q := by
  rw [matchesIn, search_iff hw fun es hes => absurd hes List.not_mem_nil]
  simp [Occurs, Completes, MatchesAll]

end

end Expr

end SchemaGate
