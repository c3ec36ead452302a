import Mathlib.Data.List.Basic
import SchemaGate.Pattern.Parser
import SchemaGate.Proofs.Pattern.Search

/-!
# Patterns that are read

Every repetition of a pattern that is read asks for no more rounds than it allows, since the reader
refuses counts in the wrong order. So the search tells of each of these patterns where it occurs.

* `Pattern.State.WellFormed`: what is kept while reading, and `Pattern.State.WellFormed.step`: one
  item keeps it;
* `Pattern.wellFormed_of_parse?`: a whole pattern, by induction on what is left to read;
* `Pattern.occursIn_iff`: a pattern occurs in a text if it matches between two places of it.
-/

namespace SchemaGate

namespace Expr

theorem wellFormed_seqAll {es : List Expr} (h : ∀ e ∈ es, e.WellFormed) :
    (seqAll es).WellFormed := by
  induction es with
  | nil => trivial
  | cons e rest ih =>
      rw [List.forall_mem_cons] at h
      cases rest with
      | nil => exact h.1
      | cons e' rest => exact ⟨h.1, ih h.2⟩

theorem wellFormed_foldl_alt {es : List (Pattern.Nested Expr)} {last : Expr}
    (h : ∀ e ∈ es, e.value.WellFormed) (hlast : last.WellFormed) :
    (es.foldl (fun e a => .alt a.value e) last).WellFormed := by
  induction es generalizing last with
  | nil => exact hlast
  | cons e rest ih =>
      rw [List.forall_mem_cons] at h
      exact ih h.2 ⟨h.1, hlast⟩

end Expr

namespace Pattern

/-! ## Groups -/

/-- What a group under way holds is well formed. -/
structure Level.WellFormed (l : Level) : Prop where
  alternatives : ∀ e ∈ l.alternatives, e.value.WellFormed
  items : ∀ i ∈ l.items, i.part.value.WellFormed

namespace Level.WellFormed

variable {l : Level}

theorem start (outside : Flags) : (Level.start outside).WellFormed :=
  ⟨fun _ h => absurd h List.not_mem_nil, fun _ h => absurd h List.not_mem_nil⟩

theorem put (h : l.WellFormed) {i : Item} (hi : i.part.value.WellFormed) :
    Level.WellFormed { l with items := i :: l.items } :=
  ⟨h.alternatives, List.forall_mem_cons.mpr ⟨hi, h.items⟩⟩

theorem current (h : l.WellFormed) : l.current.value.WellFormed := by
  refine Expr.wellFormed_seqAll fun e he => ?_
  obtain ⟨part, hpart, rfl⟩ := List.mem_map.mp he
  obtain ⟨i, hi, rfl⟩ := List.mem_map.mp hpart
  exact h.items i (List.mem_reverse.mp hi)

theorem next (h : l.WellFormed) : l.next.WellFormed :=
  ⟨List.forall_mem_cons.mpr ⟨h.current, h.alternatives⟩, fun _ hi => absurd hi List.not_mem_nil⟩

theorem content (h : l.WellFormed) : l.content.value.WellFormed :=
  Expr.wellFormed_foldl_alt h.alternatives h.current

/-- A repetition with counts in the right order may be put around the last item. -/
theorem repeatLast? (h : l.WellFormed) {least : Nat} {most : Option Nat}
    (hcounts : ∀ m ∈ most, least ≤ m) {l' : Level} (hl' : l.repeatLast? least most = some l') :
    l'.WellFormed := by
  rw [Level.repeatLast?] at hl'
  split at hl'
  · rename_i e before hitems
    cases hl'
    have hall := h.items
    rw [hitems, List.forall_mem_cons] at hall
    exact ⟨h.alternatives, List.forall_mem_cons.mpr ⟨⟨hall.1, hcounts⟩, hall.2⟩⟩
  · cases hl'

end Level.WellFormed

/-! ## Items -/

theorem wellFormed_literal {flags : Flags} {c : Char} {e : Expr} (h : literal flags c = some e) :
    e.WellFormed := by
  obtain ⟨-, he⟩ := Option.ite_none_left_eq_some.mp h
  cases he
  trivial

theorem Escape.wellFormed_expr? {flags : Flags} {escape : Escape} {e : Expr}
    (h : escape.expr? flags = some e) : e.WellFormed := by
  cases escape with
  | char c octet =>
      obtain ⟨-, hliteral⟩ := Option.ite_none_left_eq_some.mp h
      exact wellFormed_literal hliteral
  | set s =>
      cases h
      trivial
  | look condition =>
      cases h
      trivial

/-- What has been read so far is well formed. -/
structure State.WellFormed (s : State) : Prop where
  level : s.level.WellFormed
  outer : ∀ l ∈ s.outer, l.WellFormed

namespace State.WellFormed

variable {s s' : State} {cs rest : List Char}

theorem add (h : s.WellFormed) {e : Expr} (he : e.WellFormed) : (s.add e).WellFormed :=
  ⟨h.level.put he, h.outer⟩

theorem open_ (h : s.WellFormed) (flags : Flags) : (s.open_ flags).WellFormed :=
  ⟨.start s.flags, List.forall_mem_cons.mpr ⟨h.level, h.outer⟩⟩

theorem openNamed (h : s.WellFormed) (hs' : openNamed s cs = some (s', rest)) : s'.WellFormed := by
  simp only [Pattern.openNamed] at hs'
  split at hs'
  · obtain ⟨-, hread⟩ := Option.ite_none_right_eq_some.mp hs'
    cases hread
    exact ⟨(h.open_ s.flags).level, (h.open_ s.flags).outer⟩
  · cases hs'

/-- To open a group, or to set flags, keeps what has been read. -/
theorem openGroup (h : s.WellFormed) (hs' : openGroup s cs = some (s', rest)) : s'.WellFormed := by
  unfold Pattern.openGroup at hs'
  split at hs'
  · cases hs'
  · cases hs'
  · cases hs'
  · cases hs'
  · exact h.openNamed hs'
  · exact h.openNamed hs'
  · obtain ⟨⟨list, after⟩, -, hread⟩ := Option.bind_eq_some_iff.mp hs'
    dsimp only at hread
    split at hread
    · obtain ⟨-, hread⟩ := Option.ite_none_right_eq_some.mp hread
      cases hread
      exact ⟨h.level.put trivial, h.outer⟩
    · cases hread
      exact h.open_ list.flags
  · cases hs'
    exact h.open_ s.flags

theorem repeated (h : s.WellFormed) {least : Nat} {most : Option Nat}
    (hcounts : ∀ m ∈ most, least ≤ m) (hs' : repeated s least most cs = some (s', rest)) :
    s'.WellFormed := by
  obtain ⟨l, hl, hread⟩ := Option.map_eq_some_iff.mp hs'
  cases hread
  exact ⟨h.level.repeatLast? hcounts hl, h.outer⟩

/-- Counts in braces are compared before they are used. -/
theorem readRepeat (h : s.WellFormed) (hs' : readRepeat s cs = some (s', rest)) :
    s'.WellFormed := by
  obtain ⟨⟨least, after⟩, -, hread⟩ := Option.bind_eq_some_iff.mp hs'
  dsimp only at hread
  split at hread
  · exact h.repeated (by simp) hread
  · split at hread
    · exact h.repeated (by simp) hread
    · obtain ⟨⟨most, after⟩, -, hread⟩ := Option.bind_eq_some_iff.mp hread
      dsimp only at hread
      split at hread
      · obtain ⟨hle, hread⟩ := Option.ite_none_right_eq_some.mp hread
        exact h.repeated (by simpa using hle) hread
      · cases hread
  · cases hread

/-- Reading one item keeps what has been read well formed. -/
theorem step (h : s.WellFormed) (hs' : step s cs = some (s', rest)) : s'.WellFormed := by
  unfold Pattern.step at hs'
  -- one case for each special character, in the order of the reader
  split at hs'
  · cases hs'
  · exact h.openGroup hs'
  · -- a group is closed and becomes an item of the group around it
    split at hs'
    · cases hs'
    · rename_i l outer houter
      cases hs'
      have hall := h.outer
      rw [houter, List.forall_mem_cons] at hall
      exact ⟨hall.1.put h.level.content, hall.2⟩
  · cases hs'
    exact ⟨h.level.next, h.outer⟩
  · obtain ⟨⟨set, after⟩, -, hread⟩ := Option.map_eq_some_iff.mp hs'
    cases hread
    exact ⟨h.level.put trivial, h.outer⟩
  · -- the three marks of repetition
    exact h.repeated (by simp) hs'
  · exact h.repeated (by simp) hs'
  · exact h.repeated (by simp) hs'
  · exact h.readRepeat hs'
  · obtain ⟨⟨escape, after⟩, -, hread⟩ := Option.bind_eq_some_iff.mp hs'
    obtain ⟨e, he, hread⟩ := Option.map_eq_some_iff.mp hread
    cases hread
    exact h.add (Escape.wellFormed_expr? he)
  · -- the dot and both marks of places
    obtain ⟨-, hread⟩ := Option.ite_none_right_eq_some.mp hs'
    cases hread
    exact h.add trivial
  · cases hs'
    exact h.add trivial
  · cases hs'
    exact h.add trivial
  · obtain ⟨e, he, hread⟩ := Option.map_eq_some_iff.mp hs'
    cases hread
    exact h.add (wellFormed_literal he)

end State.WellFormed

/-! ## Patterns -/

/-- Reading item by item keeps everything well formed, up to the whole pattern. -/
theorem wellFormed_of_parseFrom {s : State} {cs : List Char} {e : Nested Expr} (h : s.WellFormed)
    (he : parseFrom s cs = some e) : e.value.WellFormed := by
  fun_induction parseFrom s cs with
  | case1 =>
      cases he
      exact h.level.content
  | case2 => cases he
  | case3 => cases he
  | case4 s cs c more hskip s' rest hread hshorter ih => exact ih (h.step hread) he
  | case5 => cases he

/-- Every pattern that is read is well formed. -/
theorem wellFormed_of_parse? {source : String} {e : Expr} (h : parse? source = some e) :
    e.WellFormed := by
  obtain ⟨e', he', hlimits⟩ := Option.bind_eq_some_iff.mp h
  obtain ⟨-, hvalue⟩ := Option.ite_none_right_eq_some.mp hlimits
  cases hvalue
  have hstart : State.WellFormed ⟨.start {}, [], {}, []⟩ :=
    ⟨.start {}, fun _ hl => absurd hl List.not_mem_nil⟩
  exact wellFormed_of_parseFrom hstart he'

/-- A pattern occurs in a text if its expression matches what stands between two places of it. -/
theorem occursIn_iff {source text : String} {p : Pattern} (h : ofText? source = some p) :
    p.occursIn text = true ↔ ∃ front start stop,
      Place.Over ⟨none, text.toList⟩ front start ∧ p.expr.Matches start stop := by
  obtain ⟨e, he, rfl⟩ := Option.map_eq_some_iff.mp h
  exact Expr.matchesIn_iff (wellFormed_of_parse? he)

/-- A pattern that is tied to the start of a text is looked for there and nowhere else. -/
theorem occursIn_iff_of_textStart {source : String} {p : Pattern} {e : Expr} (text : String)
    (h : ofText? source = some p) (he : p.expr = .seq (.look .textStart) e) :
    p.occursIn text = true ↔ ∃ stop, e.Matches ⟨none, text.toList⟩ stop := by
  rw [occursIn_iff h, he]
  constructor
  · rintro ⟨front, start, stop, hover, middle, ⟨rfl, hstart⟩, hmatch⟩
    obtain ⟨-, rfl⟩ := hover.eq_nil (Option.isNone_iff_eq_none.mp hstart)
    exact ⟨stop, hmatch⟩
  · rintro ⟨stop, hmatch⟩
    exact ⟨[], _, stop, .here _, _, ⟨rfl, rfl⟩, hmatch⟩

end Pattern

end SchemaGate
