import Mathlib
import SchemaGate.Components
import SchemaGate.Proofs.Lists

/-!
# The last two segments of a reference

A reference is read from its end: the name behind the last slash, the section between the last two
slashes, and anything at all before that. `Reference.Parts` says so of the text, and
`Components.resolve_reads_lastSegments` says that references are split and resolved by it.

* `Reference.splitLast_append` and `Reference.splitLast_of_not_mem`: one segment from the end;
* `Reference.split?_eq_some_iff`: the two of them, and `Reference.Parts.unique`: there are no others;
* `Reference.split?_congr`: references with the same last two segments are split alike.
-/

namespace SchemaGate

namespace Reference

/-! ## One segment -/

variable {cs front last : List Char}

theorem splitLast_append (front : List Char) (h : '/' ∉ last) :
    splitLast (front ++ '/' :: last) = (last, some front) := by
  have hlast : '/' ∉ last.reverse := by simpa using h
  have hreverse : (front ++ '/' :: last).reverse = last.reverse ++ '/' :: front.reverse := by
    simp
  simp [splitLast, hreverse, takeWhile_bne_eq hlast, dropWhile_bne_eq hlast]

theorem splitLast_of_not_mem (h : '/' ∉ cs) : splitLast cs = (cs, none) := by
  have hcs : '/' ∉ cs.reverse := by simpa using h
  have htake : cs.reverse.takeWhile (· != '/') = cs.reverse :=
    List.takeWhile_eq_self_iff.mpr (bne_of_not_mem hcs)
  have hdrop : cs.reverse.dropWhile (· != '/') = [] :=
    List.dropWhile_eq_nil_iff.mpr (bne_of_not_mem hcs)
  simp [splitLast, htake, hdrop]

theorem exists_last_slash (h : '/' ∈ cs) :
    ∃ front last, cs = front ++ '/' :: last ∧ '/' ∉ last := by
  obtain ⟨last, front, hsplit, hlast⟩ := List.eq_append_cons_of_mem (List.mem_reverse.mpr h)
  have hcs := congrArg List.reverse hsplit
  exact ⟨front.reverse, last.reverse, by simpa using hcs, by simpa using hlast⟩

/-- A text is its last segment, or there is a front before that. -/
theorem splitLast_cases (cs : List Char) :
    ('/' ∉ cs ∧ splitLast cs = (cs, none)) ∨
      ∃ front last, front ++ '/' :: last = cs ∧ '/' ∉ last ∧ splitLast cs = (last, some front) := by
  by_cases h : '/' ∈ cs
  · obtain ⟨front, last, rfl, hlast⟩ := exists_last_slash h
    exact .inr ⟨front, last, rfl, hlast, splitLast_append front hlast⟩
  · exact .inl ⟨h, splitLast_of_not_mem h⟩

/-! ## Two segments -/

/-- Something that stands between slashes. -/
structure IsSegment (s : String) : Prop where
  nonempty : s ≠ ""
  noSlash : '/' ∉ s.toList

/-- The reference ends in a section and a name. What stands before them is nothing, or ends in a
slash itself. -/
structure Parts (reference front part name : String) : Prop where
  text : front ++ part ++ "/" ++ name = reference
  front : front = "" ∨ ∃ path, front = path ++ "/"
  part : IsSegment part
  name : IsSegment name

variable {reference other part name : String}

theorem isSegment_ofList_iff : IsSegment (String.ofList cs) ↔ cs ≠ [] ∧ '/' ∉ cs := by
  constructor
  · rintro ⟨hne, hslash⟩
    exact ⟨by simpa using hne, by simpa using hslash⟩
  · rintro ⟨hne, hslash⟩
    exact ⟨by simpa using hne, by simpa using hslash⟩

/-- A reference is taken apart exactly if it has a section and a name, and into these. -/
theorem split?_eq_some_iff :
    split? reference = some (part, name) ↔ ∃ front, Parts reference front part name := by
  constructor
  · intro h
    rw [split?] at h
    rcases splitLast_cases reference.toList with ⟨-, hsplit⟩ | ⟨before, last, htext, hlast, hsplit⟩
    · rw [hsplit] at h
      cases h
    · rw [hsplit] at h
      obtain ⟨⟨hname, hpart⟩, hsome⟩ := Option.ite_none_right_eq_some.mp h
      cases hsome
      rcases splitLast_cases before with ⟨hbefore, hsplit'⟩ | ⟨path, middle, rfl, hmiddle, hsplit'⟩
      · -- the section is what the text starts with
        rw [hsplit'] at hpart ⊢
        refine ⟨"", ?_, .inl rfl, isSegment_ofList_iff.mpr ⟨hpart, hbefore⟩,
          isSegment_ofList_iff.mpr ⟨hname, hlast⟩⟩
        apply String.toList_injective
        simpa using htext
      · -- there is a path before it, with a slash between
        rw [hsplit'] at hpart ⊢
        refine ⟨String.ofList path ++ "/", ?_, .inr ⟨_, rfl⟩,
          isSegment_ofList_iff.mpr ⟨hpart, hmiddle⟩, isSegment_ofList_iff.mpr ⟨hname, hlast⟩⟩
        apply String.toList_injective
        simpa using htext
  · rintro ⟨front, rfl, hfront, hpart, hname⟩
    have hlast : splitLast (front ++ part ++ "/" ++ name).toList =
        (name.toList, some (front ++ part).toList) := by
      rw [← splitLast_append _ hname.noSlash]
      simp
    have hmiddle : (splitLast (front ++ part).toList).1 = part.toList := by
      rcases hfront with rfl | ⟨path, rfl⟩
      · simp [splitLast_of_not_mem hpart.noSlash]
      · have hsplit := splitLast_append path.toList hpart.noSlash
        simp [hsplit]
    have hne : name.toList ≠ [] ∧ part.toList ≠ [] :=
      ⟨by simpa using hname.nonempty, by simpa using hpart.nonempty⟩
    rw [split?, hlast]
    simp only [hmiddle, ne_eq, hne, not_false_eq_true, and_self, if_true, String.ofList_toList]

/-- A reference has parts in one way only. -/
theorem Parts.unique {front front' part' name' : String} (h : Parts reference front part name)
    (h' : Parts reference front' part' name') : front = front' ∧ part = part' ∧ name = name' := by
  have hsplit : some (part, name) = some (part', name') :=
    (split?_eq_some_iff.mpr ⟨front, h⟩).symm.trans (split?_eq_some_iff.mpr ⟨front', h'⟩)
  cases hsplit
  have htext := congrArg String.toList (h.text.trans h'.text.symm)
  refine ⟨String.toList_injective ?_, rfl, rfl⟩
  simpa using htext

/-- The last two segments, the last one first. There may be only one. -/
def lastSegments (reference : String) : List (List Char) :=
  (reference.toList.splitOn '/').reverse.take 2

theorem reverse_splitOn_of_not_mem (h : '/' ∉ cs) : (cs.splitOn '/').reverse = [cs] := by
  have hcs : ∀ c ∈ cs, (c == '/') = false := by
    intro c hc
    exact beq_eq_false_iff_ne.mpr (ne_of_mem_of_not_mem hc h)
  rw [List.splitOn_eq_splitOnP, List.splitOnP_eq_singleton hcs, List.reverse_singleton]

theorem reverse_splitOn_append (front : List Char) (h : '/' ∉ last) :
    ((front ++ '/' :: last).splitOn '/').reverse = last :: (front.splitOn '/').reverse := by
  have hlast := reverse_splitOn_of_not_mem h
  rw [List.splitOn_eq_splitOnP] at hlast
  rw [List.splitOn_eq_splitOnP, List.splitOnP_append_cons _ _ (by decide), List.reverse_append,
    hlast, List.splitOn_eq_splitOnP, List.singleton_append]

/-- Splitting at every slash comes to the same last segment. -/
theorem take_one_reverse_splitOn (cs : List Char) :
    (cs.splitOn '/').reverse.take 1 = [(splitLast cs).1] := by
  rcases splitLast_cases cs with ⟨hcs, hsplit⟩ | ⟨front, last, rfl, hlast, hsplit⟩
  · rw [reverse_splitOn_of_not_mem hcs, hsplit]
    rfl
  · rw [reverse_splitOn_append front hlast, hsplit]
    rfl

theorem lastSegments_eq (reference : String) :
    lastSegments reference = (splitLast reference.toList).1 ::
      ((splitLast reference.toList).2.map fun front => (splitLast front).1).toList := by
  rw [lastSegments]
  rcases splitLast_cases reference.toList with ⟨hcs, hsplit⟩ | ⟨front, last, htext, hlast, hsplit⟩
  · rw [reverse_splitOn_of_not_mem hcs, hsplit]
    rfl
  · rw [hsplit, ← htext, reverse_splitOn_append front hlast, List.take_succ_cons,
      take_one_reverse_splitOn]
    rfl

/-- Only the last two segments count. -/
theorem split?_congr (h : lastSegments reference = lastSegments other) :
    split? reference = split? other := by
  rw [lastSegments_eq, lastSegments_eq] at h
  rw [split?, split?]
  generalize splitLast reference.toList = parts at h ⊢
  generalize splitLast other.toList = parts' at h ⊢
  obtain ⟨name, front⟩ := parts
  obtain ⟨name', front'⟩ := parts'
  obtain ⟨rfl, hfront⟩ := List.cons.inj h
  cases front with
  | none =>
      cases front' with
      | none => rfl
      | some before' => cases hfront
  | some before =>
      cases front' with
      | none => cases hfront
      | some before' =>
          have hpart : (splitLast before).1 = (splitLast before').1 := by simpa using hfront
          simp only [hpart]

theorem split_eq_ok_iff :
    split reference = .ok (part, name) ↔ split? reference = some (part, name) := by
  rw [split]
  cases split? reference <;> simp

theorem split_eq_error_iff {e : CompileError} :
    split reference = .error e ↔ .malformedRef reference = e ∧ split? reference = none := by
  rw [split]
  cases split? reference <;> simp

end Reference

/-! ## Resolving -/

namespace Components

open Reference (Parts IsSegment lastSegments)

variable {c : Components} {reference other part name : String}

/-- The section is an object that has the definition under the name. -/
def Holds (c : Components) (part name : String) (v : Json) : Prop :=
  ∃ members, Entries.get? part c.sections = some (.object members) ∧
    Entries.get? name members = some v

theorem get?_eq_some_iff {v : Json} : c.get? part name = some v ↔ c.Holds part name v := by
  rw [get?, Option.bind_eq_some_iff]
  simp only [section?, Json.bind_object?_eq_some_iff, Holds]

/-- A reference that has parts resolves to what stands there, and to nothing else. -/
theorem resolve_of_parts {front : String} (h : Parts reference front part name) :
    (∀ v, c.resolve reference = .ok v ↔ c.Holds part name v) ∧
      ∀ e, c.resolve reference = .error e ↔
        .unresolvedRef reference = e ∧ ∀ v, ¬ c.Holds part name v := by
  have hsplit : Reference.split reference = .ok (part, name) :=
    Reference.split_eq_ok_iff.mpr (Reference.split?_eq_some_iff.mpr ⟨front, h⟩)
  simp only [resolve, hsplit, ← get?_eq_some_iff]
  cases c.get? part name <;> simp

theorem resolve_eq_ok_iff {v : Json} :
    c.resolve reference = .ok v ↔
      ∃ parts, Reference.split? reference = some parts ∧ c.get? parts.1 parts.2 = some v := by
  rw [resolve, Reference.split]
  cases Reference.split? reference with
  | none => simp
  | some parts =>
      simp only [Option.some.injEq, exists_eq_left']
      cases c.get? parts.1 parts.2 <;> simp

/-- A reference is split before its last two segments, if it has them and neither is empty, in one
way only, and is malformed otherwise. So references with the same last two segments lead to the same
definition, and a reference to the shared definitions leads to what the section holds under the name,
or else is unresolved. -/
theorem resolve_reads_lastSegments :
    (∀ r part name, Reference.split r = .ok (part, name) ↔ ∃ front, Parts r front part name) ∧
    (∀ r front part name front' part' name', Parts r front part name →
      Parts r front' part' name' → front = front' ∧ part = part' ∧ name = name') ∧
    (∀ r e, Reference.split r = .error e ↔
      .malformedRef r = e ∧ ∀ front part name, ¬ Parts r front part name) ∧
    (∀ r other, lastSegments r = lastSegments other → ∀ (c : Components) v,
      c.resolve r = .ok v ↔ c.resolve other = .ok v) ∧
    ∀ (c : Components) part name, IsSegment part → IsSegment name →
      (∀ v, c.resolve ("#/components/" ++ part ++ "/" ++ name) = .ok v ↔ c.Holds part name v) ∧
      ∀ e, c.resolve ("#/components/" ++ part ++ "/" ++ name) = .error e ↔
        .unresolvedRef ("#/components/" ++ part ++ "/" ++ name) = e ∧
          ∀ v, ¬ c.Holds part name v := by
  refine ⟨?_, fun _ _ _ _ _ _ _ h h' => h.unique h', ?_, ?_, ?_⟩
  · intro r part name
    rw [Reference.split_eq_ok_iff, Reference.split?_eq_some_iff]
  · intro r e
    rw [Reference.split_eq_error_iff, Option.eq_none_iff_forall_ne_some]
    refine and_congr_right fun _ => ⟨?_, ?_⟩
    · intro h front part name hparts
      exact h (part, name) (Reference.split?_eq_some_iff.mpr ⟨front, hparts⟩)
    · rintro h ⟨part, name⟩ hsplit
      obtain ⟨front, hparts⟩ := Reference.split?_eq_some_iff.mp hsplit
      exact h front part name hparts
  · intro r other h c v
    rw [resolve_eq_ok_iff, resolve_eq_ok_iff, Reference.split?_congr h]
  · intro c part name hpart hname
    exact resolve_of_parts ⟨rfl, .inr ⟨"#/components", rfl⟩, hpart, hname⟩

/-! ## A pet -/

/-- Definitions of a pet. -/
def petComponents : Components := ⟨[("schemas", .object [("Pet", .object [])])]⟩

/-- The pet is found wherever its definition is said to be, and a dog is not. -/
theorem pet_resolves :
    Parts "other.yaml#/shared/schemas/Pet" "other.yaml#/shared/" "schemas" "Pet" ∧
      petComponents.resolve "other.yaml#/shared/schemas/Pet" = .ok (.object []) ∧
      petComponents.resolve "#/components/schemas/Dog" =
        .error (.unresolvedRef "#/components/schemas/Dog") := by
  obtain ⟨-, -, -, hsame, hshared⟩ := resolve_reads_lastSegments
  have hschemas : IsSegment "schemas" := ⟨by decide, by decide⟩
  have hpet : petComponents.resolve "#/components/schemas/Pet" = .ok (.object []) :=
    ((hshared petComponents "schemas" "Pet" hschemas ⟨by decide, by decide⟩).1 _).mpr
      ⟨_, rfl, rfl⟩
  have hsegments : lastSegments "other.yaml#/shared/schemas/Pet" =
      lastSegments "#/components/schemas/Pet" := by
    decide +kernel
  refine ⟨⟨rfl, .inr ⟨"other.yaml#/shared", rfl⟩, hschemas, by decide, by decide⟩,
    (hsame _ _ hsegments _ _).mpr hpet, ?_⟩
  refine ((hshared petComponents "schemas" "Dog" hschemas ⟨by decide, by decide⟩).2 _).mpr
    ⟨rfl, ?_⟩
  rintro v ⟨members, hmembers, hdog⟩
  cases hmembers
  cases hdog

end Components

end SchemaGate
