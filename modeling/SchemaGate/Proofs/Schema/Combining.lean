import Mathlib
import SchemaGate.Proofs.Schema.Merging
import SchemaGate.Proofs.Schema.Rejected
import SchemaGate.Proofs.Schema.Relaxation

/-!
# What combinators mean

A combinator asks all its branches about the same input and puts their outputs together. Here this
is said without the order in which it is done (`Validator.CombinesBranches`): `oneOf` answers with
the only output there is, `anyOf` with the first, and `allOf` with all of them merged
(`Combinator.Merges`).

From this it follows that combinators compose (`Validator.ComposesBranches`): a branch on its own
is as good as a combinator of it, and a combinator among the branches of one of its kind may be
replaced by its branches. For `allOf` this needs that the outputs for an input that is there are
all objects or none of them is (`Combinator.merge_append_merge`), since otherwise merging some of
them first would make a difference.
-/

namespace SchemaGate

namespace Combinator

/-! ## Choosing among outputs -/

section

variable {α : Type} {run : α → Outcome} {xs : List α} {f : Field}

theorem accepted_append (os ps : List Outcome) : accepted (os ++ ps) = accepted os ++ accepted ps :=
  List.filterMap_append

theorem accepted_eq_nil_iff : accepted (xs.map run) = [] ↔ ∀ x ∈ xs, ¬ ∃ f, run x = .ok f := by
  rw [List.eq_nil_iff_forall_not_mem]
  simp only [mem_accepted, List.mem_map, not_exists, not_and]
  exact ⟨fun h x hx f => h f x hx, fun h f x hx => h x hx f⟩

/-- A single output is found exactly where one element has one and no other has. -/
theorem exactlyOne_eq_ok_iff :
    exactlyOne (xs.map run) = .ok f ↔
      ∃ x, OnlyWhere (fun x => ∃ f, run x = .ok f) xs x ∧ run x = .ok f := by
  induction xs with
  | nil =>
      constructor
      · rintro ⟨⟩
      · rintro ⟨x, ⟨⟩, -⟩
  | cons x rest ih =>
      cases hx : run x with
      | error e =>
          have hno : ¬ ∃ f, run x = .ok f := by simp [hx]
          simp only [OnlyWhere.cons_of_neg (P := fun x => ∃ f, run x = .ok f) hno, ← ih]
          rw [List.map_cons, hx]
          exact Iff.rfl
      | ok g =>
          have hyes : ∃ f, run x = .ok f := ⟨g, hx⟩
          simp only [OnlyWhere.cons_of_pos (P := fun x => ∃ f, run x = .ok f) hyes,
            ← accepted_eq_nil_iff, and_assoc, exists_eq_left, hx]
          have haccepted : accepted ((x :: rest).map run) = g :: accepted (rest.map run) := by
            rw [List.map_cons, hx]
            rfl
          rw [exactlyOne, haccepted]
          cases accepted (rest.map run) <;> simp

/-- The output that is found is that of the first element that has one. -/
theorem firstOf_eq_ok_iff :
    firstOf (xs.map run) = .ok f ↔
      ∃ x, FirstWhere (fun x => ∃ f, run x = .ok f) xs x ∧ run x = .ok f := by
  induction xs with
  | nil =>
      constructor
      · rintro ⟨⟩
      · rintro ⟨x, ⟨⟩, -⟩
  | cons x rest ih =>
      cases hx : run x with
      | error e =>
          have hno : ¬ ∃ f, run x = .ok f := by simp [hx]
          simp only [FirstWhere.cons_of_neg (P := fun x => ∃ f, run x = .ok f) hno, ← ih]
          rw [List.map_cons, hx]
          exact Iff.rfl
      | ok g =>
          have hyes : ∃ f, run x = .ok f := ⟨g, hx⟩
          simp only [FirstWhere.cons_of_pos (P := fun x => ∃ f, run x = .ok f) hyes,
            exists_eq_left, hx]
          rw [List.map_cons, hx]
          exact Iff.rfl

/-- Only the first output counts. -/
theorem firstOf_eq_of_head? {os ps : List Outcome}
    (h : (accepted os).head? = (accepted ps).head?) : firstOf os = firstOf ps := by
  rw [firstOf, firstOf]
  generalize accepted os = fs at h ⊢
  generalize accepted ps = gs at h ⊢
  cases fs <;> cases gs <;> cases h <;> rfl

theorem exactlyOne_singleton {r : Outcome} : exactlyOne [r] = .ok f ↔ r = .ok f := by
  cases r <;> simp [exactlyOne, accepted]

theorem firstOf_singleton {r : Outcome} : firstOf [r] = .ok f ↔ r = .ok f := by
  cases r <;> simp [firstOf, accepted]

/-- The only output is the first. -/
theorem firstOf_of_exactlyOne {outcomes : List Outcome} (h : exactlyOne outcomes = .ok f) :
    firstOf outcomes = .ok f := by
  unfold exactlyOne at h
  split at h
  · rename_i hone
    cases h
    rw [firstOf, hone]
  · cases h

/-- The first of some outputs may stand for them. -/
theorem firstOf_append_firstOf (os ps qs : List Outcome) :
    firstOf (os ++ firstOf ps :: qs) = firstOf (os ++ ps ++ qs) := by
  have hinner : (accepted (firstOf ps :: qs)).head? = (accepted (ps ++ qs)).head? := by
    rw [accepted_append, List.head?_append]
    cases hps : accepted ps with
    | nil =>
        rw [firstOf, hps]
        rfl
    | cons f rest =>
        rw [firstOf, hps]
        rfl
  apply firstOf_eq_of_head?
  rw [List.append_assoc, accepted_append, accepted_append, List.head?_append, List.head?_append,
    hinner]

end

/-! ## Merging outputs -/

/-- What outputs are merged into: an object that has each key with the value that the last of them
has, in the order in which the keys appear first, provided they are all objects; else the last of
them. Absent outputs do not count. -/
inductive Merges (fs : List Field) : Field → Prop
  | nothing : (∀ f ∈ fs, f = .absent) → Merges fs .absent
  | objects {tables : List (Entries Json)} {ms : Entries Json} : tables ≠ [] →
      (fs.filter fun f => !f.isAbsent) = tables.map (fun t => .value (.object t)) →
      Entries.keys ms = (tables.flatMap Entries.keys).eraseDups →
      (∀ k x, Entries.get? k ms = some x ↔
        ∃ t, LastWhere (fun t => k ∈ Entries.keys t) tables t ∧ Entries.get? k t = some x) →
      Merges fs (.value (.object ms))
  | last {f : Field} : (∃ g ∈ fs, g ≠ .absent ∧ ¬ g.IsObject) →
      LastWhere (fun f => f ≠ .absent) fs f → Merges fs f

section

variable {fs gs hs : List Field} {tables : List (Entries Json)} {out : Field}

theorem merge_filter (fs : List Field) : merge (fs.filter fun f => !f.isAbsent) = merge fs := by
  simp only [merge, List.filter_filter, Bool.and_self]

theorem merge_tables (hne : tables ≠ []) :
    merge (tables.map fun t => .value (.object t)) =
      .value (.object (Entries.putAll tables.flatten [])) := by
  rw [merge_objects hne, Entries.putAll, List.foldl_flatten]
  rfl

theorem keys_tables (tables : List (Entries Json)) :
    Entries.keys (Entries.putAll tables.flatten []) =
      (tables.flatMap Entries.keys).eraseDups := by
  rw [Entries.keys_putAll_nil, Entries.keys, List.map_flatten, List.flatMap_def]
  rfl

/-- Of tables put over each other, the last one that has a name says what is under it. -/
theorem get?_tables (hd : ∀ t ∈ tables, (Entries.keys t).Nodup) {k : String} {x : Json} :
    Entries.get? k (Entries.putAll tables.flatten []) = some x ↔
      ∃ t, LastWhere (fun t => k ∈ Entries.keys t) tables t ∧ Entries.get? k t = some x := by
  have hfold : Entries.putAll tables.flatten [] =
      tables.foldl (fun acc m => Entries.putAll m acc) [] := List.foldl_flatten
  have hkey : ∀ t ∈ tables, k ∈ Entries.keys t ↔ ∃ y, Entries.get? k t = some y := by
    intro t _
    rw [← Entries.has_iff, Entries.has, Option.isSome_iff_exists]
  rw [hfold, get?_merged hd, Entries.get?_nil, Option.or_none,
    LastWhere.findSome?_reverse_eq_some_iff]
  simp only [LastWhere.congr hkey]

/-- An output that is there and no object leaves the last word to the last one. -/
theorem merge_last {f : Field} (hother : ∃ g ∈ fs, g ≠ .absent ∧ ¬ g.IsObject)
    (hlast : LastWhere (fun f => f ≠ .absent) fs f) : merge fs = f := by
  have hpresent : ∀ g ∈ fs, g ≠ .absent ↔ (!g.isAbsent) = true := by
    intro g _
    exact Field.not_isAbsent_iff.symm
  have hfound : (fs.filter fun f => !f.isAbsent).getLast? = some f :=
    LastWhere.getLast?_filter_eq_some_iff.mpr ((LastWhere.congr hpresent).mp hlast)
  have hnone : allMembers (fs.filter fun f => !f.isAbsent) = none := by
    obtain ⟨g, hg, hthere, hno⟩ := hother
    exact allMembers_eq_none (List.mem_filter.mpr ⟨hg, (hpresent g hg).mp hthere⟩) hno
  simp only [merge, hfound, hnone]

/-- Outputs without repeated keys are merged as they should be. -/
theorem merges_merge (hd : ∀ t, .value (.object t) ∈ fs → (Entries.keys t).Nodup) :
    Merges fs (merge fs) := by
  by_cases hother : ∃ g ∈ fs, g ≠ .absent ∧ ¬ g.IsObject
  · have hthere : ∃ g ∈ fs, g ≠ .absent := by
      obtain ⟨g, hg, hg', -⟩ := hother
      exact ⟨g, hg, hg'⟩
    obtain ⟨f, hf⟩ := LastWhere.exists_iff.mpr hthere
    rw [merge_last hother hf]
    exact .last hother hf
  · have hobjects : ∀ f ∈ fs.filter fun f => !f.isAbsent, f.IsObject := by
      intro f hf
      rw [List.mem_filter, Field.not_isAbsent_iff] at hf
      by_contra hno
      exact hother ⟨f, hf.1, hf.2, hno⟩
    obtain ⟨tables, htables⟩ := exists_members_of_isObject hobjects
    rw [← merge_filter, htables]
    by_cases hne : tables = []
    · subst hne
      refine .nothing fun f hf => ?_
      rw [List.map_nil, List.filter_eq_nil_iff] at htables
      simpa [Field.isAbsent_iff] using htables f hf
    · rw [merge_tables hne]
      refine .objects hne htables (keys_tables tables) fun k x => get?_tables fun t ht => hd t ?_
      exact List.mem_of_mem_filter (htables ▸ List.mem_map_of_mem ht)

/-- There is one way to merge outputs. -/
theorem Merges.merge_eq (hd : ∀ t, .value (.object t) ∈ fs → (Entries.keys t).Nodup)
    (h : Merges fs out) : merge fs = out := by
  cases h with
  | nothing habsent =>
      have hnone : (fs.filter fun f => !f.isAbsent) = [] := by
        rw [List.filter_eq_nil_iff]
        intro f hf
        rw [habsent f hf]
        exact Bool.false_ne_true
      rw [← merge_filter, hnone]
      rfl
  | @objects tables ms hne htables hkeys hvalues =>
      have hnodup : ∀ t ∈ tables, (Entries.keys t).Nodup := by
        intro t ht
        exact hd t (List.mem_of_mem_filter (htables ▸ List.mem_map_of_mem ht))
      rw [← merge_filter, htables, merge_tables hne]
      have hsame : Entries.putAll tables.flatten [] = ms := by
        refine Entries.ext_of_keys_eq (Entries.nodup_putAll_nil _) ?_ fun k => ?_
        · rw [keys_tables, hkeys]
        · refine Option.ext fun x => ?_
          rw [get?_tables hnodup, hvalues]
      rw [hsame]
  | last hother hlast => exact merge_last hother hlast

theorem merges_iff (hd : ∀ t, .value (.object t) ∈ fs → (Entries.keys t).Nodup) :
    Merges fs out ↔ merge fs = out := by
  refine ⟨Merges.merge_eq hd, ?_⟩
  rintro rfl
  exact merges_merge hd

/-- A single output is merged to itself. Of an object this needs that its names are distinct. -/
theorem merge_singleton {f : Field} (hd : ∀ t, f = .value (.object t) → (Entries.keys t).Nodup) :
    merge [f] = f := by
  by_cases habsent : f = .absent
  · rw [habsent]
    rfl
  by_cases hobject : f.IsObject
  · obtain ⟨t, rfl⟩ := hobject
    have htable : Entries.putAll t [] = t := Entries.putAll_eq_append (hd t rfl)
    have hmerge := merge_tables (List.cons_ne_nil t [])
    rw [List.flatten_singleton, htable] at hmerge
    exact hmerge
  · exact merge_last ⟨f, List.mem_singleton_self f, habsent, hobject⟩
      (.here habsent fun g hg => absurd hg List.not_mem_nil)

/-- Tables may be put over each other in any grouping. -/
theorem merge_tables_append {bs : List (Entries Json)} (hbs : bs ≠ [])
    (as cs : List (Entries Json)) :
    merge ((as ++ Entries.putAll bs.flatten [] :: cs).map fun t => .value (.object t)) =
      merge ((as ++ bs ++ cs).map fun t => .value (.object t)) := by
  have hleft : as ++ Entries.putAll bs.flatten [] :: cs ≠ [] := by simp
  have hright : as ++ bs ++ cs ≠ [] := by simp [hbs]
  rw [merge_tables hleft, merge_tables hright]
  simp only [List.flatten_append, List.flatten_cons, Entries.putAll_append,
    Entries.putAll_putAll_nil _ (Entries.nodup_putAll_nil as.flatten)]

/-- Of outputs that are there and no objects the last one counts. -/
theorem some_merge_eq {p : Presence} (hp : p ≠ .absent) (hobject : p ≠ .object) (hne : fs ≠ [])
    (h : ∀ f ∈ fs, f.presence = p) : some (merge fs) = fs.getLast? := by
  have hthere : ∀ f ∈ fs, f ≠ .absent := by
    rintro f hf rfl
    exact hp (h _ hf).symm
  have hother : ∀ f ∈ fs, ¬ f.IsObject := by
    intro f hf ho
    rw [← Field.presence_eq_object_iff, h f hf] at ho
    exact hobject ho
  rw [merge_others hne hthere hother, List.getLast?_eq_some_getLast hne]

/-- Of outputs of one presence, some may be merged first. -/
theorem merge_append_merge {p : Presence} (hp : p ≠ .absent) (hne : gs ≠ [])
    (h : ∀ f ∈ fs ++ gs ++ hs, f.presence = p) :
    merge (fs ++ merge gs :: hs) = merge (fs ++ gs ++ hs) := by
  have hsplit := h
  rw [List.forall_mem_append, List.forall_mem_append] at hsplit
  obtain ⟨⟨hfs, hgs⟩, hhs⟩ := hsplit
  by_cases hobject : p = .object
  · subst hobject
    simp only [Field.presence_eq_object_iff] at hfs hgs hhs
    obtain ⟨as, rfl⟩ := exists_members_of_isObject hfs
    obtain ⟨bs, rfl⟩ := exists_members_of_isObject hgs
    obtain ⟨cs, rfl⟩ := exists_members_of_isObject hhs
    have hbs : bs ≠ [] := by simpa using hne
    rw [merge_tables hbs]
    simpa only [List.map_append, List.map_cons] using merge_tables_append hbs as cs
  · have hkept : ∀ f ∈ fs ++ merge gs :: hs, f.presence = p := by
      rw [List.forall_mem_append, List.forall_mem_cons]
      exact ⟨hfs, presence_merge hne hp hgs, hhs⟩
    have hleft : fs ++ merge gs :: hs ≠ [] := by simp
    have hright : fs ++ gs ++ hs ≠ [] := by simp [hne]
    apply Option.some.inj
    rw [some_merge_eq hp hobject hleft hkept, some_merge_eq hp hobject hright h]
    simp only [List.getLast?_append, List.getLast?_cons, ← some_merge_eq hp hobject hne hgs]
    cases hs.getLast? <;> rfl

end

/-! ## All outputs together -/

/-- With a single branch, all of them answer as it does. -/
theorem everyOne_singleton {r : Outcome} {out : Field}
    (hd : ∀ t, r = .ok (.value (.object t)) → (Entries.keys t).Nodup) :
    everyOne [r] = .ok out ↔ r = .ok out := by
  rw [everyOne_eq_ok_iff]
  have hmerge : ∀ f, r = .ok f → merge [f] = f := by
    rintro f rfl
    exact merge_singleton fun t ht => hd t (ht ▸ rfl)
  constructor
  · rintro ⟨fs, hfs, rfl⟩
    obtain ⟨f, rfl, hf⟩ := List.map_eq_singleton_iff.mp hfs.symm
    rw [hmerge f hf.symm, hf]
  · intro h
    exact ⟨[out], by rw [h, List.map_singleton], hmerge out h⟩

/-- A failure of `allOf` says nothing, so that knowing the outputs is knowing it all. -/
theorem everyOne_congr {os ps : List Outcome}
    (h : ∀ out, everyOne os = .ok out ↔ everyOne ps = .ok out) : everyOne os = everyOne ps := by
  cases hos : everyOne os with
  | ok out => exact ((h out).mp hos).symm
  | error e =>
      cases hps : everyOne ps with
      | ok out => exact hos.symm.trans ((h out).mpr hps)
      | error e' => rw [everyOne_eq_error hos, everyOne_eq_error hps]

/-- Some of the outcomes may be put together first. -/
theorem everyOne_append_everyOne {os ps qs : List Outcome} {p : Presence} (hp : p ≠ .absent)
    (hne : ps ≠ []) (h : ∀ f, .ok f ∈ os ++ ps ++ qs → f.presence = p) :
    everyOne (os ++ everyOne ps :: qs) = everyOne (os ++ ps ++ qs) := by
  -- outputs of all are merged alike, whichever way they are grouped
  have hmerge : ∀ {fs gs hs : List Field}, os = fs.map .ok → ps = gs.map .ok → qs = hs.map .ok →
      merge (fs ++ merge gs :: hs) = merge (fs ++ gs ++ hs) := by
    rintro fs gs hs rfl rfl rfl
    refine merge_append_merge hp (by simpa using hne) fun f hf => h f ?_
    rw [← List.map_append, ← List.map_append]
    exact List.mem_map_of_mem hf
  refine everyOne_congr fun out => ?_
  rw [everyOne_eq_ok_iff, everyOne_eq_ok_iff]
  constructor
  · rintro ⟨all, hall, rfl⟩
    obtain ⟨fs, rest, rfl, hos, hrest⟩ := List.map_eq_append_iff.mp hall.symm
    obtain ⟨m, hs, rfl, hm, hqs⟩ := List.map_eq_cons_iff.mp hrest
    obtain ⟨gs, hps, rfl⟩ := everyOne_eq_ok_iff.mp hm.symm
    refine ⟨fs ++ gs ++ hs, ?_, (hmerge hos.symm hps hqs.symm).symm⟩
    rw [List.map_append, List.map_append, hos, ← hps, hqs]
  · rintro ⟨all, hall, rfl⟩
    obtain ⟨front, hs, rfl, hfront, hqs⟩ := List.map_eq_append_iff.mp hall.symm
    obtain ⟨fs, gs, rfl, hos, hps⟩ := List.map_eq_append_iff.mp hfront
    refine ⟨fs ++ merge gs :: hs, ?_, hmerge hos.symm hps.symm hqs.symm⟩
    rw [List.map_append, List.map_cons, hos, hqs, everyOne_eq_ok_iff.mpr ⟨gs, hps.symm, rfl⟩]

/-! ## Examining -/

section

variable {c : Common} {examine examine' : Field → Outcome} {input : Field}

/-- An input that is there is examined, unless it is null and may be. -/
theorem settled_eq_examine (hi : input ≠ .absent)
    (hnull : ¬ (c.nullable = true ∧ input.isNull = true)) :
    settled c examine input = examine input := by
  have habsent : input.isAbsent = false := by
    rw [← Bool.not_eq_true, Field.isAbsent_iff]
    exact hi
  rw [← Bool.and_eq_true] at hnull
  rw [settled, settle, Common.substitute_of_ne_absent hi]
  simp only [habsent, hnull, Bool.false_eq_true, if_false]

/-- Of an input that is there, only the examination of this very input counts. -/
theorem settled_congr (hi : input ≠ .absent) (h : examine input = examine' input) :
    settled c examine input = settled c examine' input := by
  simp only [settled, settle, Common.substitute_of_ne_absent hi]
  split
  · rfl
  · rename_i heq
    split at heq
    · cases heq
    · split at heq
      · cases heq
      · cases heq
        exact h

end

end Combinator

namespace Validator

/-! ## What the nodes answer -/

/-- The input has an output. -/
def Accepts (v : Validator) (input : Field) (raw : Bool) : Prop :=
  ∃ out, v.validate input raw = .ok out

section

variable (c : Common) (branches : List Validator) (input : Field) (raw : Bool)

/-- Without a discriminator, `oneOf` answers with the output of the only branch that accepts,
`anyOf` with that of the first, and `allOf` with the outputs of all, merged. A failure is the
complaint of the combinator itself. -/
structure CombinesBranches : Prop where
  oneOf : ∀ out, (Validator.oneOf c branches none).validate input raw = .ok out ↔
    ∃ b, OnlyWhere (fun b => b.Accepts input raw) branches b ∧ b.validate input raw = .ok out
  anyOf : ∀ out, (Validator.anyOf c branches none).validate input raw = .ok out ↔
    ∃ b, FirstWhere (fun b => b.Accepts input raw) branches b ∧ b.validate input raw = .ok out
  allOf : ∀ out, (Validator.allOf c branches).validate input raw = .ok out ↔
    ∃ fs, List.Forall₂ (fun b f => b.validate input raw = .ok f) branches fs ∧
      Combinator.Merges fs out
  oneOf_error : ∀ e, (Validator.oneOf c branches none).validate input raw = .error e →
    e = Combinator.failed "oneOf"
  anyOf_error : ∀ e, (Validator.anyOf c branches none).validate input raw = .error e →
    e = Combinator.failed "anyOf"
  allOf_error : ∀ e, (Validator.allOf c branches).validate input raw = .error e →
    e = Combinator.failed "allOf"

/-- What is the only output is the first; what all branches accept some branch does; a branch on
its own may stand for a combinator of it; and a combinator among the branches of one of its kind
may be replaced by its branches. -/
structure ComposesBranches : Prop where
  anyOf_of_oneOf : ∀ d out, (Validator.oneOf c branches d).validate input raw = .ok out →
    (Validator.anyOf c branches d).validate input raw = .ok out
  anyOf_of_allOf : branches ≠ [] → (Validator.allOf c branches).Accepts input raw →
    (Validator.anyOf c branches none).Accepts input raw
  single : ∀ b, branches = [b] → c.nullable = false → ∀ out,
    ((Validator.oneOf c branches none).validate input raw = .ok out ↔
      b.validate input raw = .ok out) ∧
    ((Validator.anyOf c branches none).validate input raw = .ok out ↔
      b.validate input raw = .ok out) ∧
    ((Validator.allOf c branches).validate input raw = .ok out ↔ b.validate input raw = .ok out)
  flatten_anyOf : ∀ inner before nested after, inner.nullable = false →
    branches = before ++ nested ++ after →
    (Validator.anyOf c (before ++ .anyOf inner nested none :: after) none).validate input raw =
      (Validator.anyOf c branches none).validate input raw
  flatten_allOf : ∀ inner before nested after, inner.nullable = false → nested ≠ [] →
    branches = before ++ nested ++ after →
    (Validator.allOf c (before ++ .allOf inner nested :: after)).validate input raw =
      (Validator.allOf c branches).validate input raw

end

variable {c inner : Common} {branches before nested after : List Validator} {input : Field}
  {raw : Bool}

/-- Outputs of sound branches repeat no key. -/
theorem nodup_of_branch (hsound : ∀ b ∈ branches, b.Everywhere Sound) (hwf : input.WellFormed)
    {fs : List Field} (h : (branches.map fun b => b.validate input raw) = fs.map .ok) :
    ∀ t, .value (.object t) ∈ fs → (Entries.keys t).Nodup := by
  intro t ht
  obtain ⟨b, hb, hout⟩ := exists_branch_of_mem h ht
  exact (Json.wellFormed_object.mp (wellFormed_of_validate (hsound b hb) hwf hout)).1

theorem map_validate_eq_iff {fs : List Field} :
    (branches.map fun b => b.validate input raw) = fs.map .ok ↔
      List.Forall₂ (fun b f => b.validate input raw = .ok f) branches fs := by
  rw [← List.forall₂_eq_eq_eq, List.forall₂_map_left_iff, List.forall₂_map_right_iff]

/-- The combinators mean what they should, for an input that is there and is not an accepted null.
-/
theorem combinesBranches (hi : input ≠ .absent) (hwf : input.WellFormed)
    (hsound : ∀ b ∈ branches, b.Everywhere Sound)
    (hnull : ¬ (c.nullable = true ∧ input.isNull = true)) :
    CombinesBranches c branches input raw where
  oneOf out := by
    rw [validate_oneOf_eq, Combinator.settled_eq_examine hi hnull, examineChoice,
      branchOutcomes_eq]
    exact Combinator.exactlyOne_eq_ok_iff
  anyOf out := by
    rw [validate_anyOf_eq, Combinator.settled_eq_examine hi hnull, examineChoice,
      branchOutcomes_eq]
    exact Combinator.firstOf_eq_ok_iff
  allOf out := by
    rw [validate_allOf_eq, Combinator.settled_eq_examine hi hnull, Combinator.everyOne_eq_ok_iff]
    refine exists_congr fun fs => ?_
    rw [← map_validate_eq_iff]
    refine and_congr_right fun hfs => ?_
    exact (Combinator.merges_iff (nodup_of_branch hsound hwf hfs)).symm
  oneOf_error e he := by
    rw [validate_oneOf_eq, Combinator.settled_eq_examine hi hnull] at he
    exact Combinator.exactlyOne_eq_error he
  anyOf_error e he := by
    rw [validate_anyOf_eq, Combinator.settled_eq_examine hi hnull] at he
    exact Combinator.firstOf_eq_error he
  allOf_error e he := by
    rw [validate_allOf_eq, Combinator.settled_eq_examine hi hnull] at he
    exact Combinator.everyOne_eq_error he

/-! ## Combinators of combinators -/

/-- With the same discriminator, if any, `anyOf` accepts what `oneOf` does. -/
theorem anyOf_of_oneOf {d : Option Discriminator} {out : Field}
    (h : (oneOf c branches d).validate input raw = .ok out) :
    (anyOf c branches d).validate input raw = .ok out := by
  rw [validate_oneOf_eq] at h
  rw [validate_anyOf_eq]
  refine Combinator.settled_mono (fun f g hex => ?_) h
  cases d with
  | none => exact Combinator.firstOf_of_exactlyOne hex
  | some d => exact dispatch_eq_ok_iff.mpr (dispatch_eq_ok_iff.mp hex)

/-- What all branches accept some branch does. -/
theorem anyOf_of_allOf (hi : input ≠ .absent) (hne : branches ≠ [])
    (h : (allOf c branches).Accepts input raw) : (anyOf c branches none).Accepts input raw := by
  obtain ⟨out, hout⟩ := h
  by_cases hnull : c.nullable = true ∧ input.isNull = true
  · refine ⟨.null, ?_⟩
    rw [validate_anyOf_eq, Combinator.settled_eq_ok_iff, Common.substitute_of_ne_absent hi]
    exact .inr (.inl ⟨hnull.1, hnull.2, rfl⟩)
  · rw [validate_allOf_eq, Combinator.settled_eq_examine hi hnull,
      Combinator.everyOne_eq_ok_iff] at hout
    obtain ⟨fs, hfs, -⟩ := hout
    obtain ⟨f, hf⟩ := List.exists_mem_of_ne_nil fs (outputs_ne_nil hne hfs)
    have haccepts : ∃ b ∈ branches, b.Accepts input raw := by
      obtain ⟨b, hb, hbf⟩ := exists_branch_of_mem hfs hf
      exact ⟨b, hb, f, hbf⟩
    obtain ⟨first, hfirst⟩ := FirstWhere.exists_iff.mpr haccepts
    obtain ⟨o, ho⟩ := hfirst.holds
    refine ⟨o, ?_⟩
    rw [validate_anyOf_eq, Combinator.settled_eq_examine hi hnull, examineChoice,
      branchOutcomes_eq]
    exact Combinator.firstOf_eq_ok_iff.mpr ⟨first, hfirst, ho⟩

/-- Null is left to the branches by a combinator that does not allow it. -/
theorem not_takes_null (hinner : inner.nullable = false) :
    ¬ (inner.nullable = true ∧ input.isNull = true) := by
  rw [hinner]
  exact fun h => Bool.false_ne_true h.1

/-- An `anyOf` among the branches of another one, which does not take null by itself, may be
replaced by its branches. -/
theorem flatten_anyOf (hi : input ≠ .absent) (hinner : inner.nullable = false) :
    (anyOf c (before ++ .anyOf inner nested none :: after) none).validate input raw =
      (anyOf c (before ++ nested ++ after) none).validate input raw := by
  have hnested : (anyOf inner nested none).validate input raw =
      Combinator.firstOf (nested.map fun b => b.validate input raw) := by
    rw [validate_anyOf_eq, Combinator.settled_eq_examine hi (not_takes_null hinner),
      examineChoice, branchOutcomes_eq]
  rw [validate_anyOf_eq, validate_anyOf_eq]
  refine Combinator.settled_congr hi ?_
  simp only [examineChoice, branchOutcomes_eq, List.map_append, List.map_cons, hnested]
  exact Combinator.firstOf_append_firstOf _ _ _

/-- So may an `allOf` that has branches. Merging in parts comes to the same since outputs are all
objects or none is. -/
theorem flatten_allOf (hi : input ≠ .absent)
    (hmerges : ∀ b ∈ before ++ nested ++ after, b.Everywhere MergesSome)
    (hinner : inner.nullable = false) (hne : nested ≠ []) :
    (allOf c (before ++ .allOf inner nested :: after)).validate input raw =
      (allOf c (before ++ nested ++ after)).validate input raw := by
  have hnested : (allOf inner nested).validate input raw =
      Combinator.everyOne (nested.map fun b => b.validate input raw) := by
    rw [validate_allOf_eq, Combinator.settled_eq_examine hi (not_takes_null hinner)]
  -- every output is as the input is: an object if that is one, else none
  have hpresence : ∀ f, .ok f ∈ (before ++ nested ++ after).map (fun b => b.validate input raw) →
      f.presence = input.presence := by
    intro f hf
    obtain ⟨b, hb, hout⟩ := List.mem_map.mp hf
    exact presence_of_validate (hmerges b hb) hi hout
  have hthere : input.presence ≠ .absent := fun h => hi (Field.presence_eq_absent_iff.mp h)
  rw [validate_allOf_eq, validate_allOf_eq]
  refine Combinator.settled_congr hi ?_
  simp only [List.map_append, List.map_cons, hnested] at hpresence ⊢
  exact Combinator.everyOne_append_everyOne hthere (by simpa using hne) hpresence

/-- The laws of composition together, for an input that is there. -/
theorem composesBranches (hi : input ≠ .absent) (hwf : input.WellFormed)
    (hsound : ∀ b ∈ branches, b.Everywhere Sound)
    (hmerges : ∀ b ∈ branches, b.Everywhere MergesSome) :
    ComposesBranches c branches input raw where
  anyOf_of_oneOf d out := anyOf_of_oneOf
  anyOf_of_allOf := anyOf_of_allOf hi
  single := by
    rintro b rfl hc out
    have hnull : ¬ (c.nullable = true ∧ input.isNull = true) := not_takes_null hc
    rw [validate_oneOf_eq, validate_anyOf_eq, validate_allOf_eq,
      Combinator.settled_eq_examine hi hnull, Combinator.settled_eq_examine hi hnull,
      Combinator.settled_eq_examine hi hnull, examineChoice, examineChoice, branchOutcomes_eq]
    refine ⟨Combinator.exactlyOne_singleton, Combinator.firstOf_singleton,
      Combinator.everyOne_singleton fun t ht => ?_⟩
    have hout := wellFormed_of_validate (hsound b List.mem_cons_self) hwf ht
    exact (Json.wellFormed_object.mp hout).1
  flatten_anyOf := by
    rintro inner before nested after hinner rfl
    exact flatten_anyOf hi hinner
  flatten_allOf := by
    rintro inner before nested after hinner hne rfl
    exact flatten_allOf hi hmerges hinner hne

/-- For an input that is there, combinators mean what they say of their branches, unless it is
null and they take null themselves, and they compose, provided every `allOf` node below has
branches. -/
theorem branches_combine_and_compose (hi : input ≠ .absent) (hwf : input.WellFormed)
    (hsound : ∀ b ∈ branches, b.Everywhere Sound) :
    (¬ (c.nullable = true ∧ input.isNull = true) → CombinesBranches c branches input raw) ∧
      ((∀ b ∈ branches, b.Everywhere MergesSome) → ComposesBranches c branches input raw) :=
  ⟨combinesBranches hi hwf hsound, composesBranches hi hwf hsound⟩

/-! ## A panel -/

/-- A lamp or a bell, to be switched on or off. Other members are left as they are. -/
def switch (name : String) : Validator := .object {} [(name, .boolean {})] .allow

theorem switch_sound (name : String) : (switch name).Everywhere Sound := by
  refine .node ⟨by rintro d ⟨⟩, List.nodup_singleton name⟩ fun c hc => ?_
  rw [List.mem_singleton.mp hc]
  exact .leaf ⟨by rintro d ⟨⟩, trivial⟩ rfl

theorem switch_mergesSome (name : String) : (switch name).Everywhere MergesSome := by
  refine .node trivial fun c hc => ?_
  rw [List.mem_singleton.mp hc]
  exact .leaf trivial rfl

/-- A panel has one of each. -/
def panel : List Validator := [switch "lamp", switch "bell"]

/-- What is switched on a panel. -/
def panelSent : Field := .value (.object [("bell", .string "true"), ("lamp", .string "false")])

/-- The first branch names the lamp first, and the last one leaves its text as it is. -/
theorem panelSent_combines :
    (allOf {} panel).validate panelSent true =
        .ok (.value (.object [("lamp", .string "false"), ("bell", .bool true)])) ∧
      CombinesBranches {} panel panelSent true ∧ ComposesBranches {} panel panelSent true := by
  have hpanel : ∀ b ∈ panel, b.Everywhere Sound ∧ b.Everywhere MergesSome := by
    intro b hb
    obtain ⟨name, -, rfl⟩ : ∃ name ∈ ["lamp", "bell"], switch name = b := List.mem_map.mp hb
    exact ⟨switch_sound name, switch_mergesSome name⟩
  have hwf : panelSent.WellFormed := ⟨by decide, trivial, trivial, trivial⟩
  obtain ⟨hcombines, hcomposes⟩ := branches_combine_and_compose (c := {})
    (by rintro ⟨⟩) hwf fun b hb => (hpanel b hb).1
  exact ⟨by cbv, hcombines (by rintro ⟨⟨⟩, -⟩), hcomposes fun b hb => (hpanel b hb).2⟩

end Validator

end SchemaGate
