import Mathlib
import SchemaGate.Proofs.Schema.Presence

/-!
# Merging the branches of an `allOf` node

Branches that are objects all see the whole input, and a branch that takes other members as they
are puts them into its output again. Later outputs go before earlier ones, so the member that a
branch declares and reads meets the same member as later branches have found it in the input:
what the branch made of it is kept only by the last branch, and where the input has no such
member (`Validator.merged_of_validate`). Whether there is such a member is not affected.
-/

namespace SchemaGate

namespace Combinator

/-- A name is looked up in the last table first. -/
theorem get?_merged {k : String} {mss : List (Entries Json)}
    (hd : ∀ ms ∈ mss, (Entries.keys ms).Nodup) (acc : Entries Json) :
    Entries.get? k (mss.foldl (fun acc m => Entries.putAll m acc) acc) =
      (mss.reverse.findSome? (Entries.get? k)).or (Entries.get? k acc) := by
  induction mss generalizing acc with
  | nil => rfl
  | cons ms rest ih =>
      rw [List.forall_mem_cons] at hd
      rw [List.foldl_cons, ih hd.2, Entries.get?_putAll_of_nodup hd.1, List.reverse_cons,
        List.findSome?_append, List.findSome?_singleton, Option.or_assoc]

/-- What is found under a name that all tables but one have alike. -/
theorem get?_merged_of_others {k : String} {before after : List (Entries Json)}
    {ms : Entries Json} (hd : ∀ ns ∈ before ++ ms :: after, (Entries.keys ns).Nodup)
    {x : Option Json} (hbefore : ∀ ns ∈ before, Entries.get? k ns = x)
    (hafter : ∀ ns ∈ after, Entries.get? k ns = x) :
    Entries.get? k ((before ++ ms :: after).foldl (fun acc m => Entries.putAll m acc) []) =
      ((if after = [] then none else x).or (Entries.get? k ms)).or
        (if before = [] then none else x) := by
  have halike : ∀ mss : List (Entries Json), (∀ ns ∈ mss, Entries.get? k ns = x) →
      mss.reverse.findSome? (Entries.get? k) = if mss = [] then none else x := by
    intro mss h
    induction mss with
    | nil => rfl
    | cons ns rest ih =>
        rw [List.forall_mem_cons] at h
        rw [List.reverse_cons, List.findSome?_append, List.findSome?_singleton, ih h.2, h.1]
        cases rest <;> simp
  rw [get?_merged hd, List.reverse_append, List.reverse_cons, List.findSome?_append,
    List.findSome?_append, List.findSome?_singleton, halike before hbefore, halike after hafter]
  exact Option.or_none

end Combinator

/-- The parts of an object node that takes members of other names as they are. -/
structure OpenObject where
  rule : ObjectRule
  properties : Entries Validator
  distinct : (Entries.keys properties).Nodup

namespace OpenObject

/-- The node itself. -/
def node (o : OpenObject) : Validator := .object o.rule o.properties .allow

/-- The names that the node declares. -/
def names (o : OpenObject) : List String := Entries.keys o.properties

/-- The output for an object has the other members of the input, and under each declared name
what its outcome stands for. -/
theorem output_of_validate {o : OpenObject} {ms : Entries Json} (hms : (Entries.keys ms).Nodup)
    {raw : Bool} {f : Field} (h : o.node.validate (.value (.object ms)) raw = .ok f) :
    ∃ own, f = .value (.object own) ∧ (Entries.keys own).Nodup ∧
      (∀ k ∉ o.names, Entries.get? k own = Entries.get? k ms) ∧
      ∀ k v, Entries.get? k o.properties = some v →
        ∃ g, Validator.declaredOutcome v (Entries.get? k ms) raw = .ok g ∧
          Entries.get? k own = g.toJson? := by
  rw [node, Validator.validate_object_eq, Common.settled_of_isGiven ⟨rfl, rfl⟩,
    Validator.examineObject_eq_ok_iff] at h
  obtain ⟨ms', hms', -, hok, -, hf⟩ := h
  cases hms'
  have hnodup : (Entries.keys
      (Validator.memberOutcomes o.properties .allow ms raw)).Nodup :=
    Validator.nodup_memberOutcomes o.distinct hms
  refine ⟨_, hf.symm, ObjectRule.nodup_outputs hnodup, ?_, ?_⟩
  · intro k hk
    have hnone : Entries.get? k o.properties = none := Entries.get?_eq_none_iff.mpr hk
    rw [ObjectRule.get?_outputs hnodup, Validator.get?_memberOutcomes hms, hnone]
    cases Entries.get? k ms with
    | none => rfl
    | some x =>
        rw [Validator.outcomeOf, Option.map_some, Validator.validateAdditional]
        rfl
  · intro k v hv
    have hfound : Entries.get? k (Validator.memberOutcomes o.properties .allow ms raw) =
        some (Validator.declaredOutcome v (Entries.get? k ms) raw) := by
      rw [Validator.get?_memberOutcomes hms, hv]
      rfl
    obtain ⟨g, hg⟩ := hok _ (Entries.mem_of_get? hfound)
    refine ⟨g, hg, ?_⟩
    rw [ObjectRule.get?_outputs hnodup, hfound]
    exact congrArg Outcome.json? hg

/-- A name that the output does not have was not given, if combinators have branches. -/
theorem get?_eq_none_of_output (o : OpenObject) {ms own : Entries Json}
    (hms : (Entries.keys ms).Nodup) {raw : Bool}
    (h : o.node.validate (.value (.object ms)) raw = .ok (.value (.object own))) {k : String}
    {v : Validator} (hv : Entries.get? k o.properties = some v)
    (hmerges : v.Everywhere Validator.MergesSome) (hnone : Entries.get? k own = none) :
    Entries.get? k ms = none := by
  obtain ⟨_, hsame, -, -, hdeclared⟩ := output_of_validate hms h
  cases hsame
  obtain ⟨g, hg, hown⟩ := hdeclared k v hv
  rw [Entries.get?_eq_none_iff]
  intro hkey
  obtain ⟨x, hx⟩ := Validator.exists_output_of_declared hmerges hkey hg
  rw [hown, hx] at hnone
  cases hnone

end OpenObject

namespace Validator

variable {c : Common} {parts before after : List OpenObject} {part : OpenObject}
  {ms : Entries Json} {raw : Bool} {out : Field}

/-- The tables that an `allOf` node of objects merges are the outputs of its branches. -/
theorem exists_tables_of_validate (hms : (Entries.keys ms).Nodup)
    (h : (allOf c (parts.map OpenObject.node)).validate (.value (.object ms)) raw = .ok out) :
    ∃ mss : List (Entries Json),
      (parts.map fun o => o.node.validate (.value (.object ms)) raw) =
        mss.map (fun own => .ok (.value (.object own))) ∧
      (mss ≠ [] →
        out = .value (.object (mss.foldl (fun acc m => Entries.putAll m acc) []))) := by
  rw [validate_allOf_eq, Combinator.settled_eq_ok_iff] at h
  rcases h with ⟨habsent, -⟩ | ⟨-, hnull, -⟩ | ⟨-, -, hmerged⟩
  · cases habsent
  · cases hnull
  · obtain ⟨fs, hfs, hout⟩ := Combinator.everyOne_eq_ok_iff.mp hmerged
    rw [List.map_map] at hfs
    have hobjects : ∀ f ∈ fs, f.IsObject := by
      intro f hf
      have hrun : Except.ok f ∈ parts.map _ := hfs ▸ List.mem_map_of_mem hf
      obtain ⟨o, -, ho⟩ := List.mem_map.mp hrun
      obtain ⟨own, hown, -⟩ := OpenObject.output_of_validate hms ho
      exact ⟨own, hown⟩
    obtain ⟨mss, rfl⟩ := Combinator.exists_members_of_isObject hobjects
    rw [List.map_map] at hfs
    refine ⟨mss, hfs, fun hne => ?_⟩
    rw [← hout, Combinator.merge_objects hne]

/-- Other branches hand on what they do not declare. -/
theorem get?_table_eq {k : String} (hms : (Entries.keys ms).Nodup) {mss : List (Entries Json)}
    (hruns : (parts.map fun o => o.node.validate (.value (.object ms)) raw) =
      mss.map fun own => .ok (.value (.object own)))
    (hk : ∀ o ∈ parts, k ∉ o.names) :
    ∀ ns ∈ mss, (Entries.keys ns).Nodup ∧ Entries.get? k ns = Entries.get? k ms := by
  intro ns hns
  have hrun : Except.ok (Field.value (.object ns)) ∈ parts.map _ :=
    hruns ▸ List.mem_map_of_mem hns
  obtain ⟨o, ho, hvalid⟩ := List.mem_map.mp hrun
  obtain ⟨own, hown, hnodup, hothers, -⟩ := OpenObject.output_of_validate hms hvalid
  cases hown
  exact ⟨hnodup, hothers k (hk o ho)⟩

/-- What the merged output has under a name that one branch declares: the member of the input, put
back by a later branch, else what the branch itself has, else the member of the input once more,
which an earlier branch has handed on. -/
theorem exists_merged_of_validate
    (hdisjoint : (before ++ part :: after).Pairwise fun p q => p.names.Disjoint q.names)
    (hms : (Entries.keys ms).Nodup)
    (h : (allOf c ((before ++ part :: after).map OpenObject.node)).validate
      (.value (.object ms)) raw = .ok out) :
    ∃ own merged, part.node.validate (.value (.object ms)) raw = .ok (.value (.object own)) ∧
      out = .value (.object merged) ∧
      ∀ k ∈ part.names, Entries.get? k merged =
        ((if after = [] then none else Entries.get? k ms).or (Entries.get? k own)).or
          (if before = [] then none else Entries.get? k ms) := by
  obtain ⟨mss, hruns, hout⟩ := exists_tables_of_validate hms h
  rw [List.map_append, List.map_cons] at hruns
  obtain ⟨as, rest, rfl, hbefore, hrest⟩ := List.map_eq_append_iff.mp hruns.symm
  obtain ⟨own, bs, rfl, hown, hafter⟩ := List.map_eq_cons_iff.mp hrest
  obtain ⟨_, hsame, hnodup, -, -⟩ := OpenObject.output_of_validate hms hown.symm
  cases hsame
  refine ⟨own, _, hown.symm, hout (by simp), ?_⟩
  intro k hk
  rw [List.pairwise_append, List.pairwise_cons] at hdisjoint
  obtain ⟨-, ⟨hpart, -⟩, hbetween⟩ := hdisjoint
  have has := get?_table_eq hms hbefore.symm fun o ho hko =>
    hbetween o ho part List.mem_cons_self hko hk
  have hbs := get?_table_eq hms hafter.symm fun o ho hko => hpart o ho hk hko
  have hd : ∀ ns ∈ as ++ own :: bs, (Entries.keys ns).Nodup := by
    intro ns hns
    rcases List.mem_append.mp hns with hns | hns
    · exact (has ns hns).1
    · rcases List.mem_cons.mp hns with rfl | hns
      · exact hnodup
      · exact (hbs ns hns).1
  have hfirst : as = [] ↔ before = [] := by
    rw [← List.map_eq_nil_iff, hbefore, List.map_eq_nil_iff]
  have hlast : bs = [] ↔ after = [] := by
    rw [← List.map_eq_nil_iff, hafter, List.map_eq_nil_iff]
  rw [Combinator.get?_merged_of_others hd (fun ns hns => (has ns hns).2)
    fun ns hns => (hbs ns hns).2]
  simp only [hfirst, hlast]

/-- Under a name that only one of the branches declares, the merged output has a value where the
output of that branch has one. It is the same value if the branch is the last or the name was not
given, and the value that was given if not: later branches have put that one back. -/
theorem merged_of_validate
    (hdisjoint : (before ++ part :: after).Pairwise fun p q => p.names.Disjoint q.names)
    (hms : (Entries.keys ms).Nodup)
    (h : (allOf c ((before ++ part :: after).map OpenObject.node)).validate
      (.value (.object ms)) raw = .ok out) :
    ∃ own merged, part.node.validate (.value (.object ms)) raw = .ok (.value (.object own)) ∧
      out = .value (.object merged) ∧
      ∀ k v, Entries.get? k part.properties = some v →
        (∀ y, Entries.get? k own = some y → Entries.get? k merged =
          some (if after = [] then y else (Entries.get? k ms).getD y)) ∧
        (v.Everywhere MergesSome → Entries.has k merged = Entries.has k own) := by
  obtain ⟨own, merged, hown, hout, hmerged⟩ := exists_merged_of_validate hdisjoint hms h
  refine ⟨own, merged, hown, hout, ?_⟩
  intro k v hv
  have hk : k ∈ part.names := Entries.mem_keys_of_mem (Entries.mem_of_get? hv)
  have hvalue : ∀ y, Entries.get? k own = some y → Entries.get? k merged =
      some (if after = [] then y else (Entries.get? k ms).getD y) := by
    intro y hy
    rw [hmerged k hk, hy]
    by_cases hafter : after = []
    · simp [hafter]
    · cases Entries.get? k ms <;> simp [hafter]
  refine ⟨hvalue, fun hmerges => ?_⟩
  cases hfound : Entries.get? k own with
  | some y =>
      rw [Entries.has, Entries.has, hvalue y hfound, hfound]
      rfl
  | none =>
      have hnot := part.get?_eq_none_of_output hms hown hv hmerges hfound
      rw [Entries.has, Entries.has, hmerged k hk, hnot, hfound]
      simp

/-! ## A crate -/

/-- A count, which may come as a text. -/
def counted : OpenObject where
  rule := {}
  properties := [("count", .integer {})]
  distinct := List.nodup_singleton "count"

/-- A name, which is required. -/
def named : OpenObject where
  rule := { required := ["name"] }
  properties := [("name", .string {})]
  distinct := List.nodup_singleton "name"

/-- A mark that is dropped: nothing says what to make of it. -/
def marked : OpenObject where
  rule := {}
  properties := [("mark", .allOf {} [])]
  distinct := List.nodup_singleton "mark"

/-- A crate with its count as a text. -/
def crateSent : Entries Json :=
  [("mark", .string "x"), ("count", .string "2"), ("name", .string "box")]

/-- The count is a number in the output of the branch, and the text that was sent in the merged
output. Only there is the mark that its branch drops. -/
theorem crateSent_putBack :
    (∃ own merged, counted.node.validate (.value (.object crateSent)) true =
        .ok (.value (.object own)) ∧
      (allOf {} [counted.node, named.node]).validate (.value (.object crateSent)) true =
        .ok (.value (.object merged)) ∧
      Entries.get? "count" own = some (.number (.int ⟨2, by decide, by decide⟩)) ∧
      Entries.get? "count" merged = some (.string "2")) ∧
    ∃ own merged, marked.node.validate (.value (.object crateSent)) true =
        .ok (.value (.object own)) ∧
      (allOf {} [marked.node, named.node]).validate (.value (.object crateSent)) true =
        .ok (.value (.object merged)) ∧
      Entries.has "mark" own = false ∧ Entries.has "mark" merged = true := by
  constructor
  · refine ⟨[("count", .number (.int ⟨2, by decide, by decide⟩)), ("mark", .string "x"),
      ("name", .string "box")],
      [("count", .string "2"), ("mark", .string "x"), ("name", .string "box")], ?_, ?_, ?_, ?_⟩
    · cbv
    · cbv
    · cbv
    · cbv
  · refine ⟨[("name", .string "box"), ("count", .string "2")],
      [("name", .string "box"), ("count", .string "2"), ("mark", .string "x")], ?_, ?_, ?_, ?_⟩
    · cbv
    · cbv
    · cbv
    · cbv

/-- The count is there in both outputs, in the merged one as it was sent. -/
theorem crateSent_merged :
    ∃ own merged, counted.node.validate (.value (.object crateSent)) true =
        .ok (.value (.object own)) ∧
      (allOf {} [counted.node, named.node]).validate (.value (.object crateSent)) true =
        .ok (.value (.object merged)) ∧
      Entries.has "count" own = true ∧ Entries.has "count" merged = true ∧
      Entries.get? "count" merged = Entries.get? "count" crateSent := by
  have haccepted : (allOf {} [counted.node, named.node]).validate (.value (.object crateSent))
      true = .ok (.value (.object
        [("count", .string "2"), ("mark", .string "x"), ("name", .string "box")])) := by cbv
  have hdisjoint : ([] ++ counted :: [named] : List OpenObject).Pairwise
      fun p q => p.names.Disjoint q.names := by
    refine List.pairwise_pair.mpr fun k hcount hname => ?_
    rw [List.mem_singleton.mp hcount] at hname
    exact absurd hname (by decide)
  have hkeys : (Entries.keys crateSent).Nodup := by decide
  obtain ⟨own, merged, hown, hout, hnames⟩ := merged_of_validate hdisjoint hkeys haccepted
  obtain ⟨hvalue, hpresence⟩ := hnames "count" (.integer {}) rfl
  have hthere : Entries.has "count" merged = true := by
    cases hout
    rfl
  have hown' : Entries.has "count" own = true := by
    rw [← hpresence (.leaf trivial rfl), hthere]
  obtain ⟨y, hy⟩ := Entries.exists_get?_of_mem_keys (Entries.has_iff.mp hown')
  refine ⟨own, merged, hown, hout ▸ haccepted, hown', hthere, ?_⟩
  rw [hvalue y hy]
  rfl

end Validator

end SchemaGate
