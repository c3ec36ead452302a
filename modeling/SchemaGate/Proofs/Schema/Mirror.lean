import Mathlib
import SchemaGate.Proofs.Schema.Presence
import SchemaGate.Proofs.Schema.Rejected

/-!
# Errors mirror the input

An error tree says what is wrong with an input at the keys where it is wrong. Where no default can
stand in, these keys are those of the input: each path through the tree leads through members and
items that are there, to a message about the last of them, or to one that asks for a member that is
not there (`Validator.mirrors_of_validate`). And no table of errors in the tree is empty.

Which of the two a message is can be told by its words, but for the tests of formats: they are free
to complain in any words (`Validator.note_asksAnyway`).
-/

namespace SchemaGate

/-! ## Paths -/

namespace ErrorTree

/-- The tree has this message at the end of the path. -/
inductive Leaf : ErrorTree → List String → String → Prop
  | here {text : String} : Leaf (.message text) [] text
  | under {errors : ErrorMap} {k : String} {e : ErrorTree} {path : List String} {text : String} :
      (k, e) ∈ errors → Leaf e path text → Leaf (.nested errors) (k :: path) text

/-- No table of errors in the tree is empty. -/
inductive Full : ErrorTree → Prop
  | message {text : String} : Full (.message text)
  | nested {errors : ErrorMap} : errors ≠ [] → (∀ k e, (k, e) ∈ errors → Full e) →
      Full (.nested errors)

end ErrorTree

namespace Json

/-- What stands under a key in a value: a member, an item by its index, or for raw inputs what
stands between commas in a text. -/
inductive Part (raw : Bool) : Json → String → Json → Prop
  | member {ms : Entries Json} {k : String} {x : Json} : (k, x) ∈ ms → Part raw (.object ms) k x
  | item {xs : List Json} {i : Nat} {x : Json} : xs[i]? = some x →
      Part raw (.array xs) (toString i) x
  | piece {s : String} {i : Nat} {x : Json} : raw = true →
      (ArrayRule.splitRaw s)[i]? = some x → Part raw (.string s) (toString i) x

/-- The path leads from the value to a part of it. -/
inductive Reaches (raw : Bool) : Json → List String → Json → Prop
  | refl {x : Json} : Reaches raw x [] x
  | step {x y z : Json} {k : String} {path : List String} : x.Part raw k y →
      Reaches raw y path z → Reaches raw x (k :: path) z

/-- The value is an object without the key. -/
def Lacks (x : Json) (k : String) : Prop := ∃ ms, x = .object ms ∧ k ∉ Entries.keys ms

end Json

/-! ## Messages -/

/-- The words that ask for a member that is not there. -/
inductive Asks : String → Prop
  | property : Asks "required property"
  | required : Asks "is required"

/-- The text begins with the character. -/
def Opens (c : Char) (text : String) : Prop := text.toList.head? = some c

theorem Opens.append {c : Char} {text : String} (h : Opens c text) (rest : String) :
    Opens c (text ++ rest) := by
  rw [Opens, String.toList_append, List.head?_append, h]
  rfl

/-- The error is a message, and asks for nothing. -/
inductive IsVerdict : ErrorTree → Prop
  | message {text : String} : ¬ Asks text → IsVerdict (.message text)

theorem isVerdict_of_opens {c : Char} {text : String} (h : Opens c text)
    (hc : c ≠ 'r' ∧ c ≠ 'i') : IsVerdict (.message text) := by
  refine .message fun hasks => ?_
  cases hasks with
  | property => exact hc.1 (Option.some.inj (h.symm.trans rfl))
  | required => exact hc.2 (Option.some.inj (h.symm.trans rfl))

theorem isVerdict_typeError (type : String) : IsVerdict (typeError type) :=
  isVerdict_of_opens (c := 'v') (.append (by rfl) _) (by decide)

theorem isVerdict_memberError (members : List Json) : IsVerdict (memberError members) :=
  isVerdict_of_opens (c := 'v') (.append (.append (by rfl) _) _) (by decide)

theorem isVerdict_failed (keyword : String) : IsVerdict (Combinator.failed keyword) :=
  isVerdict_of_opens (c := 'f') (.append (by rfl) _) (by decide)

/-! ### Checks

A keyword that is missing makes no check, one that is there makes one with its own message. -/

variable {c : Bool × ErrorTree}

theorem isVerdict_numberMembers {members : Option (List Json)} {n : Number}
    (h : c ∈ numberMembers members n) : IsVerdict c.2 := by
  unfold numberMembers at h
  split at h
  all_goals simp only [List.not_mem_nil, List.mem_singleton] at h
  rw [h]
  exact isVerdict_memberError _

theorem isVerdict_numberLimits {minimum maximum : Option Limit} {n : Number}
    (h : c ∈ numberLimits minimum maximum n) : IsVerdict c.2 := by
  rcases List.mem_append.mp h with h | h
  all_goals split at h
  all_goals simp only [List.not_mem_nil, List.mem_singleton] at h
  all_goals rw [h]
  · exact isVerdict_of_opens (c := 'v') (.append (by rfl) _) (by decide)
  · exact isVerdict_of_opens (c := 'v') (.append (by rfl) _) (by decide)

theorem IntegerRule.isVerdict_of_mem {r : IntegerRule} {n : WideInt} (h : c ∈ r.checks n) :
    IsVerdict c.2 := by
  simp only [checks, List.mem_append, or_assoc] at h
  rcases h with h | h | h
  · split at h
    all_goals simp only [List.not_mem_nil, List.mem_singleton] at h
    rw [h]
    exact isVerdict_of_opens (c := 'v') (by rfl) (by decide)
  · exact isVerdict_numberMembers h
  · exact isVerdict_numberLimits h

theorem NumberRule.isVerdict_of_mem {r : NumberRule} {x : Binary64} (h : c ∈ r.checks x) :
    IsVerdict c.2 := by
  rcases List.mem_append.mp h with h | h
  · exact isVerdict_numberMembers h
  · exact isVerdict_numberLimits h

/-- Of the complaints about a text, only that of its format can ask for something. -/
theorem StringRule.isVerdict_of_mem {r : StringRule} {s : String} (h : c ∈ r.checks s) :
    IsVerdict c.2 ∨ ∃ check text, r.check = some check ∧ check.complaint s = some text ∧
      c.2 = .message text := by
  simp only [checks, List.mem_append, or_assoc] at h
  rcases h with h | h | h | h | h
  all_goals split at h
  all_goals simp only [List.not_mem_nil, List.mem_singleton] at h
  all_goals rw [h]
  · exact .inl (isVerdict_of_opens (c := 'v') (.append (by rfl) _) (by decide))
  · exact .inl (isVerdict_of_opens (c := 'v') (.append (by rfl) _) (by decide))
  · exact .inl (isVerdict_memberError _)
  · rename_i text htext
    obtain ⟨check, hcheck, hcomplaint⟩ := Option.bind_eq_some_iff.mp htext
    exact .inr ⟨check, text, hcheck, hcomplaint, rfl⟩
  · exact .inl (isVerdict_of_opens (c := 'v') (.append (.append (by rfl) _) _) (by decide))

theorem ArrayRule.isVerdict_of_mem {r : ArrayRule} {items : List Json} (h : c ∈ r.checks items) :
    IsVerdict c.2 := by
  simp only [checks, List.mem_append, or_assoc] at h
  rcases h with h | h | h
  all_goals split at h
  all_goals simp only [List.not_mem_nil, List.mem_singleton] at h
  all_goals rw [h]
  · exact isVerdict_of_opens (c := 'n') (.append (by rfl) _) (by decide)
  · exact isVerdict_of_opens (c := 'n') (.append (by rfl) _) (by decide)
  · exact isVerdict_of_opens (c := 'a') (by rfl) (by decide)

theorem ObjectRule.isVerdict_of_mem {r : ObjectRule} {ms : Entries Json} (h : c ∈ r.checks ms) :
    IsVerdict c.2 := by
  rcases List.mem_append.mp h with h | h
  all_goals split at h
  all_goals simp only [List.not_mem_nil, List.mem_singleton] at h
  all_goals rw [h]
  · exact isVerdict_of_opens (c := 'n') (.append (by rfl) _) (by decide)
  · exact isVerdict_of_opens (c := 'n') (.append (by rfl) _) (by decide)

/-! ## Where errors point -/

/-- The path leads through parts of the input to a message about the last of them, or to one that
asks for a member that the last of them does not have. A message of the first kind asks for
something only if it is among those that are said anyway. -/
inductive Points (raw : Bool) (said : String → Prop) : Field → List String → String → Prop
  | here {input : Field} {text : String} : (Asks text → said text) → Points raw said input [] text
  | lacking {x : Json} {k text : String} : x.Lacks k → Asks text →
      Points raw said (.value x) [k] text
  | through {x y : Json} {k : String} {path : List String} {text : String} : x.Part raw k y →
      Points raw said (.ofJson y) path text → Points raw said (.value x) (k :: path) text

/-- The error is in the shape of the input. -/
structure Mirrors (raw : Bool) (said : String → Prop) (e : ErrorTree) (input : Field) : Prop where
  full : e.Full
  points : ∀ path text, e.Leaf path text → Points raw said input path text

section

variable {raw : Bool} {said others : String → Prop} {input : Field} {e : ErrorTree}

theorem Points.mono (h : ∀ text, said text → others text) {path : List String} {text : String}
    (hp : Points raw said input path text) : Points raw others input path text := by
  induction hp with
  | here hsaid => exact .here fun hasks => h _ (hsaid hasks)
  | lacking hlacks hasks => exact .lacking hlacks hasks
  | through hpart _ ih => exact .through hpart ih

theorem Mirrors.mono (h : ∀ text, said text → others text) (he : Mirrors raw said e input) :
    Mirrors raw others e input :=
  ⟨he.full, fun path text hleaf => (he.points path text hleaf).mono h⟩

theorem mirrors_message {text : String} (h : Asks text → said text) :
    Mirrors raw said (.message text) input := by
  refine ⟨.message, ?_⟩
  rintro _ _ ⟨⟩
  exact .here h

theorem IsVerdict.mirrors (h : IsVerdict e) : Mirrors raw said e input := by
  cases h with
  | message hasks => exact mirrors_message fun h => absurd h hasks

/-- What an entry of a table of errors is about: a part of the input, or one that is asked for. -/
inductive Concerns (raw : Bool) (said : String → Prop) (x : Json) (k : String) :
    ErrorTree → Prop
  | part {y : Json} {e : ErrorTree} : x.Part raw k y → Mirrors raw said e (.ofJson y) →
      Concerns raw said x k e
  | lacking {text : String} : x.Lacks k → Asks text → Concerns raw said x k (.message text)

/-- A table of errors fits the input if each entry does: one about a part fits this part, and one
about what is lacking stands under a name that is not there. -/
theorem mirrors_nested {errors : ErrorMap} {x : Json} (hne : errors ≠ [])
    (h : ∀ k e, (k, e) ∈ errors → Concerns raw said x k e) :
    Mirrors raw said (.nested errors) (.value x) := by
  refine ⟨.nested hne fun k e he => ?_, ?_⟩
  · cases h k e he with
    | part _ hmirrors => exact hmirrors.full
    | lacking _ _ => exact .message
  · rintro _ text (_ | ⟨hmem, hleaf⟩)
    cases h _ _ hmem with
    | part hpart hmirrors => exact .through hpart (hmirrors.points _ _ hleaf)
    | lacking hlacks hasks =>
        cases hleaf
        exact .lacking hlacks hasks

theorem mirrors_under {k : String} {x : Json} (h : Concerns raw said x k e) :
    Mirrors raw said (.under k e) (.value x) := by
  refine mirrors_nested (List.cons_ne_nil _ _) fun k' e' hmem => ?_
  cases List.mem_singleton.mp hmem
  exact h

/-- The path of an error, but for its last key, leads to a part of the input; and so does the whole
path unless that part does not have the key. -/
theorem Points.reaches {path : List String} {k text : String}
    (h : Points raw said input (path ++ [k]) text) :
    ∃ x y, input = .value x ∧ x.Reaches raw path y ∧
      ((∃ z, y.Part raw k z) ∧ (Asks text → said text) ∨ y.Lacks k ∧ Asks text) := by
  induction path generalizing input with
  | nil =>
      cases h with
      | lacking hlacks hasks => exact ⟨_, _, rfl, .refl, .inr ⟨hlacks, hasks⟩⟩
      | @through x y _ _ _ hpart hrest =>
          generalize Field.ofJson y = last at hrest
          cases hrest with
          | here hsaid => exact ⟨_, _, rfl, .refl, .inl ⟨⟨_, hpart⟩, hsaid⟩⟩
  | cons first rest ih =>
      generalize hpath : first :: rest ++ [k] = whole at h
      cases h with
      | here _ => cases hpath
      | lacking _ _ =>
          -- a key that is asked for is the last one
          have hlength := congrArg List.length hpath
          simp at hlength
      | @through x y _ _ _ hpart hrest =>
          cases hpath
          obtain ⟨x', z, hx', hreaches, hlast⟩ := ih hrest
          rw [← Field.eq_of_ofJson hx'] at hreaches
          exact ⟨x, z, rfl, .step hpart hreaches, hlast⟩

end

/-! ## What nodes answer -/

namespace Validator

/-- The test of a format somewhere in the tree complains in these words. -/
inductive Says : Validator → String → Prop
  | here {rule : StringRule} {check : FormatCheck} {s text : String} :
      rule.check = some check → check.complaint s = some text → Says (.string rule) text
  | inside {v c : Validator} {text : String} : c ∈ v.children → Says c text → Says v text

variable {raw : Bool} {v : Validator} {input : Field} {e : ErrorTree}

/-- What is missed is not there. -/
theorem concerns_of_missing {rule : ObjectRule} {readOnly : List String} {ms : Entries Json}
    {said : String → Prop} {k : String} (h : (k, e) ∈ rule.missing readOnly ms) :
    Concerns raw said (.object ms) k e := by
  obtain ⟨name, hname, hpair⟩ := List.mem_map.mp (Entries.mem_of_mem_sorted h)
  cases hpair
  have habsent := (List.mem_filter.mp (List.mem_filter.mp hname).1).2
  refine .lacking ⟨ms, rfl, fun hk => ?_⟩ .property
  rw [Entries.has_iff.mpr hk] at habsent
  cases habsent

/-- A discriminator asks for its member, or complains about it. -/
theorem mirrors_of_select {d : Discriminator} {said : String → Prop}
    (h : d.select input = .error e) : Mirrors raw said e input := by
  unfold Discriminator.select at h
  split at h
  · rename_i ms
    split at h
    · rename_i hnone
      cases h
      exact mirrors_under (.lacking ⟨ms, rfl, Entries.get?_eq_none_iff.mp hnone⟩ .required)
    · rename_i x hx
      split at h
      · cases h
      · cases h
        refine mirrors_under (.part (.member (Entries.mem_of_get? hx)) (IsVerdict.mirrors ?_))
        exact isVerdict_of_opens (c := 'm') (.append (.append (by rfl) _) _) (by decide)
  · cases h
    exact (isVerdict_typeError _).mirrors

/-- An item that is read has a place in the input. -/
theorem part_of_read {f : Field} {xs : List Json} {i : Nat} {x : Json}
    (hread : ArrayRule.read f raw = some xs) (hx : xs[i]? = some x) :
    ∃ y, f = .value y ∧ y.Part raw (toString i) x := by
  unfold ArrayRule.read at hread
  split at hread
  · cases hread
    exact ⟨_, rfl, .item hx⟩
  · split at hread
    · rename_i hraw
      cases hread
      exact ⟨_, rfl, .piece hraw hx⟩
    · cases hread
  · cases hread

/-- Where no default stands in, what fails for a declared property is a member. -/
theorem member_of_declared {w : Validator} {member : Option Json}
    (hd : w.common.default? = none) (h : declaredOutcome w member raw = .error e) :
    ∃ x, member = some x ∧ (IsVerdict e ∨ w.validate (.ofJson x) raw = .error e) := by
  unfold declaredOutcome at h
  cases member with
  | none =>
      split at h
      · cases h
      · rw [Field.ofOption, validate_absent_eq_absent hd] at h
        cases h
  | some x =>
      refine ⟨x, rfl, ?_⟩
      split at h
      · cases h
        exact .inl (isVerdict_of_opens (c := 'p') (by rfl) (by decide))
      · exact .inr h

theorem verdict_or_validate_of_additional {additional : Additional Validator} {x : Json}
    (h : validateAdditional additional x raw = .error e) :
    IsVerdict e ∨ ∃ w, additional = .schema w ∧ w.validate (.ofJson x) raw = .error e := by
  unfold validateAdditional at h
  split at h
  · cases h
  · cases h
    exact .inl (isVerdict_of_opens (c := 'a') (by rfl) (by decide))
  · exact .inr ⟨_, rfl, h⟩

/-- A failure is that of a member, given that the trees below answer in the shape of theirs. -/
theorem concerns_of_failure {rule : ObjectRule} {properties : Entries Validator}
    {additional : Additional Validator} {ms : Entries Json} {said : String → Prop} {k : String}
    (hdefault : ∀ w ∈ (object rule properties additional).children, w.common.default? = none)
    (hbelow : ∀ w ∈ (object rule properties additional).children, ∀ {x e},
      w.validate (.ofJson x) raw = .error e → Mirrors raw said e (.ofJson x))
    (h : (k, .error e) ∈ memberOutcomes properties additional ms raw) :
    Concerns raw said (.object ms) k e := by
  rcases mem_memberOutcomes.mp h with ⟨⟨name, w⟩, hp, hpair⟩ | ⟨m, hm, hpair⟩
  · obtain ⟨rfl, houtcome⟩ := Prod.mk.inj hpair
    have hchild : w ∈ (object rule properties additional).children := mem_children_of_property hp
    obtain ⟨x, hx, hfails⟩ := member_of_declared (hdefault w hchild) houtcome
    refine .part (.member (Entries.mem_of_get? hx)) ?_
    rcases hfails with hverdict | hfails
    · exact hverdict.mirrors
    · exact hbelow w hchild hfails
  · obtain ⟨rfl, houtcome⟩ := Prod.mk.inj hpair
    refine .part (.member (ObjectRule.mem_of_mem_leftovers hm)) ?_
    rcases verdict_or_validate_of_additional houtcome with hverdict | ⟨w, rfl, hfails⟩
    · exact hverdict.mirrors
    · exact hbelow w List.mem_cons_self hfails

/-- Without defaults, errors are in the shape of the input. -/
theorem mirrors_of_validate (hv : v.Everywhere fun n => n.common.default? = none)
    (h : v.validate input raw = .error e) : Mirrors raw v.Says e input := by
  induction v using induct generalizing input e with
  | node v ih =>
    have hstays : v.common.substitute input = input :=
      Common.substitute_of_default_eq_none hv.here input
    have hbelow : ∀ w ∈ v.children, ∀ {x e}, w.validate (.ofJson x) raw = .error e →
        Mirrors raw v.Says e (.ofJson x) :=
      fun w hw x e hfails => (ih w hw (hv.child hw) hfails).mono fun text => .inside hw
    cases rejected_of_validate h with
    | wrongType _ => exact (isVerdict_typeError _).mirrors
    | integer _ he => exact (IntegerRule.isVerdict_of_mem he).mirrors
    | number _ he => exact (NumberRule.isVerdict_of_mem he).mirrors
    | string _ he =>
        rcases StringRule.isVerdict_of_mem he with hverdict | ⟨check, text, hcheck, hsays, rfl⟩
        · exact hverdict.mirrors
        · exact mirrors_message fun _ => .here hcheck hsays
    | item hread hx hfails =>
        obtain ⟨y, hy, hpart⟩ := part_of_read hread hx
        rw [← hstays]
        refine hy ▸ mirrors_under (.part hpart ?_)
        exact hbelow _ (List.mem_singleton_self _) hfails
    | array _ _ he => exact (ArrayRule.isVerdict_of_mem he).mirrors
    | missing hms hne =>
        rw [← hstays]
        exact hms ▸ mirrors_nested hne fun k e he => concerns_of_missing he
    | members hms hne =>
        rw [← hstays]
        refine hms ▸ mirrors_nested hne fun k e he => ?_
        exact concerns_of_failure (fun w hw => (hv.child hw).here) hbelow
          (ObjectRule.mem_of_mem_failures he)
    | object _ he => exact (ObjectRule.isVerdict_of_mem he).mirrors
    | failed _ => exact (isVerdict_failed _).mirrors
    | unselected _ hselect =>
        rw [hstays] at hselect
        exact mirrors_of_select hselect

/-- Where no default can stand in, no table of errors is empty, and every path of errors leads
through parts of the input, to a part of it or to a member that it does not have. The latter is
asked for; other messages do not ask, unless the test of a format complains in these words. -/
theorem error_mirrors (hv : v.Everywhere fun n => n.common.default? = none)
    (h : v.validate input raw = .error e) :
    e.Full ∧ ∀ path k text, e.Leaf (path ++ [k]) text →
      ∃ x y, input = .value x ∧ x.Reaches raw path y ∧
        ((∃ z, y.Part raw k z) ∧ (Asks text → v.Says text) ∨ y.Lacks k ∧ Asks text) := by
  have hmirrors := mirrors_of_validate hv h
  exact ⟨hmirrors.full, fun path k text hleaf => (hmirrors.points _ _ hleaf).reaches⟩

/-! ## An order and a note -/

/-- An order has an owner with a name, and marks in a row. -/
def order : Validator :=
  .object {} [("marks", .array {} (.boolean {})),
    ("owner", .object { required := ["name"] } [("name", .string {})] .deny)] .allow

/-- An order without a name, and with a mark that is none. -/
def orderSent : Json :=
  .object [("owner", .object [("id", .string "7")]), ("marks", .string "true,maybe")]

/-- What is wrong with it. -/
def orderError : ErrorTree :=
  .nested [("marks", .under "1" (.message "value should be type of bool")),
    ("owner", .under "name" (.message "required property"))]

/-- The marks are a text, and the second one in it is reported. -/
theorem orderError_mirrors :
    order.validate (.value orderSent) true = .error orderError ∧
      orderError.Leaf (["marks"] ++ ["1"]) "value should be type of bool" ∧
      orderError.Full ∧
      ∃ x y, Field.value orderSent = .value x ∧ x.Reaches true ["marks"] y ∧
        ((∃ z, y.Part true "1" z) ∧ (Asks "value should be type of bool" →
            order.Says "value should be type of bool") ∨
          y.Lacks "1" ∧ Asks "value should be type of bool") := by
  have hrejected : order.validate (.value orderSent) true = .error orderError := by cbv
  have hplain : order.Everywhere fun n => n.common.default? = none := by
    refine .node rfl fun c hc => ?_
    rcases List.mem_cons.mp hc with rfl | hc
    · refine .node rfl fun c hc => ?_
      rw [List.mem_singleton.mp hc]
      exact .leaf rfl rfl
    · rw [List.mem_singleton.mp hc]
      refine .node rfl fun c hc => ?_
      rw [List.mem_singleton.mp hc]
      exact .leaf rfl rfl
  have hleaf : orderError.Leaf (["marks"] ++ ["1"]) "value should be type of bool" :=
    .under List.mem_cons_self (.under List.mem_cons_self .here)
  obtain ⟨hfull, hpaths⟩ := error_mirrors hplain hrejected
  exact ⟨hrejected, hleaf, hfull, hpaths _ _ _ hleaf⟩

/-- A note in a format whose test is never content. -/
def note : Validator :=
  .object {} [("note", .string
    { format := some "kept", check := some ⟨"kept", fun _ => some "is required"⟩ })] .allow

/-- A note. -/
def noteSent : Json := .object [("note", .string "x")]

/-- The test asks for a note, though it is there. -/
theorem note_asksAnyway :
    (note.Everywhere fun n => n.common.default? = none) ∧
      note.validate (.value noteSent) false =
        .error (.under "note" (.message "is required")) ∧
      (ErrorTree.under "note" (.message "is required")).Leaf ([] ++ ["note"]) "is required" ∧
      ¬ ∃ y, noteSent.Reaches false [] y ∧
        ((∃ z, y.Part false "note" z) ∧ ¬ Asks "is required" ∨
          y.Lacks "note" ∧ Asks "is required") := by
  refine ⟨.node rfl fun c hc => ?_, by cbv, .under List.mem_cons_self .here, ?_⟩
  · rw [List.mem_singleton.mp hc]
    exact .leaf rfl rfl
  · rintro ⟨y, hreaches, ⟨-, hasks⟩ | ⟨⟨ms, rfl, hk⟩, -⟩⟩
    · exact hasks .required
    · cases hreaches
      exact hk List.mem_cons_self

end Validator

end SchemaGate
