import Mathlib
import SchemaGate.Proofs.Json.Equality
import SchemaGate.Proofs.Schema.Rejected
import SchemaGate.Proofs.Schema.Rules

/-!
# What an array node answers

An array node validates items in order and stops at the first that is rejected. Otherwise it judges
the outputs: by how many there are, and then by whether two of them are equal. What was sent does
not count for that, so texts that are read as one value are repetitions.

* `ArrayRule.read_eq_some_iff` says what the items are: those of an array, or the parts of a raw
  text between its commas;
* `Validator.ArrayAnswer` is the answer to items without an order of evaluation, and
  `Validator.arrayAnswer_iff` says that it is the one that the node gives.
-/

namespace SchemaGate

/-! ## Parts of a text -/

namespace Address

/-- The splitting of reference texts is the library's, so that its lemmas on joining apply. -/
theorem splitOn_eq (mark : Char) (cs : List Char) : splitOn mark cs = cs.splitOn mark := by
  induction cs with
  | nil => rfl
  | cons c rest ih =>
      rw [splitOn, List.splitOn_cons_eq_if_modifyHead, ih]
      by_cases hc : c = mark
      · simp only [hc, if_true, beq_self_eq_true]
      · simp only [hc, beq_iff_eq, if_false]
        cases hrest : rest.splitOn mark with
        | nil => exact absurd hrest (List.splitOn_ne_nil mark rest)
        | cons part parts => rfl

/-- What stands between marks has no mark in it. -/
theorem not_mem_of_mem_splitOn {mark : Char} {cs part : List Char} (h : part ∈ splitOn mark cs) :
    mark ∉ part := by
  induction cs generalizing part with
  | nil =>
      cases List.mem_singleton.mp h
      exact List.not_mem_nil
  | cons c rest ih =>
      rw [splitOn] at h
      split at h
      · rcases List.mem_cons.mp h with rfl | h
        · exact List.not_mem_nil
        · exact ih h
      · rename_i hc
        split at h
        · rw [List.mem_singleton.mp h, List.mem_singleton]
          exact Ne.symm hc
        · rename_i first parts hsplit
          rw [hsplit] at ih
          rcases List.mem_cons.mp h with rfl | h
          · have hfirst := ih List.mem_cons_self
            simp only [List.mem_cons, hfirst, or_false]
            exact Ne.symm hc
          · exact ih (List.mem_cons_of_mem _ h)

end Address

namespace ArrayRule

variable {ps : List String}

theorem splitOn_intercalate (hcomma : ∀ p ∈ ps, ',' ∉ p.toList) (hps : ps ≠ []) :
    Address.splitOn ',' (String.intercalate "," ps).toList = ps.map String.toList := by
  have hchars : (String.intercalate "," ps).toList = [','].intercalate (ps.map String.toList) :=
    String.toList_intercalate
  have hmarks : ∀ cs ∈ ps.map String.toList, ',' ∉ cs := List.forall_mem_map.mpr hcomma
  rw [Address.splitOn_eq, hchars, List.splitOn_intercalate ',' hmarks (by simpa using hps)]

/-- Between the commas of joined texts stand the texts. -/
theorem splitRaw_intercalate (hcomma : ∀ p ∈ ps, ',' ∉ p.toList) (hps : ps ≠ [""]) :
    splitRaw (String.intercalate "," ps) = ps.map .string := by
  by_cases hnil : ps = []
  · rw [hnil]
    rfl
  · have hsplit := splitOn_intercalate hcomma hnil
    have hsome : (String.intercalate "," ps).isEmpty = false := by
      rw [← Bool.not_eq_true, String.isEmpty_iff]
      intro hempty
      -- the empty text has one part, and only the text without a character is joined to it
      rw [hempty] at hsplit
      have hone : [""] = ps := by
        simpa [Address.splitOn] using congrArg (List.map String.ofList) hsplit
      exact hps hone.symm
    rw [splitRaw, hsome, hsplit]
    simp

/-- Every text is joined from texts without commas, which then are its parts. -/
theorem exists_splitRaw (s : String) : ∃ ps : List String, String.intercalate "," ps = s ∧
    (∀ p ∈ ps, ',' ∉ p.toList) ∧ ps ≠ [""] ∧ splitRaw s = ps.map .string := by
  by_cases hs : s = ""
  · subst hs
    exact ⟨[], rfl, by simp, by simp, rfl⟩
  · have hjoin : String.intercalate "," ((Address.splitOn ',' s.toList).map String.ofList) = s := by
      rw [← String.toList_inj, String.toList_intercalate, Address.splitOn_eq, List.map_map]
      have hid : String.toList ∘ String.ofList = id := funext fun cs => String.toList_ofList
      rw [hid, List.map_id]
      exact List.intercalate_splitOn ','
    refine ⟨_, hjoin, List.forall_mem_map.mpr fun cs hcs => ?_, fun hone => ?_, ?_⟩
    · rw [String.toList_ofList]
      exact Address.not_mem_of_mem_splitOn hcs
    · rw [hone] at hjoin
      exact hs hjoin.symm
    · have hsome : s.isEmpty = false := by rwa [← Bool.not_eq_true, String.isEmpty_iff]
      rw [splitRaw, hsome, List.map_map]
      rfl

/-! ## What is in an array -/

/-- The input is an array of these values, or a raw text that joins texts by commas. Nothing is
joined to the empty text, so that no text stands for one text without a character. -/
inductive Lists (raw : Bool) : Field → List Json → Prop
  | items (xs : List Json) : Lists raw (.value (.array xs)) xs
  | parts {ps : List String} : raw = true → (∀ p ∈ ps, ',' ∉ p.toList) → ps ≠ [""] →
      Lists raw (.text (String.intercalate "," ps)) (ps.map .string)

/-- The reader of arrays takes exactly the inputs that are lists in this sense, and takes them for
what they list. -/
theorem read_eq_some_iff {f : Field} {raw : Bool} {xs : List Json} :
    read f raw = some xs ↔ Lists raw f xs := by
  constructor
  · intro h
    unfold read at h
    split at h
    · cases h
      exact .items xs
    · rename_i s
      split at h
      · rename_i hraw
        cases h
        obtain ⟨ps, rfl, hcomma, hps, hsplit⟩ := exists_splitRaw s
        rw [hsplit]
        exact .parts hraw hcomma hps
      · cases h
    · cases h
  · intro h
    cases h with
    | items => rfl
    | parts hraw hcomma hps =>
        subst hraw
        exact congrArg some (splitRaw_intercalate hcomma hps)

theorem Lists.isGiven {f : Field} {raw : Bool} {xs : List Json} (h : Lists raw f xs) :
    f.IsGiven := by
  cases h with
  | items => exact ⟨rfl, rfl⟩
  | parts => exact ⟨rfl, rfl⟩

/-! ## The outputs as a whole -/

/-- Two outputs at different places are equal. -/
def Repeats (ys : List Json) : Prop :=
  ∃ (i j : Nat) (x y : Json), i < j ∧ ys[i]? = some x ∧ ys[j]? = some y ∧ x.Equals y

/-- The check for distinct items fails exactly where two places hold equal ones. -/
theorem allDistinct_iff_not_repeats {ys : List Json} :
    allDistinct ys = true ↔ ¬ Repeats ys := by
  rw [allDistinct_iff, List.pairwise_iff_getElem]
  constructor
  · rintro h ⟨i, j, x, y, hij, hx, hy, heq⟩
    obtain ⟨hi, rfl⟩ := List.getElem?_eq_some_iff.mp hx
    obtain ⟨hj, rfl⟩ := List.getElem?_eq_some_iff.mp hy
    have hdiffer := h i j hi hj hij
    rw [Json.same_iff_equals.mpr heq] at hdiffer
    cases hdiffer
  · intro h i j hi hj hij
    rw [← Bool.not_eq_true, Json.same_iff_equals]
    intro heq
    exact h ⟨i, j, _, _, hij, List.getElem?_eq_getElem hi, List.getElem?_eq_getElem hj, heq⟩

/-- The verdict on outputs. Too few count before too many, and both before repetitions. -/
inductive Verdict (r : ArrayRule) (ys : List Json) : Outcome → Prop
  | few {k : Nat} : r.minItems = some k → ys.length < k →
      Verdict r ys (.error (.message ("number of items must be more than " ++ toString k)))
  | many {k : Nat} : (∀ m ∈ r.minItems, m ≤ ys.length) → r.maxItems = some k → k < ys.length →
      Verdict r ys (.error (.message ("number of items must be less than " ++ toString k)))
  | repeated : (∀ m ∈ r.minItems, m ≤ ys.length) → (∀ k ∈ r.maxItems, ys.length ≤ k) →
      r.uniqueItems = true → Repeats ys →
      Verdict r ys (.error (.message "all items must be unique"))
  | admitted : (∀ m ∈ r.minItems, m ≤ ys.length) → (∀ k ∈ r.maxItems, ys.length ≤ k) →
      (r.uniqueItems = true → ¬ Repeats ys) → Verdict r ys (.ok (.value (.array ys)))

/-- The checks of an array come to the verdict, which says the first complaint that there is a
reason for. -/
theorem checked_eq_of_verdict {r : ArrayRule} {ys : List Json} {answer : Outcome}
    (h : r.Verdict ys answer) : checked (r.checks ys) (.value (.array ys)) = answer := by
  cases h with
  | few hk hlt => simp [checked, checks, checkAll, hk, hlt.not_ge]
  | many hmin hk hlt =>
      cases hlow : r.minItems with
      | none => simp [checked, checks, checkAll, hlow, hk, hlt.not_ge]
      | some m => simp [checked, checks, checkAll, hlow, hk, hlt.not_ge, hmin m hlow]
  | repeated hmin hmax hunique hrepeats =>
      have hequal : allDistinct ys = false := by
        rw [← Bool.not_eq_true, allDistinct_iff_not_repeats]
        exact not_not_intro hrepeats
      cases hlow : r.minItems <;> cases hhigh : r.maxItems <;>
        simp_all [checked, checks, checkAll]
  | admitted hmin hmax hunique =>
      have hadmits : ∀ c ∈ r.checks ys, c.1 = true := by
        rw [checks_hold_iff]
        refine ⟨hmin, hmax, fun hu => ?_⟩
        rw [← allDistinct_iff, allDistinct_iff_not_repeats]
        exact hunique hu
      exact checked_eq_ok_iff.mpr ⟨hadmits, rfl⟩

/-- Every array has a verdict. -/
theorem exists_verdict (r : ArrayRule) (ys : List Json) : ∃ answer, r.Verdict ys answer := by
  by_cases hmin : ∀ m ∈ r.minItems, m ≤ ys.length
  · by_cases hmax : ∀ k ∈ r.maxItems, ys.length ≤ k
    · by_cases hunique : r.uniqueItems = true → ¬ Repeats ys
      · exact ⟨_, .admitted hmin hmax hunique⟩
      · push Not at hunique
        exact ⟨_, .repeated hmin hmax hunique.1 hunique.2⟩
    · push Not at hmax
      obtain ⟨k, hk, hlt⟩ := hmax
      exact ⟨_, .many hmin hk hlt⟩
  · push Not at hmin
    obtain ⟨k, hk, hlt⟩ := hmin
    exact ⟨_, .few hk hlt⟩

/-- The checks come to the verdict, and there is no other one. -/
theorem verdict_iff {r : ArrayRule} {ys : List Json} {answer : Outcome} :
    r.Verdict ys answer ↔ checked (r.checks ys) (.value (.array ys)) = answer := by
  refine ⟨checked_eq_of_verdict, ?_⟩
  rintro rfl
  obtain ⟨answer, h⟩ := r.exists_verdict ys
  rwa [checked_eq_of_verdict h]

end ArrayRule

namespace Validator

/-! ## The answer -/

/-- The value that an accepted item has in the output. Where nothing comes out there is null. -/
def ItemOutput (items : Validator) (raw : Bool) (x y : Json) : Prop :=
  ∃ f, items.validate (.ofJson x) raw = .ok f ∧
    (f.toJson? = some y ∨ (f = .absent ∧ y = .null))

/-- The answer to these items. -/
inductive ArrayAnswer (rule : ArrayRule) (items : Validator) (raw : Bool) (xs : List Json) :
    Outcome → Prop
  | rejected {i : Nat} {e : ErrorTree} :
      ArrayRule.FirstFailure (fun x => items.validate (.ofJson x) raw) xs i e →
      ArrayAnswer rule items raw xs (.error (.nested [(toString i, e)]))
  | judged {ys : List Json} {answer : Outcome} : List.Forall₂ (ItemOutput items raw) xs ys →
      rule.Verdict ys answer → ArrayAnswer rule items raw xs answer

variable {rule : ArrayRule} {items : Validator} {raw : Bool} {xs ys : List Json} {answer : Outcome}

theorem itemOutput_iff {x y : Json} : ItemOutput items raw x y ↔
    ∃ f, items.validate (.ofJson x) raw = .ok f ∧ f.toJson?.getD .null = y := by
  refine exists_congr fun f => and_congr_right fun _ => ?_
  cases f <;> simp [Field.toJson?, eq_comm]

/-- An array node answers what there is to answer to its items, and nothing else. -/
theorem arrayAnswer_iff {input : Field} (h : ArrayRule.Lists raw input xs) :
    ArrayAnswer rule items raw xs answer ↔ (array rule items).validate input raw = answer := by
  have hread : ArrayRule.read input raw = some xs := ArrayRule.read_eq_some_iff.mpr h
  have hcollect : ∀ ys, ArrayRule.collect (fun x => items.validate (.ofJson x) raw) 0 xs = .ok ys ↔
      List.Forall₂ (ItemOutput items raw) xs ys := by
    intro ys
    have houtput : ItemOutput items raw = fun x y =>
        ∃ f, items.validate (.ofJson x) raw = .ok f ∧ f.toJson?.getD .null = y :=
      funext₂ fun x y => propext itemOutput_iff
    rw [ArrayRule.collect_eq_ok_iff, houtput]
  rw [validate_array_eq, Common.settled_eq_of_isGiven h.isGiven, ArrayRule.examine, hread]
  dsimp only
  constructor
  · intro hanswer
    cases hanswer with
    | @rejected i e hfirst =>
        rw [ArrayRule.collect_eq_error_iff.mpr ⟨i, e, hfirst, rfl⟩, Nat.zero_add]
        rfl
    | judged hys hverdict =>
        rw [(hcollect _).mpr hys]
        exact ArrayRule.verdict_iff.mp hverdict
  · rintro rfl
    split
    · rename_i herror
      obtain ⟨i, e, hfirst, rfl⟩ := ArrayRule.collect_eq_error_iff.mp herror
      rw [Nat.zero_add]
      exact .rejected hfirst
    · rename_i ys hok
      exact .judged ((hcollect ys).mp hok) (ArrayRule.verdict_iff.mpr rfl)

/-! ## Rooms -/

/-- Two or three rooms, each of them once. -/
def roomRule : ArrayRule := { minItems := some 2, maxItems := some 3, uniqueItems := true }

/-- Of four rooms the second is no number. The two texts of the other list are one number. -/
theorem rooms_answered :
    ((array roomRule (.integer {})).validate (.text "11,x,12,y") true =
        .error (.nested [("1", typeError "int")]) ∧
      ArrayAnswer roomRule (.integer {}) true
        [.string "11", .string "x", .string "12", .string "y"]
        (.error (.nested [("1", typeError "int")]))) ∧
    (array roomRule (.integer {})).validate (.text "11, 011") true =
        .error (.message "all items must be unique") ∧
      ArrayAnswer roomRule (.integer {}) true [.string "11", .string " 011"]
        (.error (.message "all items must be unique")) := by
  have hrejected : (array roomRule (.integer {})).validate (.text "11,x,12,y") true =
      .error (.nested [("1", typeError "int")]) := by cbv
  have hrepeated : (array roomRule (.integer {})).validate (.text "11, 011") true =
      .error (.message "all items must be unique") := by cbv
  refine ⟨⟨hrejected, ?_⟩, hrepeated, ?_⟩
  · exact (arrayAnswer_iff (ArrayRule.read_eq_some_iff.mp rfl)).mpr hrejected
  · exact (arrayAnswer_iff (ArrayRule.read_eq_some_iff.mp rfl)).mpr hrepeated

end Validator

end SchemaGate
