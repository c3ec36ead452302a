import Mathlib
import SchemaGate.Proofs.Schema.Relaxation

/-!
# Raw inputs

A raw run may read a text as a number, a truth value or a list of items. It touches nothing else:
a text is read only where a typed run finds a value of the wrong kind. So a raw run accepts what a
typed run accepts, and with the same output (`Validator.validate_raw_of_typed`).

The trees are those in which `oneOf` and `anyOf` have discriminators
(`Validator.IsDiscriminated`). Without one, a branch that is newly accepted by reading a text
would be counted, or go first.

`Validator.AcceptsRaw` is what the induction carries. There is one lemma for each reader
(`IntegerRule.read_raw` and the like), and one for each node that has children
(`Validator.acceptsRaw_array`, `Validator.acceptsRaw_object`, `Validator.acceptsRaw_oneOf`,
`Validator.acceptsRaw_anyOf`, `Validator.acceptsRaw_allOf`).
-/

namespace SchemaGate

/-! ## Readers -/

theorem IntegerRule.read_raw {f : Field} {n : WideInt} (h : read f false = some n) :
    read f true = some n := by
  cases f with
  | value v =>
      cases v with
      | number k =>
          cases k with
          | int i => exact h
          | float x => cases h
      | _ => cases h
  | _ => cases h

theorem NumberRule.read_raw {f : Field} {x : Binary64} (h : read f false = some x) :
    read f true = some x := by
  cases f with
  | value v =>
      cases v with
      | number k => exact h
      | _ => cases h
  | _ => cases h

theorem Common.readBool_raw {f : Field} {b : Bool} (h : readBool f false = some b) :
    readBool f true = some b := by
  cases f with
  | value v =>
      cases v with
      | bool c => exact h
      | _ => cases h
  | _ => cases h

theorem ArrayRule.read_raw {f : Field} {xs : List Json} (h : read f false = some xs) :
    read f true = some xs := by
  cases f with
  | value v =>
      cases v with
      | array ys => exact h
      | _ => cases h
  | _ => cases h

namespace Validator

/-- A choice between branches is made by a discriminator. -/
def IsDiscriminated : Validator → Prop
  | oneOf _ _ d => d.isSome = true
  | anyOf _ _ d => d.isSome = true
  | _ => True

/-- What a typed run accepts, a raw run accepts with the same output. -/
def AcceptsRaw (v : Validator) : Prop :=
  ∀ input out : Field, v.validate input false = .ok out → v.validate input true = .ok out

/-! ## Scalars -/

theorem acceptsRaw_integer (rule : IntegerRule) : (integer rule).AcceptsRaw := by
  intro input out h
  rw [validate_integer_eq] at h ⊢
  apply Common.settled_mono _ h
  intro f g hex
  obtain ⟨n, hread, hchecks, hg⟩ := IntegerRule.examine_eq_ok_iff.mp hex
  have hraw := IntegerRule.read_raw hread
  exact IntegerRule.examine_eq_ok_iff.mpr ⟨n, hraw, hchecks, hg⟩

theorem acceptsRaw_number (rule : NumberRule) : (number rule).AcceptsRaw := by
  intro input out h
  rw [validate_number_eq] at h ⊢
  apply Common.settled_mono _ h
  intro f g hex
  obtain ⟨x, hread, hchecks, hg⟩ := NumberRule.examine_eq_ok_iff.mp hex
  have hraw := NumberRule.read_raw hread
  exact NumberRule.examine_eq_ok_iff.mpr ⟨x, hraw, hchecks, hg⟩

theorem acceptsRaw_string (rule : StringRule) : (string rule).AcceptsRaw := by
  intro input out h
  rw [validate_string_eq] at h ⊢
  exact h

theorem acceptsRaw_boolean (c : Common) : (boolean c).AcceptsRaw := by
  intro input out h
  rw [validate_boolean_eq] at h ⊢
  apply Common.settled_mono _ h
  intro f g hex
  obtain ⟨b, hread, hg⟩ := Common.examineBool_eq_ok_iff.mp hex
  have hraw := Common.readBool_raw hread
  exact Common.examineBool_eq_ok_iff.mpr ⟨b, hraw, hg⟩

/-! ## Containers -/

/-- An accepted array is the same list in a raw run, with items that are accepted in turn. -/
theorem acceptsRaw_array (rule : ArrayRule) {items : Validator} (hitems : items.AcceptsRaw) :
    (array rule items).AcceptsRaw := by
  intro input out h
  rw [validate_array_eq] at h ⊢
  apply Common.settled_mono _ h
  intro f g hex
  obtain ⟨xs, ys, hread, hys, hchecks, hg⟩ := ArrayRule.examine_eq_ok_iff.mp hex
  have hraw := ArrayRule.read_raw hread
  have hys' : ArrayRule.collect (fun x => items.validate (.ofJson x) true) 0 xs = .ok ys := by
    rw [ArrayRule.collect_eq_ok_iff] at hys ⊢
    apply hys.imp
    intro x y hxy
    obtain ⟨o, ho, hy⟩ := hxy
    exact ⟨o, hitems _ _ ho, hy⟩
  exact ArrayRule.examine_eq_ok_iff.mpr ⟨xs, ys, hraw, hys', hchecks, hg⟩

variable {properties : Entries Validator} {additional : Additional Validator}

theorem AcceptsRaw.declaredOutcome {v : Validator} (hv : v.AcceptsRaw) {member : Option Json}
    {f : Field} (h : v.declaredOutcome member false = .ok f) :
    v.declaredOutcome member true = .ok f := by
  rw [declaredOutcome_eq_ok_iff] at h ⊢
  rcases h with hreadOnly | ⟨hwritable, hval⟩
  · exact .inl hreadOnly
  · exact .inr ⟨hwritable, hv _ _ hval⟩

theorem validateAdditional_raw (hadditional : ∀ s, additional = .schema s → s.AcceptsRaw)
    {x : Json} {f : Field} (h : validateAdditional additional x false = .ok f) :
    validateAdditional additional x true = .ok f := by
  rw [validateAdditional_eq_ok_iff] at h ⊢
  rcases h with hallowed | ⟨s, hs, hval⟩
  · exact .inl hallowed
  · exact .inr ⟨s, hs, hadditional s hs _ _ hval⟩

/-- Where every outcome of a typed run is an output, a raw run has the same outcomes. -/
theorem memberOutcomes_raw (hproperties : ∀ p ∈ properties, p.2.AcceptsRaw)
    (hadditional : ∀ s, additional = .schema s → s.AcceptsRaw) {ms : Entries Json}
    (hok : ∀ e ∈ memberOutcomes properties additional ms false, ∃ f, e.2 = .ok f) :
    memberOutcomes properties additional ms true =
      memberOutcomes properties additional ms false := by
  rw [memberOutcomes, List.forall_mem_append, List.forall_mem_map, List.forall_mem_map] at hok
  obtain ⟨hdeclared, hothers⟩ := hok
  rw [memberOutcomes, memberOutcomes]
  congr 1
  · apply List.map_congr_left
    intro p hp
    obtain ⟨f, hf⟩ := hdeclared p hp
    have hraw := (hproperties p hp).declaredOutcome hf
    rw [hraw]
    exact congrArg (Prod.mk p.1) hf.symm
  · apply List.map_congr_left
    intro m hm
    obtain ⟨f, hf⟩ := hothers m hm
    have hraw := validateAdditional_raw hadditional hf
    rw [hraw]
    exact congrArg (Prod.mk m.1) hf.symm

/-- The members of an accepted object are accepted in a raw run, one by one. -/
theorem acceptsRaw_object (rule : ObjectRule) (hproperties : ∀ p ∈ properties, p.2.AcceptsRaw)
    (hadditional : ∀ s, additional = .schema s → s.AcceptsRaw) :
    (object rule properties additional).AcceptsRaw := by
  intro input out h
  rw [validate_object_eq] at h ⊢
  apply Common.settled_mono _ h
  intro f g hex
  obtain ⟨ms, hms, hrequired, hok, hchecks, hg⟩ := examineObject_eq_ok_iff.mp hex
  have hsame := memberOutcomes_raw hproperties hadditional hok
  rw [← hsame] at hok hchecks hg
  exact examineObject_eq_ok_iff.mpr ⟨ms, hms, hrequired, hok, hchecks, hg⟩

/-! ## Combinators -/

variable {c : Common} {branches : List Validator}

/-- The branch is picked by the input alone, so a raw run asks the same one. -/
theorem dispatch_raw (hbranches : ∀ b ∈ branches, b.AcceptsRaw) {d : Discriminator} {f g : Field}
    {keyword : String} (h : dispatch branches d f false keyword = .ok g) :
    dispatch branches d f true keyword = .ok g := by
  obtain ⟨index, b, hselect, hb, hval⟩ := dispatch_eq_ok_iff.mp h
  have hraw := hbranches b (List.mem_of_getElem? hb) _ _ hval
  exact dispatch_eq_ok_iff.mpr ⟨index, b, hselect, hb, hraw⟩

theorem acceptsRaw_oneOf (hbranches : ∀ b ∈ branches, b.AcceptsRaw) (d : Discriminator) :
    (oneOf c branches (some d)).AcceptsRaw := by
  intro input out h
  rw [validate_oneOf_eq] at h ⊢
  apply Combinator.settled_mono _ h
  intro f g hex
  exact dispatch_raw hbranches hex

theorem acceptsRaw_anyOf (hbranches : ∀ b ∈ branches, b.AcceptsRaw) (d : Discriminator) :
    (anyOf c branches (some d)).AcceptsRaw := by
  intro input out h
  rw [validate_anyOf_eq] at h ⊢
  apply Combinator.settled_mono _ h
  intro f g hex
  exact dispatch_raw hbranches hex

/-- Branches that all accept still do, with the outputs that are merged. -/
theorem acceptsRaw_allOf (hbranches : ∀ b ∈ branches, b.AcceptsRaw) :
    (allOf c branches).AcceptsRaw := by
  intro input out h
  rw [validate_allOf_eq] at h ⊢
  apply Combinator.settled_mono _ h
  intro f g hex
  obtain ⟨fs, hfs, hmerge⟩ := Combinator.everyOne_eq_ok_iff.mp hex
  -- all branches accept, so each gives the raw run the output that it gave the typed one
  have hsame : (branches.map fun b => b.validate f true) =
      branches.map fun b => b.validate f false := by
    apply List.map_congr_left
    intro b hb
    have hmem : b.validate f false ∈ fs.map .ok :=
      hfs ▸ List.mem_map_of_mem (f := fun v => v.validate f false) hb
    obtain ⟨o, -, ho⟩ := List.mem_map.mp hmem
    rw [← ho]
    exact hbranches b hb _ _ ho.symm
  exact Combinator.everyOne_eq_ok_iff.mpr ⟨fs, hsame.trans hfs, hmerge⟩

/-! ## Whole trees -/

/-- What a tree accepts of typed inputs it accepts of raw ones, with exactly the same output. -/
theorem validate_raw_of_typed {v : Validator} (hv : v.Everywhere IsDiscriminated)
    {input out : Field} (h : v.validate input false = .ok out) :
    v.validate input true = .ok out := by
  have hraw : v.AcceptsRaw := by
    clear h
    induction v using induct with
    | node v ih =>
      have hchildren : ∀ c ∈ v.children, c.AcceptsRaw := fun c hc => ih c hc (hv.child hc)
      cases v with
      | integer rule => exact acceptsRaw_integer rule
      | number rule => exact acceptsRaw_number rule
      | string rule => exact acceptsRaw_string rule
      | boolean c => exact acceptsRaw_boolean c
      | array rule items => exact acceptsRaw_array rule (hchildren items List.mem_cons_self)
      | object rule properties additional =>
          apply acceptsRaw_object rule
          · intro p hp
            exact hchildren p.2 (mem_children_of_property hp)
          · intro s hs
            exact hchildren s (mem_children_object_iff.mpr (.inl hs))
      | oneOf c branches discriminator =>
          obtain ⟨d, rfl⟩ := Option.isSome_iff_exists.mp hv.here
          exact acceptsRaw_oneOf hchildren d
      | anyOf c branches discriminator =>
          obtain ⟨d, rfl⟩ := Option.isSome_iff_exists.mp hv.here
          exact acceptsRaw_anyOf hchildren d
      | allOf c branches => exact acceptsRaw_allOf hchildren
  exact hraw input out h

/-! ## A booking -/

/-- A stay in a hotel: it has rooms by number, and is for three nights unless it says otherwise. -/
def hotelStay : Validator :=
  .object { required := ["kind", "rooms"] }
    [("kind", .string {}),
      ("nights", .integer
        { common := { default? := some (.number (.int ⟨3, by decide, by decide⟩)) } }),
      ("rooms", .array { minItems := some 1 } (.integer {}))]
    .allow

/-- A stay on a camping ground. -/
def campStay : Validator := .object {} [("kind", .string {}), ("tent", .boolean {})] .allow

/-- A stay of one of the two kinds, with a note. -/
def booking : Validator :=
  .allOf {} [
    .object {} [("note", .string { maxLength := some 9 })] .allow,
    .oneOf {} [hotelStay, campStay] (some ⟨"kind", [("camp", 1), ("hotel", 0)]⟩)]

/-- What a client sends. The note is a text, though it could be read as a number. -/
def bookingSent : Field :=
  .value (.object [("kind", .string "hotel"), ("note", .string "12"),
    ("rooms", .array [.number (.int ⟨7, by decide, by decide⟩)])])

/-- The booking with its number of nights. -/
def bookingRead : Field :=
  .value (.object [("note", .string "12"), ("kind", .string "hotel"),
    ("rooms", .array [.number (.int ⟨7, by decide, by decide⟩)]),
    ("nights", .number (.int ⟨3, by decide, by decide⟩))])

/-- A raw run reads the booking as the typed run does: the note stays a text. -/
theorem bookingRead_raw :
    booking.validate bookingSent false = .ok bookingRead ∧
      booking.validate bookingSent true = .ok bookingRead := by
  have haccepted : booking.validate bookingSent false = .ok bookingRead := by cbv
  have hhotel : hotelStay.Everywhere IsDiscriminated := by
    refine .node trivial fun c hc => ?_
    rcases List.mem_cons.mp hc with rfl | hc
    · exact .leaf trivial rfl
    rcases List.mem_cons.mp hc with rfl | hc
    · exact .leaf trivial rfl
    rw [List.mem_singleton.mp hc]
    refine .node trivial fun c hc => ?_
    rw [List.mem_singleton.mp hc]
    exact .leaf trivial rfl
  have hcamp : campStay.Everywhere IsDiscriminated := by
    refine .node trivial fun c hc => ?_
    rcases List.mem_cons.mp hc with rfl | hc
    · exact .leaf trivial rfl
    · rw [List.mem_singleton.mp hc]
      exact .leaf trivial rfl
  have hbooking : booking.Everywhere IsDiscriminated := by
    refine .node trivial fun b hb => ?_
    rcases List.mem_cons.mp hb with rfl | hb
    · refine .node trivial fun c hc => ?_
      rw [List.mem_singleton.mp hc]
      exact .leaf trivial rfl
    · rw [List.mem_singleton.mp hb]
      refine .node rfl fun c hc => ?_
      rcases List.mem_cons.mp hc with rfl | hc
      · exact hhotel
      · rw [List.mem_singleton.mp hc]
        exact hcamp
  exact ⟨haccepted, validate_raw_of_typed hbooking haccepted⟩

end Validator

end SchemaGate
