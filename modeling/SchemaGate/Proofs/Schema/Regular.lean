import Mathlib
import SchemaGate.Proofs.Schema.Following

/-!
# Compiled trees are regular

Validation is written for any tree, and so it has an answer ready for trees that no schema leads to:
a discriminator whose target is no branch, or an item of an array that comes out as nothing.

What a schema is compiled to needs neither. Its nodes are regular (`Validator.Regular`), each one by
the way it is put together (`Validator.regular_of_assemble`); and at no node of such a tree does an
input reach one of the two answers (`Validator.NeverFallsBack`).
-/

namespace SchemaGate

/-! ## What keywords are read as -/

namespace Keyword

variable {members : Entries Json} {c : Common}

theorem default_ne_null_of_common (h : common members = .ok c) : c.default? ≠ some .null := by
  obtain ⟨nullable, -, h⟩ := bind_eq_ok_iff.mp h
  obtain ⟨readOnly, -, h⟩ := bind_eq_ok_iff.mp h
  cases h
  intro hnull
  obtain ⟨-, hkept⟩ := Option.filter_eq_some_iff.mp hnull
  cases hkept

theorem common_of_integerRule {rule : IntegerRule} (h : integerRule c members = .ok rule) :
    rule.common = c := by
  obtain ⟨format, -, h⟩ := bind_eq_ok_iff.mp h
  obtain ⟨minimum, -, h⟩ := bind_eq_ok_iff.mp h
  obtain ⟨maximum, -, h⟩ := bind_eq_ok_iff.mp h
  obtain ⟨values, -, h⟩ := bind_eq_ok_iff.mp h
  cases h
  rfl

theorem common_of_numberRule {rule : NumberRule} (h : numberRule c members = .ok rule) :
    rule.common = c := by
  obtain ⟨format, -, h⟩ := bind_eq_ok_iff.mp h
  obtain ⟨minimum, -, h⟩ := bind_eq_ok_iff.mp h
  obtain ⟨maximum, -, h⟩ := bind_eq_ok_iff.mp h
  obtain ⟨values, -, h⟩ := bind_eq_ok_iff.mp h
  cases h
  rfl

theorem of_stringRule {formats : FormatRegistry} {rule : StringRule}
    (h : stringRule formats c members = .ok rule) :
    rule.common = c ∧ rule.check = rule.format.bind formats.get? := by
  obtain ⟨format, -, h⟩ := bind_eq_ok_iff.mp h
  obtain ⟨pattern, -, h⟩ := bind_eq_ok_iff.mp h
  obtain ⟨minLength, -, h⟩ := bind_eq_ok_iff.mp h
  obtain ⟨maxLength, -, h⟩ := bind_eq_ok_iff.mp h
  obtain ⟨values, -, h⟩ := bind_eq_ok_iff.mp h
  cases h
  exact ⟨rfl, rfl⟩

theorem common_of_arrayRule {rule : ArrayRule} (h : arrayRule c members = .ok rule) :
    rule.common = c := by
  obtain ⟨minItems, -, h⟩ := bind_eq_ok_iff.mp h
  obtain ⟨maxItems, -, h⟩ := bind_eq_ok_iff.mp h
  obtain ⟨unique, -, h⟩ := bind_eq_ok_iff.mp h
  cases h
  rfl

theorem common_of_objectRule {required : List String} {rule : ObjectRule}
    (h : objectRule c required members = .ok rule) : rule.common = c := by
  obtain ⟨minProperties, -, h⟩ := bind_eq_ok_iff.mp h
  obtain ⟨maxProperties, -, h⟩ := bind_eq_ok_iff.mp h
  cases h
  rfl

/-! ## Targets of a discriminator -/

variable {names : List (Option String)} {targets : Entries Nat}

/-- Every target is the place of a branch that has a name. -/
def Named (names : List (Option String)) (targets : Entries Nat) : Prop :=
  ∀ t ∈ targets, ∃ n, names[t.2]? = some (some n)

theorem Named.lt_length (h : Named names targets) {t : String × Nat} (ht : t ∈ targets) :
    t.2 < names.length := by
  obtain ⟨n, hn⟩ := h t ht
  exact (List.getElem?_eq_some_iff.mp hn).1

theorem named_ownTargets (names : List (Option String)) : Named names (ownTargets names) := by
  intro t ht
  obtain ⟨⟨name, i⟩, hmem, hmap⟩ := List.mem_filterMap.mp (Entries.mem_of_mem_sorted ht)
  obtain ⟨n, hname, rfl⟩ := Option.map_eq_some_iff.mp hmap
  exact ⟨n, (List.mem_zipIdx_iff_getElem?.mp hmem).trans (congrArg some hname)⟩

/-- A mapping adds only branches that have a name. -/
theorem named_mappedTargets {mapping : Entries Json} {found : Entries Nat}
    (h : Named names targets) (hfound : mappedTargets names targets mapping = .ok found) :
    Named names found := by
  induction mapping generalizing targets with
  | nil =>
      cases hfound
      exact h
  | cons m rest ih =>
      unfold mappedTargets at hfound
      split at hfound
      · cases hfound
      · split at hfound
        · rename_i target _ _ i hi
          refine ih (fun t ht => ?_) hfound
          rcases Entries.mem_of_mem_file ht with rfl | hold
          · obtain ⟨hlt, hname, -⟩ := List.findIdx?_eq_some_iff_getElem.mp hi
            refine ⟨Reference.lastSegment target, ?_⟩
            rw [List.getElem?_eq_getElem hlt, eq_of_beq hname]
          · exact h t hold
        · cases hfound

/-- A discriminator has targets, and each one is the place of a branch that has a name. -/
theorem of_discriminatorOf {definition : Json} {branches : List Json} {d : Discriminator}
    (h : discriminatorOf definition branches = .ok d) :
    d.targets ≠ [] ∧ Named (branches.map branchName) d.targets := by
  unfold discriminatorOf at h
  extract_lets names named at h
  have hnamed : ∀ property, named property = .ok d →
      d.targets ≠ [] ∧ Named (branches.map branchName) d.targets := by
    intro property h
    unfold named at h
    extract_lets chosen at h
    have hchosen : ∀ targets, Named names targets → chosen targets = .ok d →
        d.targets ≠ [] ∧ Named (branches.map branchName) d.targets := by
      intro targets htargets h
      unfold chosen at h
      split at h
      · cases h
      · rename_i hsome
        cases h
        exact ⟨fun hnil => hsome (List.isEmpty_iff.mpr hnil), htargets⟩
    split at h
    · exact hchosen _ (named_ownTargets names) h
    · obtain ⟨targets, htargets, h⟩ := bind_eq_ok_iff.mp h
      exact hchosen targets (named_mappedTargets (named_ownTargets names) htargets) h
    · cases h
  split at h
  · exact hnamed _ h
  · cases h

theorem of_discriminator {branches : List Json} {d : Discriminator}
    (h : discriminator members branches = .ok (some d)) :
    d.targets ≠ [] ∧ Named (branches.map branchName) d.targets := by
  unfold discriminator at h
  split at h
  · cases h
  · rename_i definition _
    cases hd : discriminatorOf definition branches with
    | error e =>
        rw [hd] at h
        cases h
    | ok d' =>
        rw [hd] at h
        cases h
        exact of_discriminatorOf hd

end Keyword

/-! ## Nodes that schemas are compiled to -/

namespace Validator

/-- The node is one that a schema can stand for. -/
structure Regular (formats : FormatRegistry) (v : Validator) : Prop where
  branches : v.HasBranches
  targets : ∀ branches d, v.Chooses branches d →
    d.targets ≠ [] ∧ ∀ t ∈ d.targets, t.2 < branches.length
  default : v.common.default? ≠ some .null
  check : ∀ rule, v = .string rule → rule.check = rule.format.bind formats.get?

section

variable {formats : FormatRegistry} {compile : Json → Except CompileError Validator}
  {c : Common} {members : Entries Json} {v : Validator}

/-- A node of a type has neither branches nor a discriminator. -/
theorem regular_of_isTyped (ht : v.IsTyped) (hc : v.common.default? ≠ some .null)
    (hcheck : ∀ rule, v = .string rule → rule.check = rule.format.bind formats.get?) :
    v.Regular formats where
  branches := by cases v <;> trivial
  targets branches d h := by cases h <;> cases ht
  default := hc
  check := hcheck

/-- A target of the branches as written is a target of what they are compiled to. -/
theorem targets_of_discriminator {schemas : List Json} {branches : List Validator}
    {d : Discriminator} (hall : List.Forall₂ (fun s w => compile s = .ok w) schemas branches)
    (hd : Keyword.discriminator members schemas = .ok (some d)) :
    d.targets ≠ [] ∧ ∀ t ∈ d.targets, t.2 < branches.length := by
  obtain ⟨hsome, hnamed⟩ := Keyword.of_discriminator hd
  refine ⟨hsome, fun t ht => ?_⟩
  have hlt := hnamed.lt_length ht
  rwa [List.length_map, hall.length_eq] at hlt

/-- A node with a type is regular: it keeps the common keywords as they were read, and a string has
the check of the format that it names. -/
theorem regular_of_assembleTyped {type : String} (hc : c.default? ≠ some .null)
    (h : assembleTyped formats compile c members type = .ok v) : v.Regular formats := by
  unfold assembleTyped at h
  split at h
  · obtain ⟨rule, hrule, heq⟩ := bind_eq_ok_iff.mp h
    cases heq
    refine regular_of_isTyped trivial ?_ (by rintro _ ⟨⟩)
    rwa [common, Keyword.common_of_integerRule hrule]
  · obtain ⟨rule, hrule, heq⟩ := bind_eq_ok_iff.mp h
    cases heq
    refine regular_of_isTyped trivial ?_ (by rintro _ ⟨⟩)
    rwa [common, Keyword.common_of_numberRule hrule]
  · obtain ⟨rule, hrule, heq⟩ := bind_eq_ok_iff.mp h
    cases heq
    obtain ⟨hcommon, hcheck⟩ := Keyword.of_stringRule hrule
    refine regular_of_isTyped trivial ?_ ?_
    · rwa [common, hcommon]
    · rintro _ ⟨⟩
      exact hcheck
  · cases h
    exact regular_of_isTyped trivial hc (by rintro _ ⟨⟩)
  · unfold assembleArray at h
    split at h
    · cases h
    · obtain ⟨items, -, h⟩ := bind_eq_ok_iff.mp h
      obtain ⟨rule, hrule, heq⟩ := bind_eq_ok_iff.mp h
      cases heq
      refine regular_of_isTyped trivial ?_ (by rintro _ ⟨⟩)
      rwa [common, Keyword.common_of_arrayRule hrule]
  · obtain ⟨properties, -, h⟩ := bind_eq_ok_iff.mp h
    obtain ⟨required, -, h⟩ := bind_eq_ok_iff.mp h
    obtain ⟨additional, -, h⟩ := bind_eq_ok_iff.mp h
    obtain ⟨rule, hrule, heq⟩ := bind_eq_ok_iff.mp h
    cases heq
    refine regular_of_isTyped trivial ?_ (by rintro _ ⟨⟩)
    rwa [common, Keyword.common_of_objectRule hrule]
  · cases h

/-- A node that could be put together is regular, whatever the schemas below are compiled to. -/
theorem regular_of_assemble (h : assemble formats compile members = .ok v) :
    v.Regular formats := by
  obtain ⟨c, hcommon, h⟩ := bind_eq_ok_iff.mp h
  have hc := Keyword.default_ne_null_of_common hcommon
  unfold assembleBody at h
  split at h
  · obtain ⟨branches, d, rfl, hne, hall, hd⟩ := of_assembleChoice h
    refine ⟨hne, ?_, hc, by rintro _ ⟨⟩⟩
    rintro _ _ ⟨⟩
    exact targets_of_discriminator hall hd
  · obtain ⟨branches, d, rfl, hne, hall, hd⟩ := of_assembleChoice h
    refine ⟨hne, ?_, hc, by rintro _ ⟨⟩⟩
    rintro _ _ ⟨⟩
    exact targets_of_discriminator hall hd
  · obtain ⟨branches, hbranches, heq⟩ := bind_eq_ok_iff.mp h
    cases heq
    exact ⟨(of_assembleBranches hbranches).2, by rintro _ _ ⟨⟩, hc, by rintro _ ⟨⟩⟩
  · exact regular_of_assembleTyped hc h
  · cases h
  · cases h

end

/-! ## Answers that are never given -/

/-- Whatever the input, the branch that a discriminator selects is there, and no item of an array
comes out as nothing. -/
structure NeverFallsBack (v : Validator) : Prop where
  branch : ∀ branches d, v.Chooses branches d → ∀ input raw index, d.select input = .ok index →
    branchOutcome branches index input raw ≠ none
  item : ∀ rule items, v = .array rule items → ∀ x raw output,
    items.validate (.ofJson x) raw = .ok output → output.toJson? ≠ none

variable {ctx : Context} {schema : Json} {v : Validator}

/-- In a regular tree a selected branch is there and an accepted item is something, so that neither
of the two answers is given. -/
theorem neverFallsBack_of_regular {formats : FormatRegistry}
    (h : v.Everywhere (Regular formats)) : v.NeverFallsBack where
  branch := by
    intro branches d hchooses input raw index hselect
    obtain ⟨name, hname⟩ := Discriminator.targets_of_select hselect
    have hlt := (h.here.targets branches d hchooses).2 _ (Entries.mem_of_get? hname)
    rw [branchOutcome_eq, List.getElem?_eq_getElem hlt]
    rintro ⟨⟩
  item := by
    rintro rule items rfl x raw output houtput hnone
    -- an item is given, and regular trees lose nothing that is given
    have hmerges : items.Everywhere MergesSome :=
      (h.child (List.mem_singleton_self items)).mono fun n hn => hn.branches.mergesSome
    exact ne_absent_of_validate hmerges (Field.ofJson_ne_absent x) houtput
      ((Field.toJson?_eq_none_iff output).mp hnone)

/-- What a schema is compiled to is regular at every node, and so no input to it, or to a part of
it, is answered with what stands in for a missing branch or for a missing item. -/
theorem regular_of_compile (h : compile ctx schema = .ok v) :
    v.Everywhere (Regular ctx.formats) ∧ v.Everywhere NeverFallsBack := by
  have hregular : v.Everywhere (Regular ctx.formats) :=
    everywhere_of_returns regular_of_assemble (compile_eq_iff.mp h) rfl
  exact ⟨hregular, hregular.everywhere.mono fun n hn => neverFallsBack_of_regular hn⟩

/-! ## A fleet -/

/-- A test for the plate of a car. -/
def plateCheck : FormatCheck :=
  ⟨"plate", fun s => if s.length ≤ 8 then none else some "value should be a plate"⟩

/-- A car has a plate, and a colour that no test is registered for. A default of null is none. -/
def carSchema : Json :=
  .object [("type", .string "object"), ("properties", .object [
    ("plate", .object [("type", .string "string"), ("format", .string "plate")]),
    ("colour", .object [("type", .string "string"), ("format", .string "colour"),
      ("default", .null)])])]

/-- A van has seats. -/
def vanSchema : Json :=
  .object [("type", .string "object"), ("properties", .object [
    ("seats", .object [("type", .string "integer")])])]

/-- The definitions of both. -/
def fleetComponents : Components := ⟨[("schemas", .object [("Car", carSchema), ("Van", vanSchema)])]⟩

/-- What the schemas of the fleet are compiled against. -/
def fleetContext : Context where
  components := some fleetComponents
  formats := FormatRegistry.empty.register plateCheck

/-- A car or a van. -/
def vehicleBranches : List Json :=
  [.object [("$ref", .string "#/components/schemas/Car")],
    .object [("$ref", .string "#/components/schemas/Van")]]

/-- They are told apart by their kind. A bus is a van. -/
def vehicleMembers : Entries Json :=
  [("oneOf", .array vehicleBranches),
    ("discriminator", .object [("propertyName", .string "kind"),
      ("mapping", .object [("bus", .string "#/components/schemas/Van")])])]

/-- What a car is compiled to. -/
def car : Validator :=
  .object {} [("colour", .string { format := some "colour" }),
    ("plate", .string { format := some "plate", check := some plateCheck })] .allow

/-- What a van is compiled to. -/
def van : Validator := .object {} [("seats", .integer {})] .allow

/-- How a vehicle is picked. -/
def vehicleKinds : Discriminator := ⟨"kind", [("Car", 0), ("Van", 1), ("bus", 1)]⟩

theorem compile_vehicleBranches : vehicleBranches.mapM (compile fleetContext) = .ok [car, van] := by
  have hcar : ∀ pending, compileWith fleetContext pending carSchema = .ok car := by
    intro pending
    rw [carSchema, compileWith_object_eq _ _ rfl]
    cbv
  have hvan : ∀ pending, compileWith fleetContext pending vanSchema = .ok van := by
    intro pending
    rw [vanSchema, compileWith_object_eq _ _ rfl]
    cbv
  have hcarRef : fleetComponents.resolve "#/components/schemas/Car" = .ok carSchema := by cbv
  have hvanRef : fleetComponents.resolve "#/components/schemas/Van" = .ok vanSchema := by cbv
  refine mapM_eq_ok_iff.mpr (.cons ?_ (.cons ?_ .nil))
  · rw [compile_ref_eq rfl rfl hcarRef, hcar]
  · rw [compile_ref_eq rfl rfl hvanRef, hvan]

/-- The vehicles of the fleet are regular. -/
theorem vehicle_regular :
    compile fleetContext (.object vehicleMembers) =
        .ok (.oneOf {} [car, van] (some vehicleKinds)) ∧
      (oneOf {} [car, van] (some vehicleKinds)).Everywhere (Regular fleetContext.formats) ∧
      (oneOf {} [car, van] (some vehicleKinds)).Everywhere NeverFallsBack := by
  have hkinds : Keyword.discriminator vehicleMembers vehicleBranches = .ok (some vehicleKinds) := by
    decide +kernel
  have hcompile : compile fleetContext (.object vehicleMembers) =
      .ok (.oneOf {} [car, van] (some vehicleKinds)) := by
    rw [compile_object_eq rfl]
    show assembleChoice (compile fleetContext) (.oneOf {}) "oneOf" vehicleMembers
      (.array vehicleBranches) = _
    show (vehicleBranches.mapM (compile fleetContext) >>= fun branches => _) = _
    rw [compile_vehicleBranches]
    show (Keyword.discriminator vehicleMembers vehicleBranches >>= fun d => _) = _
    rw [hkinds]
    rfl
  exact ⟨hcompile, regular_of_compile hcompile⟩

end Validator

end SchemaGate
