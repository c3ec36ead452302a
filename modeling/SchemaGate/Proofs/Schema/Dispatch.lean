import Mathlib
import SchemaGate.Proofs.Schema.Combining
import SchemaGate.Proofs.Schema.Following
import SchemaGate.Proofs.Schema.KeywordOrder

/-!
# Where an alias leads

The mapping of a discriminator gives names to branches, and it points at a branch by its
reference. Of the reference only the last segment counts, both in the mapping and in the branches,
so an alias leads to the first branch whose reference ends alike
(`Validator.alias_reaches_first`). This is a branch with the very reference that the mapping has
unless another one that ends alike stands before it.
-/

namespace SchemaGate

/-! ## Reading the mapping -/

namespace Keyword

/-- The branch is a reference that ends as the target does. -/
def EndsAs (target : String) (branch : Json) : Prop :=
  ∃ r, branch.member? "$ref" = some (.string r) ∧
    Reference.lastSegment r = Reference.lastSegment target

theorem branchName_eq_iff {target : String} {branch : Json} :
    branchName branch = some (Reference.lastSegment target) ↔ EndsAs target branch := by
  simp only [branchName, EndsAs, Option.map_eq_some_iff, Json.bind_string?_eq_some_iff]

/-- A discriminator among the members tells branches by the property, and its mapping points from
the name at the target. -/
def MapsAlias (members : Entries Json) (property name target : String) : Prop :=
  ∃ definition mapping, Entries.get? "discriminator" members = some definition ∧
    definition.member? "propertyName" = some (.string property) ∧
    definition.member? "mapping" = some (.object mapping) ∧ (Entries.keys mapping).Nodup ∧
    (name, .string target) ∈ mapping

variable {members : Entries Json} {schemas : List Json} {property name target : String}

theorem firstWhere_of_targetOf {index : Nat}
    (h : targetOf (schemas.map branchName) (.string target) = some index) :
    ∃ first, schemas[index]? = some first ∧ FirstWhere (EndsAs target) schemas first := by
  have hfound : (schemas.map branchName).findIdx?
      (· == some (Reference.lastSegment target)) = some index := h
  rw [List.findIdx?_map] at hfound
  obtain ⟨first, hindex, hfirst⟩ := FirstWhere.of_findIdx? hfound
  refine ⟨first, hindex, hfirst.congr fun s => ?_⟩
  rw [← branchName_eq_iff, Function.comp_apply, beq_iff_eq]

/-- Of distinct aliases each has the target that the mapping points at, whatever was there
before. -/
theorem get?_mappedTargets {names : List (Option String)} {targets found : Entries Nat}
    {mapping : Entries Json} {v : Json} (hd : (Entries.keys mapping).Nodup)
    (hmem : (name, v) ∈ mapping) (h : mappedTargets names targets mapping = .ok found) :
    ∃ index, targetOf names v = some index ∧ Entries.get? name found = some index := by
  obtain ⟨news, hnews, rfl⟩ := mappedTargets_eq_ok_iff.mp h
  have hentry := hnews.get? name
  rw [(Entries.get?_eq_some_iff hd).mpr hmem] at hentry
  generalize hnew : Entries.get? name news = new at hentry
  cases hentry with
  | @some _ index hindex =>
      refine ⟨index, hindex, ?_⟩
      rw [Entries.get?_fileAll_of_nodup (hnews.keys_eq ▸ hd), hnew]
      rfl

/-- A mapped name has an entry in the discriminator, which is the branch that its target stands for.
-/
theorem of_mapsAlias (hmaps : MapsAlias members property name target) {d : Option Discriminator}
    (h : discriminator members schemas = .ok d) :
    ∃ found index, d = some found ∧ found.property = property ∧
      Entries.get? name found.targets = some index ∧
      targetOf (schemas.map branchName) (.string target) = some index := by
  obtain ⟨definition, mapping, hdefinition, hproperty, hmapping, hd, hmem⟩ := hmaps
  simp only [discriminator, hdefinition] at h
  cases hread : discriminatorOf definition schemas with
  | error e =>
      rw [hread] at h
      cases h
  | ok found =>
      rw [hread] at h
      cases h
      rw [discriminatorOf_eq, propertyOf, targetsOf, hproperty, hmapping] at hread
      obtain ⟨_, ⟨⟩, hread⟩ := bind_eq_ok_iff.mp hread
      obtain ⟨targets, htargets, hread⟩ := bind_eq_ok_iff.mp hread
      obtain ⟨index, hindex, hname⟩ := get?_mappedTargets hd hmem htargets
      split at hread
      · cases hread
      · cases hread
        exact ⟨_, index, rfl, rfl, hname, hindex⟩

end Keyword

/-- The schema with these members is a choice among the schemas, by this keyword. -/
inductive Form.IsChoice (members : Entries Json) (schemas : List Json) : String → Prop
  | oneOf : Form.ofMembers members = .oneOf (.array schemas) → IsChoice members schemas "oneOf"
  | anyOf : Form.ofMembers members = .anyOf (.array schemas) → IsChoice members schemas "anyOf"

namespace Validator

/-! ## Asking one branch -/

/-- The node answers as the branch does, but that it has a complaint of its own. -/
def AnswersAs (v b : Validator) (keyword : String) (input : Field) (raw : Bool) : Prop :=
  v.validate input raw =
    (b.validate input raw).mapError fun _ => Combinator.failed keyword

variable {ctx : Context} {pending : List String} {members ms : Entries Json}
  {schemas before after : List Json} {keyword property name target : String} {schema : Json}
  {v b : Validator} {branches : List Validator} {d : Discriminator} {raw : Bool}

theorem dispatch_eq_mapError {index : Nat} {f : Field} (hselect : d.select f = .ok index)
    (hb : branches[index]? = some b) :
    dispatch branches d f raw keyword =
      (b.validate f raw).mapError fun _ => Combinator.failed keyword := by
  simp only [dispatch, hselect, branchOutcome_eq, hb, Option.map_some]
  cases b.validate f raw <;> rfl

theorem select_eq_ok {index : Nat} (hsent : Entries.get? d.property ms = some (.string name))
    (htarget : Entries.get? name d.targets = some index) :
    d.select (.value (.object ms)) = .ok index := by
  simp only [Discriminator.select, hsent, Json.string?, Option.bind_some, htarget]

/-- A choice is compiled to a node that has the branches that its schemas are compiled to, and that
asks the one that the discriminator selects. -/
theorem of_choice (hcompile : compileWith ctx pending (.object members) = .ok v)
    (href : Entries.get? "$ref" members = none)
    (hchoice : Form.IsChoice members schemas keyword) :
    ∃ branches d, List.Forall₂ (fun s b => compileWith ctx pending s = .ok b) schemas branches ∧
      Keyword.discriminator members schemas = .ok d ∧
      ∀ found ∈ d, ∀ (ms : Entries Json) (raw : Bool),
        v.validate (.value (.object ms)) raw =
          dispatch branches found (.value (.object ms)) raw keyword := by
  rw [compileWith_object_eq _ _ href] at hcompile
  obtain ⟨c, -, hbody⟩ := bind_eq_ok_iff.mp hcompile
  have hthere : ∀ ms : Entries Json, Field.value (.object ms) ≠ .absent := by rintro ms ⟨⟩
  have hnull : ∀ ms : Entries Json,
      ¬ (c.nullable = true ∧ (Field.value (.object ms)).isNull = true) := by
    rintro ms ⟨-, ⟨⟩⟩
  cases hchoice with
  | oneOf hform =>
      rw [assembleBody, hform] at hbody
      obtain ⟨branches, d, rfl, -, hall, hd⟩ := of_assembleChoice hbody
      refine ⟨branches, d, hall, hd, ?_⟩
      rintro found ⟨⟩ ms raw
      rw [validate_oneOf_eq, Combinator.settled_eq_examine (hthere ms) (hnull ms), examineChoice]
  | anyOf hform =>
      rw [assembleBody, hform] at hbody
      obtain ⟨branches, d, rfl, -, hall, hd⟩ := of_assembleChoice hbody
      refine ⟨branches, d, hall, hd, ?_⟩
      rintro found ⟨⟩ ms raw
      rw [validate_anyOf_eq, Combinator.settled_eq_examine (hthere ms) (hnull ms), examineChoice]

/-- An object with an alias under the property of the discriminator is answered by the first branch
whose reference ends as the target does. Its reference is the target itself if, before some branch
of which this holds, no other reference ends alike. -/
theorem alias_reaches_first (raw : Bool)
    (hcompile : compileWith ctx pending (.object members) = .ok v)
    (href : Entries.get? "$ref" members = none)
    (hchoice : Form.IsChoice members schemas keyword)
    (hmaps : Keyword.MapsAlias members property name target)
    (hschemas : schemas = before ++ schema :: after)
    (hschema : schema.member? "$ref" = some (.string target))
    (hsent : Entries.get? property ms = some (.string name)) :
    ∃ first b, FirstWhere (Keyword.EndsAs target) schemas first ∧
      compileWith ctx pending first = .ok b ∧
      AnswersAs v b keyword (.value (.object ms)) raw ∧
      ((∀ s ∈ before, Keyword.EndsAs target s → s.member? "$ref" = some (.string target)) →
        first.member? "$ref" = some (.string target)) := by
  obtain ⟨branches, d, hall, hd, hasks⟩ := of_choice hcompile href hchoice
  obtain ⟨found, index, rfl, rfl, hname, htarget⟩ := Keyword.of_mapsAlias hmaps hd
  obtain ⟨first, hindex, hfirst⟩ := Keyword.firstWhere_of_targetOf htarget
  obtain ⟨b, hb, hcompiled⟩ := exists_getElem?_of_forall₂ hall hindex
  refine ⟨first, b, hfirst, hcompiled, ?_, fun hexact => ?_⟩
  · rw [AnswersAs, hasks found rfl, dispatch_eq_mapError (select_eq_ok hsent hname) hb]
  · subst hschemas
    rcases FirstWhere.mem_or_eq_of_append ⟨target, hschema, rfl⟩ hfirst with hbefore | rfl
    · exact hexact first hbefore hfirst.holds
    · exact hschema

/-! ## Pages of two kinds -/

/-- A page with a text. -/
def publishedSchema : Json :=
  .object [("type", .string "object"), ("required", .array [.string "text"])]

/-- A page that may still be without one. -/
def draftSchema : Json := .object [("type", .string "object")]

/-- Both are called a page, in sections of their own. -/
def pageComponents : Components :=
  ⟨[("published", .object [("Page", publishedSchema)]),
    ("drafts", .object [("Page", draftSchema)])]⟩

/-- What pages are compiled against. -/
def pageContext : Context where
  components := some pageComponents
  formats := FormatRegistry.empty

/-- A page that is published, or a draft. -/
def pageBranches : List Json :=
  [.object [("$ref", .string "#/components/published/Page")],
    .object [("$ref", .string "#/components/drafts/Page")]]

/-- They are told apart by their state. -/
def pageMembers : Entries Json :=
  [("oneOf", .array pageBranches),
    ("discriminator", .object [("propertyName", .string "state"),
      ("mapping", .object [("live", .string "#/components/published/Page"),
        ("draft", .string "#/components/drafts/Page")])])]

/-- What a published page is compiled to. -/
def published : Validator := .object { required := ["text"] } [] .allow

/-- What a draft is compiled to. -/
def drafted : Validator := .object {} [] .allow

/-- What a page is compiled to: both states lead to the first branch. -/
def page : Validator :=
  .oneOf {} [published, drafted] (some ⟨"state", [("Page", 1), ("draft", 0), ("live", 0)]⟩)

/-- A draft without a text. -/
def draftSent : Entries Json := [("state", .string "draft")]

/-- A page that is live. -/
def liveSent : Entries Json := [("state", .string "live"), ("text", .string "Hello")]

theorem compile_pageBranches :
    pageBranches.mapM (compile pageContext) = .ok [published, drafted] := by
  have hpublished : ∀ pending, compileWith pageContext pending publishedSchema = .ok published := by
    intro pending
    rw [publishedSchema, compileWith_object_eq _ _ rfl]
    cbv
  have hdraft : ∀ pending, compileWith pageContext pending draftSchema = .ok drafted := by
    intro pending
    rw [draftSchema, compileWith_object_eq _ _ rfl]
    cbv
  have hpublishedRef : pageComponents.resolve "#/components/published/Page" =
      .ok publishedSchema := by cbv
  have hdraftRef : pageComponents.resolve "#/components/drafts/Page" = .ok draftSchema := by cbv
  refine mapM_eq_ok_iff.mpr (.cons ?_ (.cons ?_ .nil))
  · rw [compile_ref_eq rfl rfl hpublishedRef, hpublished]
  · rw [compile_ref_eq rfl rfl hdraftRef, hdraft]

theorem compile_page : compile pageContext (.object pageMembers) = .ok page := by
  have hstates : Keyword.discriminator pageMembers pageBranches =
      .ok (some ⟨"state", [("Page", 1), ("draft", 0), ("live", 0)]⟩) := by
    decide +kernel
  rw [compile_object_eq rfl]
  show assembleChoice (compile pageContext) (.oneOf {}) "oneOf" pageMembers
    (.array pageBranches) = _
  show (pageBranches.mapM (compile pageContext) >>= fun branches => _) = _
  rw [compile_pageBranches]
  show (Keyword.discriminator pageMembers pageBranches >>= fun d => _) = _
  rw [hstates]
  rfl

/-- A live page is answered by the branch of published pages, which is the first. -/
theorem live_reachesPublished :
    page.validate (.value (.object liveSent)) true = .ok (.value (.object liveSent)) ∧
      ∃ first b, FirstWhere (Keyword.EndsAs "#/components/published/Page") pageBranches first ∧
        compileWith pageContext (reachable pageContext (.object pageMembers)) first = .ok b ∧
        AnswersAs page b "oneOf" (.value (.object liveSent)) true ∧
        first.member? "$ref" = some (.string "#/components/published/Page") := by
  have hlive : Keyword.MapsAlias pageMembers "state" "live" "#/components/published/Page" :=
    ⟨_, _, rfl, rfl, rfl, by decide, List.mem_cons_self⟩
  have hsplit : pageBranches = [] ++
      .object [("$ref", .string "#/components/published/Page")] ::
        [.object [("$ref", .string "#/components/drafts/Page")]] := rfl
  have hsent : Entries.get? "state" liveSent = some (.string "live") := rfl
  obtain ⟨first, b, hfirst, hb, hanswers, hexact⟩ :=
    alias_reaches_first true compile_page rfl (.oneOf rfl) hlive hsplit rfl hsent
  refine ⟨by cbv, first, b, hfirst, hb, hanswers, hexact fun s hs => ?_⟩
  exact absurd hs List.not_mem_nil

/-- The mapping points from a draft at the branch of drafts, and no branch with that reference
answers for it: a draft is taken for a published page. -/
theorem draft_reachesPublished :
    compile pageContext (.object pageMembers) = .ok page ∧
      Form.IsChoice pageMembers pageBranches "oneOf" ∧
      Keyword.MapsAlias pageMembers "state" "draft" "#/components/drafts/Page" ∧
      Entries.get? "state" draftSent = some (.string "draft") ∧
      (∃ s ∈ pageBranches, s.member? "$ref" = some (.string "#/components/drafts/Page")) ∧
      ¬ ∃ s ∈ pageBranches, ∃ b,
        s.member? "$ref" = some (.string "#/components/drafts/Page") ∧
        compile pageContext s = .ok b ∧
        AnswersAs page b "oneOf" (.value (.object draftSent)) true := by
  have hrefused : page.validate (.value (.object draftSent)) true =
      .error (Combinator.failed "oneOf") := by cbv
  have haccepted : drafted.validate (.value (.object draftSent)) true =
      .ok (.value (.object draftSent)) := by cbv
  refine ⟨compile_page, .oneOf rfl, ?_, rfl, ?_, ?_⟩
  · exact ⟨_, _, rfl, rfl, rfl, by decide, List.mem_cons_of_mem _ List.mem_cons_self⟩
  · exact ⟨_, List.mem_cons_of_mem _ List.mem_cons_self, rfl⟩
  · rintro ⟨s, hs, b, href, hb, hanswers⟩
    obtain - | ⟨-, hdrafts⟩ := mapM_eq_ok_iff.mp compile_pageBranches
    obtain - | ⟨hdraft, -⟩ := hdrafts
    rcases List.mem_cons.mp hs with rfl | hs
    · have hsame := Json.string.inj (Option.some.inj href)
      exact absurd hsame (by decide)
    · cases List.mem_singleton.mp hs
      cases hdraft.symm.trans hb
      -- the branch accepts what the page refuses
      rw [AnswersAs, hrefused, haccepted] at hanswers
      cases hanswers

end Validator

end SchemaGate
