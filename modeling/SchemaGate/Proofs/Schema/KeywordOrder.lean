import SchemaGate.Proofs.Json.Reordering
import SchemaGate.Schema.Keyword

/-!
# Keywords and the order of keys

Members of a schema are looked up by keyword, so their order is lost on most readers. It shows in
two places. A mapping of a discriminator is gone through member by member, and the first fault in it
is the one reported: two orders fail together, though not with one message (`SucceedTogether`). And
a default or a member of an enumeration is kept as it stands, so that what is read differs as the
schemas do (`Common.Reorders`, `StringRule.Reorders` and so on). All else is read alike.
-/

namespace SchemaGate

/-! ## Two runs -/

/-- Both runs fail, perhaps with different faults, or both succeed, with related results. -/
inductive SucceedTogether {ε α β : Type} (R : α → β → Prop) : Except ε α → Except ε β → Prop
  | error (e e' : ε) : SucceedTogether R (.error e) (.error e')
  | ok {a : α} {b : β} : R a b → SucceedTogether R (.ok a) (.ok b)

namespace SucceedTogether

variable {ε α β γ δ : Type} {R : α → β → Prop}

theorem of_eq {x y : Except ε α} (h : y = x) : SucceedTogether Eq x y := by
  subst h
  cases y with
  | error e => exact .error e e
  | ok a => exact .ok rfl

/-- Two results go together if they succeed together and their values are related. -/
theorem of_iff {x : Except ε α} {y : Except ε β} (h : (∃ a, x = .ok a) ↔ ∃ b, y = .ok b)
    (hR : ∀ a b, x = .ok a → y = .ok b → R a b) : SucceedTogether R x y := by
  cases x with
  | error e =>
      cases y with
      | error e' => exact .error e e'
      | ok b =>
          obtain ⟨a, ha⟩ := h.mpr ⟨b, rfl⟩
          cases ha
  | ok a =>
      obtain ⟨b, rfl⟩ := h.mp ⟨a, rfl⟩
      exact .ok (hR a b rfl rfl)

theorem exists_iff {x : Except ε α} {y : Except ε β} (h : SucceedTogether R x y) :
    (∃ a, x = .ok a) ↔ ∃ b, y = .ok b := by
  cases h with
  | error e e' => exact ⟨fun ⟨_, ha⟩ => (nomatch ha), fun ⟨_, hb⟩ => (nomatch hb)⟩
  | ok _ => exact ⟨fun _ => ⟨_, rfl⟩, fun _ => ⟨_, rfl⟩⟩

theorem rel {a : α} {b : β} (h : SucceedTogether R (.ok a : Except ε α) (.ok b)) : R a b := by
  cases h with
  | ok hab => exact hab

theorem bind {S : γ → δ → Prop} {x : Except ε α} {y : Except ε β} {f : α → Except ε γ}
    {g : β → Except ε δ} (h : SucceedTogether R x y)
    (hfg : ∀ a b, R a b → SucceedTogether S (f a) (g b)) :
    SucceedTogether S (x >>= f) (y >>= g) := by
  cases h with
  | error e e' => exact .error e e'
  | ok hab => exact hfg _ _ hab

theorem map {S : γ → δ → Prop} {x : Except ε α} {y : Except ε β} {f : α → γ} {g : β → δ}
    (h : SucceedTogether R x y) (hfg : ∀ a b, R a b → S (f a) (g b)) :
    SucceedTogether S (x.map f) (y.map g) := by
  cases h with
  | error e e' => exact .error e e'
  | ok hab => exact .ok (hfg _ _ hab)

/-- A step that is the same in both runs. -/
theorem bind_eq {S : γ → δ → Prop} {x y : Except ε α} {f : α → Except ε γ} {g : α → Except ε δ}
    (h : y = x) (hfg : ∀ a, SucceedTogether S (f a) (g a)) :
    SucceedTogether S (x >>= f) (y >>= g) := by
  refine (of_eq h).bind ?_
  rintro a _ rfl
  exact hfg a

/-- Two runs over lists go together if they do element by element. -/
theorem mapM {P : γ → δ → Prop} {f : γ → Except ε α} {g : δ → Except ε β} {xs : List γ}
    {ys : List δ} (h : List.Forall₂ P xs ys)
    (hfg : ∀ x ∈ xs, ∀ y ∈ ys, P x y → SucceedTogether R (f x) (g y)) :
    SucceedTogether (List.Forall₂ R) (xs.mapM f) (ys.mapM g) := by
  induction h with
  | nil => exact .ok .nil
  | @cons x y xs ys hxy _ ih =>
      rw [List.mapM_cons, List.mapM_cons]
      refine (hfg x List.mem_cons_self y List.mem_cons_self hxy).bind fun a b hab => ?_
      refine (ih fun x hx y hy => hfg x (List.mem_cons_of_mem _ hx) y
        (List.mem_cons_of_mem _ hy)).bind fun as bs has => ?_
      exact .ok (.cons hab has)

end SucceedTogether

/-! ## Rules that differ in what they keep -/

/-- The same keywords, and defaults that differ only in the order of members. -/
structure Common.Reorders (c c' : Common) : Prop where
  nullable : c'.nullable = c.nullable
  default? : Option.Rel Json.Reorders c.default? c'.default?
  readOnly : c'.readOnly = c.readOnly

/-- The members of two enumerations, in one order, differ only in the order of members. -/
abbrev ReorderedMembers : Option (List Json) → Option (List Json) → Prop :=
  Option.Rel (List.Forall₂ Json.Reorders)

/-- The same rules but for the default and the members of the enumeration. -/
structure IntegerRule.Reorders (r r' : IntegerRule) : Prop where
  common : r.common.Reorders r'.common
  members : ReorderedMembers r.members r'.members
  rest : r' = { r with common := r'.common, members := r'.members }

/-- The same rules but for the default and the members of the enumeration. -/
structure NumberRule.Reorders (r r' : NumberRule) : Prop where
  common : r.common.Reorders r'.common
  members : ReorderedMembers r.members r'.members
  rest : r' = { r with common := r'.common, members := r'.members }

/-- The same rules but for the default and the members of the enumeration. -/
structure StringRule.Reorders (r r' : StringRule) : Prop where
  common : r.common.Reorders r'.common
  members : ReorderedMembers r.members r'.members
  rest : r' = { r with common := r'.common, members := r'.members }

/-- The same rules but for the default. -/
structure ArrayRule.Reorders (r r' : ArrayRule) : Prop where
  common : r.common.Reorders r'.common
  rest : r' = { r with common := r'.common }

/-- The same rules but for the default. -/
structure ObjectRule.Reorders (r r' : ObjectRule) : Prop where
  common : r.common.Reorders r'.common
  rest : r' = { r with common := r'.common }

/-! ## Reading keywords -/

namespace Keyword

section

variable {members others : Entries Json} (h : Entries.Matches Json.Reorders members others)

include h

theorem flag_of_matches (keyword : String) : flag others keyword = flag members keyword := by
  unfold flag
  refine h.elim keyword rfl fun v w hvw => ?_
  cases hvw <;> rfl

theorem count_of_matches (keyword : String) : count others keyword = count members keyword := by
  unfold count
  refine h.elim keyword rfl fun v w hvw => ?_
  cases hvw <;> rfl

theorem text_of_matches (keyword : String) : text others keyword = text members keyword := by
  unfold text
  refine h.elim keyword rfl fun v w hvw => ?_
  cases hvw <;> rfl

theorem limit_of_matches (keyword exclusive : String) :
    limit others keyword exclusive = limit members keyword exclusive := by
  unfold limit
  refine h.elim keyword ?_ fun v w hvw => ?_
  · refine h.elim exclusive rfl fun x y hxy => ?_
    cases hxy <;> rfl
  · refine h.elim exclusive ?_ fun x y hxy => ?_
    · cases hvw <;> rfl
    · cases hvw <;> cases hxy <;> rfl

theorem required_of_matches : required others = required members := by
  have hnames : ∀ {xs ys : List Json}, List.Forall₂ Json.Reorders xs ys →
      ys.mapM Json.string? = xs.mapM Json.string? := by
    intro xs ys hxs
    induction hxs with
    | nil => rfl
    | cons hxy _ ih => rw [List.mapM_cons, List.mapM_cons, hxy.string?_eq, ih]
  unfold required
  refine h.elim "required" rfl fun v w hvw => ?_
  cases hvw with
  | array hitems => simp only [hnames hitems]
  | _ => rfl

theorem numericFormat_of_matches {α : Type} (kind : String) (known : String → Option α) :
    numericFormat kind known others = numericFormat kind known members := by
  simp only [numericFormat, text_of_matches h]

theorem pattern_of_matches : pattern others = pattern members := by
  simp only [pattern, text_of_matches h]

/-- The common keywords are read alike, but for the order of members in defaults and enumerations.
-/
theorem common_of_matches :
    SucceedTogether Common.Reorders (common members) (common others) := by
  refine .bind_eq (flag_of_matches h "nullable") fun nullable => ?_
  refine .bind_eq (flag_of_matches h "readOnly") fun readOnly => ?_
  refine .ok ⟨rfl, ?_, rfl⟩
  refine h.elim "default" .none fun v w hvw => ?_
  rw [Option.filter_some, Option.filter_some, hvw.isNull_eq]
  split
  · exact .some hvw
  · exact .none

theorem enumeration_of_matches :
    SucceedTogether ReorderedMembers (enumeration members) (enumeration others) := by
  unfold enumeration
  refine h.elim "enum" (.ok .none) fun v w hvw => ?_
  cases hvw with
  | array hitems => exact .ok (.some hitems)
  | _ => exact .error _ _

/-! ## Reading rules -/

variable {c c' : Common} (hc : c.Reorders c')

include hc

theorem integerRule_of_matches :
    SucceedTogether IntegerRule.Reorders (integerRule c members) (integerRule c' others) := by
  refine .bind_eq (numericFormat_of_matches h _ _) fun format => ?_
  refine .bind_eq (limit_of_matches h _ _) fun minimum => ?_
  refine .bind_eq (limit_of_matches h _ _) fun maximum => ?_
  exact (enumeration_of_matches h).bind fun _ _ hvalues => .ok ⟨hc, hvalues, rfl⟩

theorem numberRule_of_matches :
    SucceedTogether NumberRule.Reorders (numberRule c members) (numberRule c' others) := by
  refine .bind_eq (numericFormat_of_matches h _ _) fun format => ?_
  refine .bind_eq (limit_of_matches h _ _) fun minimum => ?_
  refine .bind_eq (limit_of_matches h _ _) fun maximum => ?_
  exact (enumeration_of_matches h).bind fun _ _ hvalues => .ok ⟨hc, hvalues, rfl⟩

theorem stringRule_of_matches (formats : FormatRegistry) :
    SucceedTogether StringRule.Reorders (stringRule formats c members)
      (stringRule formats c' others) := by
  refine .bind_eq (text_of_matches h _) fun format => ?_
  refine .bind_eq (pattern_of_matches h) fun pattern => ?_
  refine .bind_eq (count_of_matches h _) fun minLength => ?_
  refine .bind_eq (count_of_matches h _) fun maxLength => ?_
  exact (enumeration_of_matches h).bind fun _ _ hvalues => .ok ⟨hc, hvalues, rfl⟩

theorem arrayRule_of_matches :
    SucceedTogether ArrayRule.Reorders (arrayRule c members) (arrayRule c' others) := by
  refine .bind_eq (count_of_matches h _) fun minItems => ?_
  refine .bind_eq (count_of_matches h _) fun maxItems => ?_
  exact .bind_eq (flag_of_matches h _) fun uniqueItems => .ok ⟨hc, rfl⟩

theorem objectRule_of_matches (required : List String) :
    SucceedTogether ObjectRule.Reorders (objectRule c required members)
      (objectRule c' required others) := by
  refine .bind_eq (count_of_matches h _) fun minProperties => ?_
  exact .bind_eq (count_of_matches h _) fun maxProperties => .ok ⟨hc, rfl⟩

end

/-! ## Reading discriminators -/

section

variable {names : List (Option String)} {targets : Entries Nat}

/-- The branch that a mapping points at. -/
def targetOf (names : List (Option String)) (v : Json) : Option Nat :=
  v.string?.bind fun target => names.findIdx? (· == some (Reference.lastSegment target))

/-- A mapping succeeds exactly where each of its targets is a branch, and then its names are filed
over what was there. -/
theorem mappedTargets_eq_ok_iff {mapping : Entries Json} {found : Entries Nat} :
    mappedTargets names targets mapping = .ok found ↔
      ∃ news, Entries.Along (fun v i => targetOf names v = some i) mapping news ∧
        Entries.fileAll news targets = found := by
  induction mapping generalizing targets with
  | nil => simp [mappedTargets, Entries.Along, Entries.fileAll]
  | cons m rest ih =>
      obtain ⟨name, v⟩ := m
      have hstep : mappedTargets names targets ((name, v) :: rest) = .ok found ↔
          ∃ i, targetOf names v = some i ∧
            mappedTargets names (Entries.file name i targets) rest = .ok found := by
        rw [mappedTargets, targetOf]
        cases v.string? with
        | none => simp
        | some target =>
            cases hfound : names.findIdx? (· == some (Reference.lastSegment target)) with
            | none => simp [hfound]
            | some i => simp [hfound]
      rw [hstep]
      constructor
      · rintro ⟨i, hi, hrest⟩
        obtain ⟨news, hnews, rfl⟩ := ih.mp hrest
        exact ⟨(name, i) :: news, .cons ⟨rfl, hi⟩ hnews, rfl⟩
      · rintro ⟨news, hnews, rfl⟩
        obtain ⟨⟨_, i⟩, news', ⟨rfl, hi⟩, hnews', rfl⟩ := List.forall₂_cons_left_iff.mp hnews
        exact ⟨i, hi, ih.mpr ⟨news', hnews', rfl⟩⟩

theorem exists_mappedTargets_iff {mapping : Entries Json} :
    (∃ found, mappedTargets names targets mapping = .ok found) ↔
      ∃ news, Entries.Along (fun v i => targetOf names v = some i) mapping news := by
  constructor
  · rintro ⟨found, hfound⟩
    obtain ⟨news, hnews, -⟩ := mappedTargets_eq_ok_iff.mp hfound
    exact ⟨news, hnews⟩
  · rintro ⟨news, hnews⟩
    exact ⟨_, mappedTargets_eq_ok_iff.mpr ⟨news, hnews, rfl⟩⟩

/-- Aliases are distinct, so whichever is filed last makes no difference. -/
theorem mappedTargets_of_matches {mapping mapping' : Entries Json} (ht : Entries.Ascending targets)
    (h : Entries.Matches Json.Reorders mapping mapping') (hd : (Entries.keys mapping).Nodup)
    (hd' : (Entries.keys mapping').Nodup) :
    SucceedTogether Eq (mappedTargets names targets mapping)
      (mappedTargets names targets mapping') := by
  have htarget : ∀ e ∈ mapping, ∀ f ∈ mapping', Json.Reorders e.2 f.2 →
      targetOf names f.2 = targetOf names e.2 := by
    intro e _ f _ hef
    rw [targetOf, targetOf, hef.string?_eq]
  apply SucceedTogether.of_iff
  · rw [exists_mappedTargets_iff, exists_mappedTargets_iff]
    exact h.exists_along_iff hd hd' fun e he f hf hef => by rw [htarget e he f hf hef]
  · intro found found' hfound hfound'
    obtain ⟨news, hnews, rfl⟩ := mappedTargets_eq_ok_iff.mp hfound
    obtain ⟨news', hnews', rfl⟩ := mappedTargets_eq_ok_iff.mp hfound'
    have hmatches : Entries.Matches Eq news news' := by
      refine h.of_along hnews hnews' fun e he f hf hef i j hi hj => ?_
      rw [htarget e he f hf hef, hi] at hj
      exact Option.some.inj hj
    refine (ht.fileAll news).ext (ht.fileAll news') fun key => ?_
    rw [Entries.get?_fileAll_of_nodup (hnews.keys_eq ▸ hd),
      Entries.get?_fileAll_of_nodup (hnews'.keys_eq ▸ hd')]
    exact hmatches.elim key rfl fun i j hij => by rw [hij]

theorem ascending_ownTargets (names : List (Option String)) :
    Entries.Ascending (ownTargets names) := Entries.ascending_sorted _

/-- Branches that differ in order go by the same names. -/
theorem branchName_of_reorders {b b' : Json} (h : Json.Reorders b b') (hb : b.WellFormed) :
    branchName b' = branchName b := by
  rw [branchName, branchName, h.member?_string?_eq hb]

theorem branchNames_of_reorders {bs bs' : List Json} (h : List.Forall₂ Json.Reorders bs bs')
    (hbs : ∀ b ∈ bs, b.WellFormed) : bs'.map branchName = bs.map branchName := by
  induction h with
  | nil => rfl
  | cons hb _ ih =>
      rw [List.forall_mem_cons] at hbs
      rw [List.map_cons, List.map_cons, branchName_of_reorders hb hbs.1, ih hbs.2]

/-- The member that a discriminator goes by. -/
def propertyOf (definition : Json) : Except CompileError String :=
  match (definition.member? "propertyName").bind Json.string? with
  | some p => .ok p
  | none => .error (.discriminator "propertyName is required")

/-- The targets that a discriminator knows. -/
def targetsOf (names : List (Option String)) (definition : Json) :
    Except CompileError (Entries Nat) :=
  match definition.member? "mapping" with
  | none => .ok (ownTargets names)
  | some (.object mapping) => mappedTargets names (ownTargets names) mapping
  | some _ => .error (.discriminator "mapping must be an object")

/-- The reader of discriminators in steps: its property, its targets, and the check that there are
any. -/
theorem discriminatorOf_eq (definition : Json) (branches : List Json) :
    discriminatorOf definition branches = (do
      let property ← propertyOf definition
      let targets ← targetsOf (branches.map branchName) definition
      if targets.isEmpty then
        .error (.discriminator "no branch can be selected; use $ref branches or a mapping")
      else .ok ⟨property, targets⟩) := by
  unfold discriminatorOf propertyOf targetsOf
  cases (definition.member? "propertyName").bind Json.string? with
  | none => rfl
  | some p =>
      cases definition.member? "mapping" with
      | none => rfl
      | some v => cases v <;> rfl

/-- The targets do not depend on the order in which a mapping lists its names. -/
theorem targetsOf_of_reorders {definition definition' : Json}
    (h : Json.Reorders definition definition') (hd : definition.WellFormed) :
    SucceedTogether Eq (targetsOf names definition) (targetsOf names definition') := by
  have hmapping := h.member? hd "mapping"
  unfold targetsOf
  generalize definition.member? "mapping" = v at hmapping ⊢
  generalize definition'.member? "mapping" = w at hmapping ⊢
  cases hmapping with
  | none => exact .ok rfl
  | some hvw =>
      obtain ⟨hv, hvw⟩ := hvw
      have hw := hvw.wellFormed hv
      cases hvw with
      | object hkeys hvalues =>
          exact mappedTargets_of_matches (ascending_ownTargets names)
            ((Json.Reorders.object hkeys hvalues).matches hv) (Json.wellFormed_object.mp hv).1
            (Json.wellFormed_object.mp hw).1
      | _ => exact .error _ _

theorem discriminatorOf_of_reorders {definition definition' : Json} {bs bs' : List Json}
    (h : Json.Reorders definition definition') (hd : definition.WellFormed)
    (hbs : List.Forall₂ Json.Reorders bs bs') (hwf : ∀ b ∈ bs, b.WellFormed) :
    SucceedTogether Eq (discriminatorOf definition bs) (discriminatorOf definition' bs') := by
  rw [discriminatorOf_eq, discriminatorOf_eq, branchNames_of_reorders hbs hwf]
  have hproperty : propertyOf definition' = propertyOf definition := by
    rw [propertyOf, propertyOf, h.member?_string?_eq hd]
  refine .bind_eq hproperty fun property => ?_
  refine (targetsOf_of_reorders h hd).bind ?_
  rintro targets _ rfl
  exact .of_eq rfl

/-- Nor does the discriminator of a schema depend on the order of members. -/
theorem discriminator_of_matches {members others : Entries Json} {bs bs' : List Json}
    (h : Entries.Matches Json.Reorders members others) (hm : (Json.object members).WellFormed)
    (hbs : List.Forall₂ Json.Reorders bs bs') (hwf : ∀ b ∈ bs, b.WellFormed) :
    SucceedTogether Eq (discriminator members bs) (discriminator others bs') := by
  have hdefinition : ∀ v ∈ Entries.get? "discriminator" members, v.WellFormed :=
    fun v hv => Json.wellFormed_of_get? hm hv
  unfold discriminator
  revert hdefinition
  refine h.elim "discriminator" (fun _ => .ok rfl) fun v w hvw hdefinition => ?_
  refine (discriminatorOf_of_reorders hvw (hdefinition v rfl) hbs hwf).map ?_
  rintro d _ rfl
  rfl

end

end Keyword

end SchemaGate
