import Mathlib
import SchemaGate.Proofs.Credential.Scheme

/-!
# What compiled security means

The security of an operation is a list of alternatives, each of which names schemes. Read as such
(`AlternativeOf`), a policy is a list of lists of schemes: to satisfy it is to satisfy every
scheme of some alternative. The compiled requirement has special cases for one scheme, for one
alternative and for an alternative without schemes, and none of them changes that
(`Requirement.compile_means`).

* `Requirement.check_alternative_eq_ok_iff` and `Requirement.check_alternative_eq_error_iff` say
  what a compiled alternative answers;
* `Requirement.check_ofNamed_eq_ok_iff` and `Requirement.check_ofNamed_eq_error` say
  it of several alternatives that all name schemes;
* `Policy.Finds` and `Policy.Complains` are what a policy answers as a whole.
-/

namespace SchemaGate

/-- A security policy: alternatives of schemes. -/
abbrev Policy := List (List Scheme)

/-- The definition of a scheme among the shared ones. -/
def schemeDefinition (components : Option Components) (name : String) : Option Json :=
  (components.bind fun c => c.section? "securitySchemes").bind (Entries.get? name)

/-- The alternative of a document names these schemes, in this order. -/
def AlternativeOf (components : Option Components) (alternative : Json) (a : List Scheme) : Prop :=
  ∃ named, alternative = .object named ∧
    List.Forall₂ (fun name x => ∃ definition,
      schemeDefinition components name = some definition ∧ x.DeclaredBy definition)
      (Entries.keys named) a

/-- Every scheme of the alternative is satisfied. -/
def AllSatisfied (s : CredentialSurface) (a : List Scheme) : Prop := ∀ x ∈ a, x.Satisfied s

namespace Policy

/-- The credentials of a surface that satisfies the policy: those of the first alternative that
names schemes and is satisfied, a later one of the same name before an earlier one, or none if
there is no such alternative. -/
inductive Finds (policy : Policy) (s : CredentialSurface) : Credentials → Prop
  | first {a : List Scheme} {found : Credentials} :
      FirstWhere (fun a => a ≠ [] ∧ AllSatisfied s a) policy a →
      List.Forall₂ (fun x c => x.Grants s c) a found → Finds policy s (Entries.sorted found)
  | nothing : (∀ a ∈ policy, a ≠ [] → ¬ AllSatisfied s a) → Finds policy s []

/-- The failure of a surface that does not satisfy the policy: that of the first scheme that is
not satisfied in the first alternative that names schemes. -/
inductive Complains (policy : Policy) (s : CredentialSurface) : ErrorTree → Prop
  | first {a : List Scheme} {x : Scheme} {e : ErrorTree} :
      FirstWhere (fun a => a ≠ []) policy a → FirstWhere (fun x => ¬ x.Satisfied s) a x →
      x.Complains s e → Complains policy s e

end Policy

namespace Requirement

variable {s : CredentialSurface}

/-! ## One alternative -/

/-- The requirement of an alternative; one without schemes has none. -/
def ofSchemes (a : List Scheme) : Option Requirement :=
  if a = [] then none else some (joined all (a.map Scheme.leaf))

theorem ofName_eq_ok_iff {schemes : Entries Json} {name : String} {r : Requirement} :
    ofName schemes name = .ok r ↔ ∃ x : Scheme, (∃ definition,
      Entries.get? name schemes = some definition ∧ x.DeclaredBy definition) ∧ x.leaf = r := by
  rw [ofName]
  cases Entries.get? name schemes with
  | none => simp
  | some definition => simp [ofScheme_eq_ok_iff]

/-- Compiling an alternative succeeds with the schemes that it names. -/
theorem ofAlternative_eq_ok_iff {components : Option Components} {alternative : Json}
    {r : Option Requirement} :
    ofAlternative components alternative = .ok r ↔
      ∃ a, AlternativeOf components alternative a ∧ ofSchemes a = r := by
  match alternative with
  | .object [] =>
      constructor
      · rintro ⟨⟩
        exact ⟨[], ⟨[], rfl, .nil⟩, rfl⟩
      · rintro ⟨a, ⟨named, hnamed, ha⟩, rfl⟩
        cases hnamed
        cases ha
        rfl
  | .object (m :: rest) =>
      have hnamed : ∀ a, AlternativeOf components (.object (m :: rest)) a ↔
          List.Forall₂ (fun name (x : Scheme) => ∃ definition,
            schemeDefinition components name = some definition ∧ x.DeclaredBy definition)
            (Entries.keys (m :: rest)) a := by
        intro a
        constructor
        · rintro ⟨_, ⟨⟩, ha⟩
          exact ha
        · exact fun ha => ⟨_, rfl, ha⟩
      simp only [hnamed, schemeDefinition, ofAlternative]
      cases components.bind fun c => c.section? "securitySchemes" with
      | none =>
          constructor
          · rintro ⟨⟩
          · rintro ⟨a, ha, -⟩
            cases ha with
            | cons hx _ =>
                obtain ⟨definition, hdefinition, -⟩ := hx
                cases hdefinition
      | some schemes =>
          have hmap : ∀ members : Except CompileError (List Requirement),
              members.map (fun ms => some (joined all ms)) = .ok r ↔
                ∃ ms, members = .ok ms ∧ some (joined all ms) = r := by
            intro members
            cases members <;> simp [Except.map]
          simp only [hmap, mapM_eq_ok_iff, ofName_eq_ok_iff, forall₂_map_iff]
          constructor
          · rintro ⟨_, ⟨a, ha, rfl⟩, rfl⟩
            refine ⟨a, ha, if_neg ?_⟩
            rintro rfl
            cases ha
          · rintro ⟨a, ha, rfl⟩
            refine ⟨_, ⟨a, ha, rfl⟩, (if_neg ?_).symm⟩
            rintro rfl
            cases ha
  | .null | .bool _ | .number _ | .string _ | .array _ =>
      constructor
      · rintro ⟨⟩
      · rintro ⟨a, ⟨named, ⟨⟩, -⟩, -⟩

/-- A scheme that stands alone answers like an alternative of one scheme. -/
theorem check_joined_all (a : List Scheme) :
    check (joined all (a.map Scheme.leaf)) s = checkAllOf (a.map Scheme.leaf) s [] := by
  match a with
  | [] =>
      show check (all []) s = _
      rw [check]
      rfl
  | [x] =>
      show check x.leaf s = checkAllOf [x.leaf] s []
      -- merging one credential into none changes nothing
      rw [checkAllOf]
      cases h : check x.leaf s with
      | error e => rfl
      | ok found =>
          obtain ⟨c, -, rfl⟩ := Scheme.check_leaf_eq_ok_iff.mp h
          show _ = checkAllOf [] s (Entries.fileAll [c] [])
          rw [checkAllOf]
          rfl
  | x :: y :: rest =>
      show check (all ((x :: y :: rest).map Scheme.leaf)) s = _
      rw [check]

/-- The credentials of an alternative are merged in the order of its schemes. -/
theorem check_alternative_eq_ok_iff {a : List Scheme} {result : Credentials} :
    check (joined all (a.map Scheme.leaf)) s = .ok result ↔
      ∃ found, List.Forall₂ (fun x c => x.Grants s c) a found ∧
        Entries.sorted found = result := by
  rw [check_joined_all, checkAllOf_eq_ok_iff]
  simp only [List.forall₂_map_left_iff, Scheme.check_leaf_eq_ok_iff, forall₂_map_iff]
  have hmerged : ∀ found : List (String × String),
      (found.map fun c => [c]).foldl (fun acc part => Entries.fileAll part acc) [] =
        Entries.sorted found := by
    intro found
    rw [List.foldl_map]
    rfl
  constructor
  · rintro ⟨_, ⟨found, hfound, rfl⟩, rfl⟩
    exact ⟨found, hfound, (hmerged found).symm⟩
  · rintro ⟨found, hfound, rfl⟩
    exact ⟨_, ⟨found, hfound, rfl⟩, hmerged found⟩

/-- An alternative is accepted if each of its schemes is satisfied. -/
theorem accepts_alternative_iff {a : List Scheme} :
    (joined all (a.map Scheme.leaf)).Accepts s ↔ AllSatisfied s a := by
  rw [AllSatisfied]
  simp only [Scheme.Satisfied, ← exists_forall₂_iff, Accepts, check_alternative_eq_ok_iff]
  constructor
  · rintro ⟨_, found, h, -⟩
    exact ⟨found, h⟩
  · rintro ⟨found, h⟩
    exact ⟨_, found, h, rfl⟩

/-- The failure of an alternative is that of its first scheme that is not satisfied. -/
theorem check_alternative_eq_error_iff {a : List Scheme} {e : ErrorTree} :
    check (joined all (a.map Scheme.leaf)) s = .error e ↔
      ∃ x, FirstWhere (fun x => ¬ x.Satisfied s) a x ∧ x.Complains s e := by
  rw [check_joined_all, checkAllOf_eq_error_iff]
  simp only [FirstWhere.map_iff, Scheme.accepts_leaf_iff]
  constructor
  · rintro ⟨_, ⟨x, hx, rfl⟩, he⟩
    exact ⟨x, hx, Scheme.check_leaf_eq_error_iff.mp he⟩
  · rintro ⟨x, hx, he⟩
    exact ⟨_, ⟨x, hx, rfl⟩, Scheme.check_leaf_eq_error_iff.mpr he⟩

/-! ## Several alternatives -/

/-- An alternative that stands alone answers like the only one of several. -/
theorem check_joined_any_eq_ok_iff {members : List Requirement} (hm : members ≠ [])
    {found : Credentials} :
    check (joined any members) s = .ok found ↔
      ∃ q, FirstWhere (fun q => q.Accepts s) members q ∧ check q s = .ok found := by
  match members with
  | [] => exact absurd rfl hm
  | [r] =>
      show check r s = .ok found ↔ _
      constructor
      · exact fun h => ⟨r, .here ⟨found, h⟩, h⟩
      · rintro ⟨q, hq, h⟩
        cases List.mem_singleton.mp hq.mem
        exact h
  | r :: q :: rest =>
      show check (any (r :: q :: rest)) s = .ok found ↔ _
      rw [check_any_eq_ok_iff, checkAnyOf_eq_ok_iff]

/-- If no member is accepted, the complaint is that of the first one. -/
theorem check_joined_any_eq_error_iff {members : List Requirement} (hm : members ≠ [])
    {e : ErrorTree} :
    check (joined any members) s = .error e ↔
      (∀ q ∈ members, ¬ q.Accepts s) ∧ ∃ r ∈ members.head?, check r s = .error e := by
  match members with
  | [] => exact absurd rfl hm
  | [r] =>
      show check r s = .error e ↔ _
      simp only [List.mem_singleton, forall_eq, List.head?_cons, Option.mem_some_iff,
        exists_eq_left']
      exact ⟨fun h => ⟨not_accepts_iff.mpr ⟨e, h⟩, h⟩, fun h => h.2⟩
  | r :: q :: rest =>
      show check (any (r :: q :: rest)) s = .error e ↔ _
      rw [check_any_eq_error_iff, checkAnyOf_eq_error_iff]
      simp

/-! ## Policies -/

/-- The alternatives that name schemes. -/
def named (policy : Policy) : Policy := policy.filter fun a => !a.isEmpty

theorem filterMap_ofSchemes (policy : Policy) :
    (policy.map ofSchemes).filterMap id =
      (named policy).map fun a => joined all (a.map Scheme.leaf) := by
  induction policy with
  | nil => rfl
  | cons a rest ih =>
      cases a with
      | nil => exact ih
      | cons x xs =>
          rw [List.map_cons, ofSchemes, if_neg (List.cons_ne_nil x xs)]
          exact congrArg _ ih

theorem firstWhere_named_iff {policy : Policy} {P : List Scheme → Prop} {a : List Scheme} :
    FirstWhere P (named policy) a ↔ FirstWhere (fun a => a ≠ [] ∧ P a) policy a := by
  rw [named, FirstWhere.filter_iff]
  simp only [Bool.not_eq_true', List.isEmpty_eq_false_iff]

theorem mem_named_iff {policy : Policy} {a : List Scheme} :
    a ∈ named policy ↔ a ∈ policy ∧ a ≠ [] := by
  rw [named, List.mem_filter, Bool.not_eq_true', List.isEmpty_eq_false_iff]

theorem named_eq_nil_iff {policy : Policy} : named policy = [] ↔ ∀ a ∈ policy, a = [] := by
  rw [List.eq_nil_iff_forall_not_mem]
  simp only [mem_named_iff, not_and, not_not]

/-- The requirement of all alternatives that name schemes. -/
def ofNamed (policy : Policy) : Requirement :=
  joined any ((named policy).map fun a => joined all (a.map Scheme.leaf))

variable {policy : Policy}

/-- The first alternative that is satisfied gives the credentials, those of all of its schemes. -/
theorem check_ofNamed_eq_ok_iff (hn : named policy ≠ []) {result : Credentials} :
    check (ofNamed policy) s = .ok result ↔
      ∃ a found, FirstWhere (fun a => a ≠ [] ∧ AllSatisfied s a) policy a ∧
        List.Forall₂ (fun x c => x.Grants s c) a found ∧ Entries.sorted found = result := by
  rw [ofNamed, check_joined_any_eq_ok_iff fun h => hn (List.map_eq_nil_iff.mp h)]
  simp only [FirstWhere.map_iff, accepts_alternative_iff, firstWhere_named_iff]
  constructor
  · rintro ⟨_, ⟨a, ha, rfl⟩, hcheck⟩
    obtain ⟨found, hfound, hresult⟩ := check_alternative_eq_ok_iff.mp hcheck
    exact ⟨a, found, ha, hfound, hresult⟩
  · rintro ⟨a, found, ha, hfound, hresult⟩
    exact ⟨_, ⟨a, ha, rfl⟩, check_alternative_eq_ok_iff.mpr ⟨found, hfound, hresult⟩⟩

/-- A policy fails only if no alternative that names schemes is satisfied, and with the complaint of
the first of these. -/
theorem check_ofNamed_eq_error (hn : named policy ≠ []) {e : ErrorTree}
    (h : check (ofNamed policy) s = .error e) :
    (∀ a ∈ policy, a ≠ [] → ¬ AllSatisfied s a) ∧ Policy.Complains policy s e := by
  rw [ofNamed, check_joined_any_eq_error_iff fun h => hn (List.map_eq_nil_iff.mp h)] at h
  obtain ⟨hnone, r, hr, hfirst⟩ := h
  rw [List.head?_map] at hr
  obtain ⟨b, hb, rfl⟩ := Option.map_eq_some_iff.mp hr
  refine ⟨fun a ha hne hsatisfied => ?_, ?_⟩
  · refine hnone _ (List.mem_map_of_mem (mem_named_iff.mpr ⟨ha, hne⟩)) ?_
    exact accepts_alternative_iff.mpr hsatisfied
  · obtain ⟨x, hx, hcomplains⟩ := check_alternative_eq_error_iff.mp hfirst
    obtain ⟨rest, hrest⟩ := List.head?_eq_some_iff.mp hb
    have hhead : FirstWhere (fun _ => True) (named policy) b := hrest ▸ .here trivial
    rw [firstWhere_named_iff] at hhead
    simp only [and_true] at hhead
    exact .first hhead hx hcomplains

theorem accepts_ofNamed_iff (hn : named policy ≠ []) :
    (ofNamed policy).Accepts s ↔ ∃ a ∈ policy, a ≠ [] ∧ AllSatisfied s a := by
  refine Iff.trans ⟨?_, ?_⟩ FirstWhere.exists_iff
  · rintro ⟨result, h⟩
    obtain ⟨a, -, ha, -, -⟩ := (check_ofNamed_eq_ok_iff hn).mp h
    exact ⟨a, ha⟩
  · rintro ⟨a, ha⟩
    obtain ⟨found, hfound⟩ := exists_forall₂_iff.mpr ha.holds.2
    exact ⟨_, (check_ofNamed_eq_ok_iff hn).mpr ⟨a, found, ha, hfound, rfl⟩⟩

/-- What the surface is found to have, in each of the two cases of acceptance. -/
theorem finds_of_check_ofNamed (hn : named policy ≠ []) {result : Credentials}
    (h : check (ofNamed policy) s = .ok result) : Policy.Finds policy s result := by
  obtain ⟨a, found, ha, hfound, rfl⟩ := (check_ofNamed_eq_ok_iff hn).mp h
  exact .first ha hfound

/-! ## Compiled security -/

/-- A list of alternatives is compiled if each of them names schemes that are declared. -/
theorem compile_eq_ok_iff {alternatives : List Json} {components : Option Components}
    {result : Option Requirement} :
    compile (.array alternatives) components = .ok result ↔
      ∃ policy, List.Forall₂ (AlternativeOf components) alternatives policy ∧
        ofAlternatives (policy.map ofSchemes) = result := by
  have hmap : ∀ rs : Except CompileError (List (Option Requirement)),
      rs.map ofAlternatives = .ok result ↔ ∃ qs, rs = .ok qs ∧ ofAlternatives qs = result := by
    intro rs
    cases rs <;> simp [Except.map]
  simp only [compile, hmap, mapM_eq_ok_iff, ofAlternative_eq_ok_iff, forall₂_map_iff]
  constructor
  · rintro ⟨_, ⟨policy, hpolicy, rfl⟩, rfl⟩
    exact ⟨policy, hpolicy, rfl⟩
  · rintro ⟨policy, hpolicy, rfl⟩
    exact ⟨_, ⟨policy, hpolicy, rfl⟩, rfl⟩

/-- An alternative that asks for nothing is one that names no scheme. -/
theorem any_isNone_iff : (policy.map ofSchemes).any Option.isNone = true ↔ [] ∈ policy := by
  rw [List.any_map, List.any_eq_true]
  constructor
  · rintro ⟨a, ha, hnone⟩
    by_cases hne : a = []
    · exact hne ▸ ha
    · simp [ofSchemes, hne] at hnone
  · exact fun h => ⟨[], h, rfl⟩

/-- There is no requirement if no alternative names a scheme; an alternative without schemes
among others makes the requirement optional. -/
theorem ofAlternatives_map_ofSchemes (policy : Policy) :
    (named policy = [] ∧ ofAlternatives (policy.map ofSchemes) = none) ∨
    (named policy ≠ [] ∧ [] ∈ policy ∧
      ofAlternatives (policy.map ofSchemes) = some (optional (ofNamed policy))) ∨
    (named policy ≠ [] ∧ [] ∉ policy ∧
      ofAlternatives (policy.map ofSchemes) = some (ofNamed policy)) := by
  rw [ofAlternatives, filterMap_ofSchemes, ofNamed]
  cases hn : named policy with
  | nil => exact .inl ⟨rfl, rfl⟩
  | cons a rest =>
      by_cases hempty : [] ∈ policy
      · exact .inr (.inl ⟨List.cons_ne_nil a rest, hempty,
          congrArg some (if_pos (any_isNone_iff.mpr hempty))⟩)
      · exact .inr (.inr ⟨List.cons_ne_nil a rest, hempty,
          congrArg some (if_neg fun h => hempty (any_isNone_iff.mp h))⟩)

/-- Compiled security is what the list of alternatives says: nothing if no alternative names a
scheme, else the requirement that some alternative be satisfied. The credentials are those of the
first such alternative that names schemes, and the failure is that of the first scheme that is
not satisfied in the first alternative that names schemes. -/
theorem compile_means {alternatives : List Json} {components : Option Components}
    {result : Option Requirement} (h : compile (.array alternatives) components = .ok result) :
    ∃ policy, List.Forall₂ (AlternativeOf components) alternatives policy ∧
      (result = none ↔ ∀ a ∈ policy, a = []) ∧
      ∀ r, result = some r → ∀ s,
        (r.Accepts s ↔ [] ∈ policy ∨ ∃ a ∈ policy, AllSatisfied s a) ∧
        (∀ found, r.check s = .ok found → Policy.Finds policy s found) ∧
        ∀ e, r.check s = .error e → Policy.Complains policy s e := by
  obtain ⟨policy, hpolicy, hresult⟩ := compile_eq_ok_iff.mp h
  refine ⟨policy, hpolicy, ?_⟩
  rw [← named_eq_nil_iff]
  -- no scheme at all, an alternative without schemes among others, or schemes throughout
  rcases ofAlternatives_map_ofSchemes policy with
    ⟨hnil, heq⟩ | ⟨hn, hempty, heq⟩ | ⟨hn, hempty, heq⟩
  · rw [heq] at hresult
    subst hresult
    exact ⟨iff_of_true rfl hnil, by rintro r ⟨⟩⟩
  · -- an optional requirement accepts every surface
    rw [heq] at hresult
    subst hresult
    refine ⟨iff_of_false (by rintro ⟨⟩) hn, ?_⟩
    rintro r ⟨⟩ s
    have hcheck : ∃ found, check (optional (ofNamed policy)) s = .ok found ∧
        Policy.Finds policy s found := by
      rw [check]
      cases hinner : check (ofNamed policy) s with
      | ok found => exact ⟨found, rfl, finds_of_check_ofNamed hn hinner⟩
      | error e => exact ⟨[], rfl, .nothing (check_ofNamed_eq_error hn hinner).1⟩
    obtain ⟨found, hfound, hfinds⟩ := hcheck
    refine ⟨iff_of_true ⟨found, hfound⟩ (.inl hempty), fun found' h' => ?_, fun e h' => ?_⟩
    · rw [hfound] at h'
      cases h'
      exact hfinds
    · rw [hfound] at h'
      cases h'
  · rw [heq] at hresult
    subst hresult
    refine ⟨iff_of_false (by rintro ⟨⟩) hn, ?_⟩
    rintro r ⟨⟩ s
    refine ⟨?_, fun found => finds_of_check_ofNamed hn,
      fun e he => (check_ofNamed_eq_error hn he).2⟩
    rw [accepts_ofNamed_iff hn]
    constructor
    · rintro ⟨a, ha, -, hsatisfied⟩
      exact .inr ⟨a, ha, hsatisfied⟩
    · rintro (hin | ⟨a, ha, hsatisfied⟩)
      · exact absurd hin hempty
      · refine ⟨a, ha, ?_, hsatisfied⟩
        rintro rfl
        exact hempty ha

/-- A token in a header and a session in a cookie. -/
def sharedSchemes : Components :=
  ⟨[("securitySchemes", .object [
    ("token", .object [("type", .string "http"), ("scheme", .string "Bearer")]),
    ("session", .object [("type", .string "apiKey"), ("in", .string "cookie"),
      ("name", .string "sid")])])]⟩

/-- Either both of them or the session alone. -/
def tokenOrSession : List Json :=
  [.object [("token", .array []), ("session", .array [])], .object [("session", .array [])]]

/-- A session alone is enough, and who has nothing is told that the token is missing. -/
theorem tokenOrSession_means :
    compile (.array tokenOrSession) sharedSchemes =
      .ok (some (any [all [bearer, apiKey .cookie "sid"], apiKey .cookie "sid"])) ∧
    ∃ policy, List.Forall₂ (AlternativeOf sharedSchemes) tokenOrSession policy ∧
      Policy.Finds policy (HeldCredentials.surface { cookies := [("sid", "42")] })
        [("sid", "42")] ∧
      Policy.Complains policy (HeldCredentials.surface {})
        (.under "authorization" (.message "is required")) := by
  have htoken : ∃ definition, schemeDefinition sharedSchemes "token" = some definition ∧
      Scheme.bearer.DeclaredBy definition :=
    ⟨_, by cbv, .bearer (by cbv) (by cbv) (by cbv)⟩
  have hsession : ∃ definition, schemeDefinition sharedSchemes "session" = some definition ∧
      (Scheme.key .cookie "sid").DeclaredBy definition :=
    ⟨_, by cbv, .cookie (by cbv) (by cbv) (by cbv)⟩
  have hcompiled : compile (.array tokenOrSession) sharedSchemes =
      .ok (some (any [all [bearer, apiKey .cookie "sid"], apiKey .cookie "sid"])) := by
    refine compile_eq_ok_iff.mpr ⟨[[.bearer, .key .cookie "sid"], [.key .cookie "sid"]], ?_, rfl⟩
    refine .cons ⟨_, rfl, .cons htoken (.cons hsession .nil)⟩ (.cons ⟨_, rfl, ?_⟩ .nil)
    exact .cons hsession .nil
  obtain ⟨policy, hpolicy, -, hmeans⟩ := compile_means hcompiled
  refine ⟨hcompiled, policy, hpolicy, ?_, ?_⟩
  · exact (hmeans _ rfl _).2.1 _ (by cbv)
  · exact (hmeans _ rfl _).2.2 _ (by cbv)

end Requirement

end SchemaGate
