import Mathlib
import SchemaGate.Proofs.Credential.Scheme

/-!
# Requirements as formulas

A requirement is a formula whose leaves are schemes: `all` is a conjunction, `any` a disjunction,
and what is optional is true (`Requirement.Holds`). Checking a request evaluates the formula and
says more than its value (`Requirement.check_follows_formula`):

* what it finds are credentials of leaves that the surface satisfies
  (`Requirement.grants_of_check`);
* what it complains about is one leaf that the surface does not satisfy, in a table with one entry
  (`Requirement.blames_of_check`), so that a rejection is never mistaken for the absence of errors;
* a surface that knows more (`CredentialSurface.Within`) is not rejected for that
  (`Requirement.Holds.mono`).
-/

namespace SchemaGate

/-! ## Surfaces that know more -/

/-- Wherever the first surface has a value, the second has the same. -/
structure CredentialSurface.Within (s s' : CredentialSurface) : Prop where
  header : ∀ name value, s.header name = some value → s'.header name = some value
  query : ∀ name value, s.query name = some value → s'.query name = some value
  cookie : ∀ name value, s.cookie name = some value → s'.cookie name = some value

/-- What is read from a surface is read from a larger one too. -/
theorem CredentialSurface.Within.read {s s' : CredentialSurface} (h : s.Within s')
    {place : KeyPlace} {name value : String}
    (hread : Requirement.KeyPlace.read place s name = some value) :
    Requirement.KeyPlace.read place s' name = some value := by
  cases place with
  | header => exact h.header name value hread
  | query => exact h.query name value hread
  | cookie => exact h.cookie name value hread

namespace HeldCredentials

variable {held : HeldCredentials} {name value : String}

/-- What is filed under a new name hides nothing. -/
theorem get?_file_of_new {entries : Entries String} (hnew : Entries.get? name entries = none)
    {other found : String} (h : Entries.get? other entries = some found) :
    Entries.get? other (Entries.file name value entries) = some found := by
  have hother : name ≠ other := by
    intro heq
    rw [← heq, hnew] at h
    cases h
  rw [Entries.get?_file, if_neg hother, h]

theorem within_withHeader (hnew : held.surface.header name = none) :
    held.surface.Within (held.withHeader name value).surface :=
  ⟨fun _ _ h => get?_file_of_new hnew h, fun _ _ h => h, fun _ _ h => h⟩

theorem within_withQuery (hnew : held.surface.query name = none) :
    held.surface.Within (held.withQuery name value).surface :=
  ⟨fun _ _ h => h, fun _ _ h => get?_file_of_new hnew h, fun _ _ h => h⟩

theorem within_withCookie (hnew : held.surface.cookie name = none) :
    held.surface.Within (held.withCookie name value).surface :=
  ⟨fun _ _ h => h, fun _ _ h => h, fun _ _ h => get?_file_of_new hnew h⟩

end HeldCredentials

/-! ## Leaves -/

namespace Scheme

variable {x : Scheme} {s s' : CredentialSurface}

/-- The name under which a scheme files its credential and its failure. -/
def credential : Scheme → String
  | basic => Requirement.authorization
  | bearer => Requirement.authorization
  | key _ name => name

theorem Grants.mono (hs : s.Within s') {c : String × String} (h : x.Grants s c) :
    x.Grants s' c := by
  cases h with
  | basic hvalue => exact .basic (hs.header _ _ hvalue)
  | bearer hvalue => exact .bearer (hs.header _ _ hvalue)
  | key hvalue hne => exact .key (hs.read hvalue) hne

theorem Satisfied.mono (hs : s.Within s') (h : x.Satisfied s) : x.Satisfied s' := by
  obtain ⟨c, hc⟩ := h
  exact ⟨c, hc.mono hs⟩

theorem Complains.not_satisfied {e : ErrorTree} (h : x.Complains s e) : ¬ x.Satisfied s := by
  rw [← accepts_leaf_iff, Requirement.not_accepts_iff]
  exact ⟨e, check_leaf_eq_error_iff.mpr h⟩

/-- A scheme complains under the name of its credential, and in one message. -/
theorem Complains.eq_under {e : ErrorTree} (h : x.Complains s e) :
    ∃ text, e = .under x.credential (.message text) := by
  cases h <;> exact ⟨_, rfl⟩

end Scheme

namespace Requirement

variable {r : Requirement} {s s' : CredentialSurface}

/-- Induction with one case for all leaves. -/
theorem induct_leaf {P : Requirement → Prop} (leaf : ∀ x : Scheme, P x.leaf)
    (all : ∀ members : List Requirement, (∀ r ∈ members, P r) → P (all members))
    (any : ∀ members : List Requirement, (∀ r ∈ members, P r) → P (any members))
    (optional : ∀ inner, P inner → P (optional inner)) (r : Requirement) : P r :=
  induct (leaf .basic) (leaf .bearer) (fun place name => leaf (.key place name)) all any optional r

/-- The scheme is a leaf of the requirement. -/
inductive HasLeaf : Requirement → Scheme → Prop
  | leaf (x : Scheme) : HasLeaf x.leaf x
  | all {members : List Requirement} {r : Requirement} {x : Scheme} :
      r ∈ members → HasLeaf r x → HasLeaf (all members) x
  | any {members : List Requirement} {r : Requirement} {x : Scheme} :
      r ∈ members → HasLeaf r x → HasLeaf (any members) x
  | optional {inner : Requirement} {x : Scheme} : HasLeaf inner x → HasLeaf (optional inner) x

/-- The requirement asks for one of no members, and not in an optional part. -/
inductive HasEmptyChoice : Requirement → Prop
  | here : HasEmptyChoice (any [])
  | all {members : List Requirement} {r : Requirement} :
      r ∈ members → HasEmptyChoice r → HasEmptyChoice (all members)
  | any {members : List Requirement} {r : Requirement} :
      r ∈ members → HasEmptyChoice r → HasEmptyChoice (any members)

/-- The value of the formula: satisfied leaves, joined by and, by or, and by nothing. -/
inductive Holds (s : CredentialSurface) : Requirement → Prop
  | leaf {x : Scheme} : x.Satisfied s → Holds s x.leaf
  | all {members : List Requirement} : (∀ r ∈ members, Holds s r) → Holds s (all members)
  | any {members : List Requirement} {r : Requirement} :
      r ∈ members → Holds s r → Holds s (any members)
  | optional {inner : Requirement} : Holds s (optional inner)

/-- What a rejection says: a leaf that is not satisfied complains under the name of its credential,
or there was nothing to choose from. -/
inductive Blames (s : CredentialSurface) (r : Requirement) : ErrorTree → Prop
  | leaf {x : Scheme} {text : String} : r.HasLeaf x → ¬ x.Satisfied s →
      x.Complains s (.under x.credential (.message text)) →
      Blames s r (.under x.credential (.message text))
  | emptyChoice : r.HasEmptyChoice → Blames s r (.message "no auth has been provided")

/-! ## The value of the formula -/

/-- All of the members are accepted if each one is. -/
theorem accepts_all_iff {members : List Requirement} :
    (all members).Accepts s ↔ ∀ r ∈ members, r.Accepts s := by
  simp only [Accepts, ← exists_forall₂_iff, check, checkAllOf_eq_ok_iff]
  constructor
  · rintro ⟨_, parts, hparts, -⟩
    exact ⟨parts, hparts⟩
  · rintro ⟨parts, hparts⟩
    exact ⟨_, parts, hparts, rfl⟩

theorem accepts_any_iff {members : List Requirement} :
    (any members).Accepts s ↔ ∃ r ∈ members, r.Accepts s := by
  rw [← exists_checkAnyOf_iff, Accepts]
  simp only [check_any_eq_ok_iff]

theorem check_optional_eq_ok_iff {inner : Requirement} {found : Credentials} :
    check (optional inner) s = .ok found ↔
      check inner s = .ok found ∨ (¬ inner.Accepts s ∧ found = []) := by
  rw [check, not_accepts_iff]
  cases check inner s <;> simp [eq_comm]

theorem accepts_optional (inner : Requirement) : (optional inner).Accepts s := by
  by_cases h : inner.Accepts s
  · obtain ⟨found, hfound⟩ := h
    exact ⟨found, check_optional_eq_ok_iff.mpr (.inl hfound)⟩
  · exact ⟨[], check_optional_eq_ok_iff.mpr (.inr ⟨h, rfl⟩)⟩

/-- A requirement is met exactly if its formula is true. -/
theorem accepts_iff_holds : r.Accepts s ↔ r.Holds s := by
  constructor
  · intro h
    induction r using induct_leaf with
    | leaf x => exact .leaf (Scheme.accepts_leaf_iff.mp h)
    | all members ih =>
        have hmembers := accepts_all_iff.mp h
        exact .all fun r hr => ih r hr (hmembers r hr)
    | any members ih =>
        obtain ⟨r, hr, haccepts⟩ := accepts_any_iff.mp h
        exact .any hr (ih r hr haccepts)
    | optional inner ih => exact .optional
  · intro h
    induction h with
    | leaf hx => exact Scheme.accepts_leaf_iff.mpr hx
    | all _ ih => exact accepts_all_iff.mpr ih
    | any hr _ ih => exact accepts_any_iff.mpr ⟨_, hr, ih⟩
    | optional => exact accepts_optional _

/-- A formula without negation stays true on a surface that knows more. -/
theorem Holds.mono (hs : s.Within s') (h : r.Holds s) : r.Holds s' := by
  induction h with
  | leaf hx => exact .leaf (hx.mono hs)
  | all _ ih => exact .all ih
  | any hr _ ih => exact .any hr ih
  | optional => exact .optional

/-! ## What is found -/

/-- Whatever members found them, merged credentials are those of some member. -/
theorem exists_part_of_mem_merged {parts : List Credentials} {found : Credentials}
    {c : String × String}
    (h : c ∈ parts.foldl (fun acc part => Entries.fileAll part acc) found) :
    (∃ part ∈ parts, c ∈ part) ∨ c ∈ found := by
  induction parts generalizing found with
  | nil => exact .inr h
  | cons part rest ih =>
      rcases ih h with ⟨other, hother, hc⟩ | hfiled
      · exact .inl ⟨other, List.mem_cons_of_mem part hother, hc⟩
      · rcases Entries.mem_of_mem_fileAll hfiled with hpart | hfound
        · exact .inl ⟨part, List.mem_cons_self, hpart⟩
        · exact .inr hfound

/-- Every credential that is found is one that the surface has for a leaf. -/
theorem grants_of_check {found : Credentials} (h : check r s = .ok found) :
    ∀ c ∈ found, ∃ x, r.HasLeaf x ∧ x.Grants s c := by
  intro c hc
  induction r using induct_leaf generalizing found with
  | leaf x =>
      obtain ⟨c', hgrants, rfl⟩ := Scheme.check_leaf_eq_ok_iff.mp h
      rw [List.mem_singleton.mp hc]
      exact ⟨x, .leaf x, hgrants⟩
  | all members ih =>
      rw [check] at h
      obtain ⟨parts, hparts, rfl⟩ := checkAllOf_eq_ok_iff.mp h
      rcases exists_part_of_mem_merged hc with ⟨part, hpart, hmem⟩ | hnil
      · obtain ⟨r, hr, hcheck⟩ := exists_mem_of_forall₂ hparts hpart
        obtain ⟨x, hx, hgrants⟩ := ih r hr hcheck hmem
        exact ⟨x, .all hr hx, hgrants⟩
      · exact absurd hnil List.not_mem_nil
  | any members ih =>
      obtain ⟨r, hr, hcheck⟩ := checkAnyOf_eq_ok_iff.mp (check_any_eq_ok_iff.mp h)
      obtain ⟨x, hx, hgrants⟩ := ih r hr.mem hcheck hc
      exact ⟨x, .any hr.mem hx, hgrants⟩
  | optional inner ih =>
      rcases check_optional_eq_ok_iff.mp h with hinner | ⟨-, rfl⟩
      · obtain ⟨x, hx, hgrants⟩ := ih hinner hc
        exact ⟨x, .optional hx, hgrants⟩
      · exact absurd hc List.not_mem_nil

/-! ## What is wrong -/

/-- If all alternatives fail, the first one is told. -/
theorem check_any_cons_eq_error_iff {rest : List Requirement} {e : ErrorTree} :
    check (any (r :: rest)) s = .error e ↔
      (∀ q ∈ r :: rest, ¬ q.Holds s) ∧ check r s = .error e := by
  rw [check_any_eq_error_iff, checkAnyOf_eq_error_iff]
  simp only [accepts_iff_holds, Option.some.injEq, exists_eq_right]

/-- Of the members that fail the first one is told. -/
theorem check_all_eq_error_iff {members : List Requirement} {e : ErrorTree} :
    check (all members) s = .error e ↔
      ∃ q, FirstWhere (fun q => ¬ q.Holds s) members q ∧ check q s = .error e := by
  rw [check, checkAllOf_eq_error_iff]
  simp only [accepts_iff_holds]

/-- What is wrong with a member is wrong with a requirement that has the leaves of the member and
its choices. -/
theorem Blames.lift {q : Requirement} {e : ErrorTree} (h : q.Blames s e)
    (hleaf : ∀ x, q.HasLeaf x → r.HasLeaf x) (hchoice : q.HasEmptyChoice → r.HasEmptyChoice) :
    r.Blames s e := by
  cases h with
  | leaf hx hnot hcomplains => exact .leaf (hleaf _ hx) hnot hcomplains
  | emptyChoice hempty => exact .emptyChoice (hchoice hempty)

/-- A rejection blames one leaf, under its name and nothing else, unless nothing could be
chosen. -/
theorem blames_of_check {e : ErrorTree} (h : check r s = .error e) : r.Blames s e := by
  induction r using induct_leaf generalizing e with
  | leaf x =>
      have hcomplains := Scheme.check_leaf_eq_error_iff.mp h
      obtain ⟨text, rfl⟩ := hcomplains.eq_under
      exact .leaf (.leaf x) hcomplains.not_satisfied hcomplains
  | all members ih =>
      obtain ⟨q, hq, hcheck⟩ := check_all_eq_error_iff.mp h
      exact (ih q hq.mem hcheck).lift (fun x hx => .all hq.mem hx) fun hc => .all hq.mem hc
  | any members ih =>
      cases members with
      | nil =>
          rw [check, checkAnyOf] at h
          cases h
          exact .emptyChoice .here
      | cons q rest =>
          obtain ⟨-, hcheck⟩ := check_any_cons_eq_error_iff.mp h
          have hmem : q ∈ q :: rest := List.mem_cons_self
          exact (ih q hmem hcheck).lift (fun x hx => .any hmem hx) fun hc => .any hmem hc
  | optional inner ih =>
      obtain ⟨found, hfound⟩ := accepts_optional (s := s) inner
      rw [h] at hfound
      cases hfound

/-- Checking follows the formula: it succeeds exactly if the formula is true, with credentials of
leaves that are satisfied. It fails with the complaint of one leaf that is not, or for want of
anything to choose from: the first alternative decides of several that fail, and the first member
that fails of those that are needed together. More headers, query values and cookies never turn a
success into a failure. -/
theorem check_follows_formula (r : Requirement) (s : CredentialSurface) :
    (r.Accepts s ↔ r.Holds s) ∧
    (∀ found, check r s = .ok found → ∀ c ∈ found, ∃ x, r.HasLeaf x ∧ x.Grants s c) ∧
    (∀ e, check r s = .error e → r.Blames s e) ∧
    (∀ q rest, r = any (q :: rest) → ∀ e, check r s = .error e ↔
      (∀ p ∈ q :: rest, ¬ p.Holds s) ∧ check q s = .error e) ∧
    (∀ members, r = all members → ∀ e, check r s = .error e ↔
      ∃ q, FirstWhere (fun p => ¬ p.Holds s) members q ∧ check q s = .error e) ∧
    ∀ s', s.Within s' → r.Accepts s → r.Accepts s' := by
  refine ⟨accepts_iff_holds, fun _ => grants_of_check, fun _ => blames_of_check, ?_, ?_, ?_⟩
  · intro q rest hr e
    rw [hr]
    exact check_any_cons_eq_error_iff
  · intro members hr e
    rw [hr]
    exact check_all_eq_error_iff
  · intro s' hs haccepts
    exact accepts_iff_holds.mpr ((accepts_iff_holds.mp haccepts).mono hs)

/-- Who enters needs a token or a session, and always the number of the site; a visitor may say why
he comes. -/
def staffDoor : Requirement :=
  all [any [bearer, apiKey .cookie "sid"], optional (apiKey .query "visit"),
    apiKey .header "x-site"]

/-- A session and the number of a site. -/
def staffPass : HeldCredentials where
  headers := [("x-site", "7")]
  cookies := [("sid", "42")]

/-- The pass opens the door, also together with a header that would not open it alone, and who has
the number only is told that the token is missing. -/
theorem staffDoor_follows :
    staffDoor.check staffPass.surface = .ok [("sid", "42"), ("x-site", "7")] ∧
    staffDoor.Holds staffPass.surface ∧
    staffDoor.Accepts (staffPass.withHeader "Authorization" "Basic eA==").surface ∧
    staffDoor.check (HeldCredentials.surface { headers := [("x-site", "7")] }) =
      .error (.under "authorization" (.message "is required")) ∧
    staffDoor.Blames (HeldCredentials.surface { headers := [("x-site", "7")] })
      (.under "authorization" (.message "is required")) := by
  have hopens : staffDoor.check staffPass.surface = .ok [("sid", "42"), ("x-site", "7")] := by cbv
  have hfails : staffDoor.check (HeldCredentials.surface { headers := [("x-site", "7")] }) =
      .error (.under "authorization" (.message "is required")) := by cbv
  obtain ⟨hvalue, -, -, -, -, hmore⟩ := check_follows_formula staffDoor staffPass.surface
  obtain ⟨-, -, hblames, -, -, -⟩ :=
    check_follows_formula staffDoor (HeldCredentials.surface { headers := [("x-site", "7")] })
  refine ⟨hopens, hvalue.mp ⟨_, hopens⟩, ?_, hfails, hblames _ hfails⟩
  exact hmore _ (HeldCredentials.within_withHeader (by cbv)) ⟨_, hopens⟩

end Requirement

end SchemaGate
