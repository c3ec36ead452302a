import Mathlib.Data.List.Forall2
import SchemaGate.Credential.Requirement
import SchemaGate.Proofs.Entries
import SchemaGate.Proofs.Lists

/-!
# What a requirement answers

The two ways of joining requirements, read off their lists:

* all members must succeed, and the first that does not decides the failure
  (`checkAllOf_eq_ok_iff`, `checkAllOf_eq_error_iff`);
* the first member that succeeds decides the credentials, and if none does the first member
  decides the failure (`checkAnyOf_eq_ok_iff`, `checkAnyOf_eq_error_iff`).

A failure is never without an entry: it is one message, alone or under one name
(`check_error_isComplaint`). What succeeds finds each credential once, in the order of the names
(`ascending_of_check`). Neither depends on more of a surface than what the leaves read of it
(`check_congr`).
-/

namespace SchemaGate

/-- One message, alone or under one name. -/
inductive ErrorTree.IsComplaint : ErrorTree → Prop
  | message (text : String) : IsComplaint (.message text)
  | under (name text : String) : IsComplaint (.under name (.message text))

namespace Requirement

/-- Induction over the members of a requirement. -/
theorem induct {P : Requirement → Prop} (basic : P basic) (bearer : P bearer)
    (apiKey : ∀ place name, P (apiKey place name))
    (all : ∀ members : List Requirement, (∀ r ∈ members, P r) → P (all members))
    (any : ∀ members : List Requirement, (∀ r ∈ members, P r) → P (any members))
    (optional : ∀ inner, P inner → P (optional inner)) (r : Requirement) : P r := by
  refine @Requirement.rec P (fun rs => ∀ r ∈ rs, P r) basic bearer apiKey all any optional
    ?_ ?_ r
  · exact fun r hr => absurd hr List.not_mem_nil
  · exact fun r rs hr hrs => List.forall_mem_cons.mpr ⟨hr, hrs⟩

/-- The surface satisfies the requirement. -/
def Accepts (r : Requirement) (s : CredentialSurface) : Prop := ∃ found, check r s = .ok found

theorem not_accepts_iff {r : Requirement} {s : CredentialSurface} :
    ¬ r.Accepts s ↔ ∃ e, check r s = .error e := by
  rw [Accepts]
  cases check r s <;> simp

/-! ## All members -/

/-- Every member succeeds, and later credentials go before earlier ones of the same name. -/
theorem checkAllOf_eq_ok_iff {members : List Requirement} {s : CredentialSurface}
    {found result : Credentials} :
    checkAllOf members s found = .ok result ↔
      ∃ parts, List.Forall₂ (fun r part => check r s = .ok part) members parts ∧
        parts.foldl (fun acc part => Entries.fileAll part acc) found = result := by
  induction members generalizing found with
  | nil =>
      rw [checkAllOf]
      constructor
      · rintro ⟨⟩
        exact ⟨[], .nil, rfl⟩
      · rintro ⟨parts, hparts, rfl⟩
        cases hparts
        rfl
  | cons r rest ih =>
      rw [checkAllOf]
      cases hr : check r s with
      | error e =>
          constructor
          · rintro ⟨⟩
          · rintro ⟨parts, hparts, -⟩
            obtain ⟨part, parts', hpart, -, -⟩ := List.forall₂_cons_left_iff.mp hparts
            rw [hr] at hpart
            cases hpart
      | ok more =>
          show checkAllOf rest s (Entries.fileAll more found) = .ok result ↔ _
          rw [ih]
          constructor
          · rintro ⟨parts, hparts, rfl⟩
            exact ⟨more :: parts, .cons hr hparts, rfl⟩
          · rintro ⟨parts, hparts, rfl⟩
            obtain ⟨part, parts', hpart, hparts', rfl⟩ := List.forall₂_cons_left_iff.mp hparts
            rw [hr] at hpart
            cases hpart
            exact ⟨parts', hparts', rfl⟩

/-- The first member that fails decides the failure. -/
theorem checkAllOf_eq_error_iff {members : List Requirement} {s : CredentialSurface}
    {found : Credentials} {e : ErrorTree} :
    checkAllOf members s found = .error e ↔
      ∃ r, FirstWhere (fun q => ¬ q.Accepts s) members r ∧ check r s = .error e := by
  induction members generalizing found with
  | nil => simp [checkAllOf, FirstWhere.not_nil]
  | cons r rest ih =>
      rw [checkAllOf]
      cases hr : check r s with
      | error e' =>
          have hfirst : ∀ q, FirstWhere (fun q => ¬ q.Accepts s) (r :: rest) q ↔ q = r :=
            fun q => FirstWhere.cons_of_pos (not_accepts_iff.mpr ⟨e', hr⟩)
          simp only [hfirst, exists_eq_left, hr]
      | ok more =>
          have hfirst : ∀ q, FirstWhere (fun q => ¬ q.Accepts s) (r :: rest) q ↔
              FirstWhere (fun q => ¬ q.Accepts s) rest q :=
            fun q => FirstWhere.cons_of_neg (not_not.mpr ⟨more, hr⟩)
          simp only [hfirst, ih]

/-! ## One of several members -/

/-- The first member that succeeds decides the credentials. -/
theorem checkAnyOf_eq_ok_iff {members : List Requirement} {s : CredentialSurface}
    {result : Credentials} :
    checkAnyOf members s = .ok result ↔
      ∃ r, FirstWhere (fun q => q.Accepts s) members r ∧ check r s = .ok result := by
  induction members with
  | nil => simp [checkAnyOf, FirstWhere.not_nil]
  | cons r rest ih =>
      rw [checkAnyOf]
      cases hr : check r s with
      | ok found =>
          have hfirst : ∀ q, FirstWhere (fun q => q.Accepts s) (r :: rest) q ↔ q = r :=
            fun q => FirstWhere.cons_of_pos ⟨found, hr⟩
          simp [hfirst, hr]
      | error e =>
          have hfirst : ∀ q, FirstWhere (fun q => q.Accepts s) (r :: rest) q ↔
              FirstWhere (fun q => q.Accepts s) rest q :=
            fun q => FirstWhere.cons_of_neg (not_accepts_iff.mpr ⟨e, hr⟩)
          simp only [hfirst, ← ih]
          cases checkAnyOf rest s <;> simp

/-- One accepted member is enough. -/
theorem exists_checkAnyOf_iff {members : List Requirement} {s : CredentialSurface} :
    (∃ found, checkAnyOf members s = .ok found) ↔ ∃ q ∈ members, q.Accepts s := by
  refine Iff.trans ⟨?_, ?_⟩ FirstWhere.exists_iff
  · rintro ⟨found, h⟩
    obtain ⟨q, hq, -⟩ := checkAnyOf_eq_ok_iff.mp h
    exact ⟨q, hq⟩
  · rintro ⟨q, hq⟩
    obtain ⟨found, hfound⟩ := hq.holds
    exact ⟨found, checkAnyOf_eq_ok_iff.mpr ⟨q, hq, hfound⟩⟩

/-- If no member succeeds, the first one decides the failure. -/
theorem checkAnyOf_eq_error_iff {r : Requirement} {rest : List Requirement}
    {s : CredentialSurface} {e : Option ErrorTree} :
    checkAnyOf (r :: rest) s = .error e ↔
      (∀ q ∈ r :: rest, ¬ q.Accepts s) ∧ ∃ e', check r s = .error e' ∧ some e' = e := by
  cases h : checkAnyOf (r :: rest) s with
  | ok found =>
      obtain ⟨q, hq, haccepts⟩ := exists_checkAnyOf_iff.mp ⟨found, h⟩
      constructor
      · rintro ⟨⟩
      · rintro ⟨hnone, -⟩
        exact absurd haccepts (hnone q hq)
  | error found =>
      have hnone : ∀ q ∈ r :: rest, ¬ q.Accepts s := by
        intro q hq haccepts
        obtain ⟨result, hresult⟩ := exists_checkAnyOf_iff.mpr ⟨q, hq, haccepts⟩
        rw [h] at hresult
        cases hresult
      obtain ⟨e', he'⟩ := not_accepts_iff.mp (hnone r List.mem_cons_self)
      have hfound : some e' = found := by
        rw [checkAnyOf, he'] at h
        cases hrest : checkAnyOf rest s <;> simp_all
      subst hfound
      constructor
      · rintro ⟨⟩
        exact ⟨hnone, e', he', rfl⟩
      · rintro ⟨-, e'', he'', rfl⟩
        rw [he'] at he''
        cases he''
        rfl

theorem check_any_eq_ok_iff {members : List Requirement} {s : CredentialSurface}
    {found : Credentials} :
    check (any members) s = .ok found ↔ checkAnyOf members s = .ok found := by
  rw [check]
  cases checkAnyOf members s with
  | ok result => simp
  | error e => cases e <;> simp

theorem check_any_eq_error_iff {r : Requirement} {rest : List Requirement}
    {s : CredentialSurface} {e : ErrorTree} :
    check (any (r :: rest)) s = .error e ↔ checkAnyOf (r :: rest) s = .error (some e) := by
  rw [check]
  cases h : checkAnyOf (r :: rest) s with
  | ok result => simp
  | error found =>
      obtain ⟨-, e', -, rfl⟩ := checkAnyOf_eq_error_iff.mp h
      simp

/-! ## Failures -/

/-- What is wrong with a header is said in one message under its name. -/
theorem checkScheme_isComplaint {scheme : String} {header : Option String} {e : ErrorTree}
    (h : checkScheme scheme header = .error e) : e.IsComplaint := by
  unfold checkScheme at h
  split at h
  · cases h
    exact .under _ _
  · simp only at h
    split at h
    · cases h
    · cases h
      exact .under _ _

/-- What is wrong with a key is said in one message under its name. -/
theorem checkKey_isComplaint {name : String} {value : Option String} {e : ErrorTree}
    (h : checkKey name value = .error e) : e.IsComplaint := by
  unfold checkKey at h
  split at h
  · cases h
    exact .under _ _
  · split at h
    · cases h
      exact .under _ _
    · cases h

/-- A failure names what is missing, so that it is never lost among others. -/
theorem check_error_isComplaint {r : Requirement} {s : CredentialSurface} {e : ErrorTree}
    (h : check r s = .error e) : e.IsComplaint := by
  induction r using induct generalizing e with
  | basic =>
      rw [check] at h
      exact checkScheme_isComplaint h
  | bearer =>
      rw [check] at h
      exact checkScheme_isComplaint h
  | apiKey place name =>
      rw [check] at h
      exact checkKey_isComplaint h
  | all members ih =>
      rw [check] at h
      obtain ⟨r, hr, he⟩ := checkAllOf_eq_error_iff.mp h
      exact ih r hr.mem he
  | any members ih =>
      cases members with
      | nil =>
          rw [check, checkAnyOf] at h
          cases h
          exact .message _
      | cons r rest =>
          rw [check] at h
          cases hany : checkAnyOf (r :: rest) s with
          | ok found =>
              rw [hany] at h
              cases h
          | error e' =>
              obtain ⟨-, e'', he'', rfl⟩ := checkAnyOf_eq_error_iff.mp hany
              rw [hany] at h
              cases h
              exact ih r List.mem_cons_self he''
  | optional inner ih =>
      rw [check] at h
      cases hinner : check inner s with
      | ok found =>
          rw [hinner] at h
          cases h
      | error e' =>
          rw [hinner] at h
          cases h

/-! ## Credentials -/

theorem ascending_singleton (name value : String) :
    Entries.Ascending [(name, value)] := by
  rw [Entries.Ascending, Entries.keys]
  exact List.pairwise_singleton _ _

theorem ascending_of_checkScheme {scheme : String} {header : Option String} {found : Credentials}
    (h : checkScheme scheme header = .ok found) : Entries.Ascending found := by
  unfold checkScheme at h
  split at h
  · cases h
  · simp only at h
    split at h
    · cases h
      exact ascending_singleton _ _
    · cases h

theorem ascending_of_checkKey {name : String} {value : Option String} {found : Credentials}
    (h : checkKey name value = .ok found) : Entries.Ascending found := by
  unfold checkKey at h
  split at h
  · cases h
  · split at h
    · cases h
    · cases h
      exact ascending_singleton _ _

/-- Credentials are filed under their names, whichever members found them. -/
theorem ascending_of_check {r : Requirement} {s : CredentialSurface} {found : Credentials}
    (h : check r s = .ok found) : Entries.Ascending found := by
  induction r using induct generalizing found with
  | basic =>
      rw [check] at h
      exact ascending_of_checkScheme h
  | bearer =>
      rw [check] at h
      exact ascending_of_checkScheme h
  | apiKey place name =>
      rw [check] at h
      exact ascending_of_checkKey h
  | all members ih =>
      rw [check] at h
      obtain ⟨parts, -, rfl⟩ := checkAllOf_eq_ok_iff.mp h
      -- filing keeps a table ascending, so it does not matter what the parts are
      have hstep : ∀ acc : Credentials, Entries.Ascending acc →
          Entries.Ascending (parts.foldl (fun acc part => Entries.fileAll part acc) acc) := by
        clear h
        induction parts with
        | nil => exact fun acc hacc => hacc
        | cons part rest ihparts => exact fun acc hacc => ihparts _ (hacc.fileAll part)
      exact hstep [] Entries.ascending_nil
  | any members ih =>
      rw [check] at h
      split at h
      · rename_i hany
        cases h
        obtain ⟨r, hr, hfound⟩ := checkAnyOf_eq_ok_iff.mp hany
        exact ih r hr.mem hfound
      · cases h
      · cases h
  | optional inner ih =>
      rw [check] at h
      split at h
      · rename_i hinner
        cases h
        exact ih hinner
      · cases h
        exact Entries.ascending_nil

/-! ## What is read -/

/-- Some leaf of the requirement looks for this name in this place. -/
inductive Reads : Requirement → KeyPlace → String → Prop
  | basic : Reads basic .header authorization
  | bearer : Reads bearer .header authorization
  | apiKey {place : KeyPlace} {name : String} : Reads (apiKey place name) place name
  | all {members : List Requirement} {r : Requirement} {place : KeyPlace} {name : String} :
      r ∈ members → Reads r place name → Reads (all members) place name
  | any {members : List Requirement} {r : Requirement} {place : KeyPlace} {name : String} :
      r ∈ members → Reads r place name → Reads (any members) place name
  | optional {inner : Requirement} {place : KeyPlace} {name : String} :
      Reads inner place name → Reads (optional inner) place name

section

variable {s s' : CredentialSurface}

/-- Surfaces that all members take alike are taken alike by all of them together. -/
theorem checkAllOf_congr {members : List Requirement}
    (h : ∀ r ∈ members, check r s = check r s') (found : Credentials) :
    checkAllOf members s found = checkAllOf members s' found := by
  induction members generalizing found with
  | nil => rw [checkAllOf, checkAllOf]
  | cons r rest ih =>
      rw [checkAllOf, checkAllOf, h r List.mem_cons_self]
      cases check r s' with
      | error e => rfl
      | ok more => exact ih (fun q hq => h q (List.mem_cons_of_mem r hq)) _

theorem checkAnyOf_congr {members : List Requirement}
    (h : ∀ r ∈ members, check r s = check r s') :
    checkAnyOf members s = checkAnyOf members s' := by
  induction members with
  | nil => rw [checkAnyOf, checkAnyOf]
  | cons r rest ih =>
      rw [checkAnyOf, checkAnyOf, h r List.mem_cons_self,
        ih fun q hq => h q (List.mem_cons_of_mem r hq)]

/-- Surfaces that the leaves cannot tell apart are answered alike. -/
theorem check_congr {r : Requirement}
    (h : ∀ place name, r.Reads place name →
      KeyPlace.read place s name = KeyPlace.read place s' name) :
    check r s = check r s' := by
  induction r using induct with
  | basic =>
      have hheader : s.header authorization = s'.header authorization :=
        h .header authorization .basic
      rw [check, check, hheader]
  | bearer =>
      have hheader : s.header authorization = s'.header authorization :=
        h .header authorization .bearer
      rw [check, check, hheader]
  | apiKey place name => rw [check, check, h place name .apiKey]
  | all members ih =>
      rw [check, check]
      exact checkAllOf_congr (fun r hr => ih r hr fun p n hreads => h p n (.all hr hreads)) []
  | any members ih =>
      rw [check, check]
      rw [checkAnyOf_congr fun r hr => ih r hr fun p n hreads => h p n (.any hr hreads)]
  | optional inner ih =>
      rw [check, check, ih fun p n hreads => h p n (.optional hreads)]

end

end Requirement

end SchemaGate
