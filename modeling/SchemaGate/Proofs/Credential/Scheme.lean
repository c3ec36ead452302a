import SchemaGate.Credential.Compile
import SchemaGate.Proofs.Credential.Check

/-!
# Security schemes

What a scheme of a document stands for, and what it means to satisfy it, without the tree that it
is compiled to:

* `Scheme.DeclaredBy` reads a scheme off its definition, and compiling the definition succeeds
  exactly with the leaf of that scheme (`Requirement.ofScheme_eq_ok_iff`);
* `Scheme.Grants` and `Scheme.Complains` say which credential a surface has for a scheme and what
  is wrong with it otherwise, and checking the leaf answers just that
  (`Scheme.check_leaf_eq_ok_iff`, `Scheme.check_leaf_eq_error_iff`).
-/

namespace SchemaGate

/-- A scheme that can be checked. -/
inductive Scheme where
  | basic
  | bearer
  | key (place : KeyPlace) (name : String)

namespace Scheme

/-- The scheme as a requirement of its own. -/
def leaf : Scheme → Requirement
  | basic => .basic
  | bearer => .bearer
  | key place name => .apiKey place name

/-- A member of a definition that is a text. -/
def text (definition : Json) (key : String) : Option String :=
  (definition.member? key).bind Json.string?

/-- The definition declares the scheme. Names of headers are taken in lower case. -/
inductive DeclaredBy (definition : Json) : Scheme → Prop
  | basic {word : String} : text definition "type" = some "http" →
      text definition "scheme" = some word → word.toLower = "basic" → DeclaredBy definition basic
  | bearer {word : String} : text definition "type" = some "http" →
      text definition "scheme" = some word → word.toLower = "bearer" →
      DeclaredBy definition bearer
  | header {name : String} : text definition "type" = some "apiKey" →
      text definition "name" = some name → text definition "in" = some "header" →
      DeclaredBy definition (key .header name.toLower)
  | query {name : String} : text definition "type" = some "apiKey" →
      text definition "name" = some name → text definition "in" = some "query" →
      DeclaredBy definition (key .query name)
  | cookie {name : String} : text definition "type" = some "apiKey" →
      text definition "name" = some name → text definition "in" = some "cookie" →
      DeclaredBy definition (key .cookie name)

/-- The surface satisfies the scheme with this credential. -/
inductive Grants (s : CredentialSurface) : Scheme → String × String → Prop
  | basic {value : String} : s.header "authorization" = some ("Basic " ++ value) →
      Grants s basic ("authorization", value)
  | bearer {value : String} : s.header "authorization" = some ("Bearer " ++ value) →
      Grants s bearer ("authorization", value)
  | key {place : KeyPlace} {name value : String} :
      Requirement.KeyPlace.read place s name = some value → value ≠ "" →
      Grants s (key place name) (name, value)

/-- The surface satisfies the scheme. -/
def Satisfied (s : CredentialSurface) (x : Scheme) : Prop := ∃ c, x.Grants s c

/-- What is wrong with a scheme that the surface does not satisfy. -/
inductive Complains (s : CredentialSurface) : Scheme → ErrorTree → Prop
  | noBasic : s.header "authorization" = none →
      Complains s basic (.under "authorization" (.message "is required"))
  | otherThanBasic {value : String} : s.header "authorization" = some value →
      (∀ rest, value ≠ "Basic " ++ rest) →
      Complains s basic
        (.under "authorization" (.message "value should start with 'Basic' word"))
  | noBearer : s.header "authorization" = none →
      Complains s bearer (.under "authorization" (.message "is required"))
  | otherThanBearer {value : String} : s.header "authorization" = some value →
      (∀ rest, value ≠ "Bearer " ++ rest) →
      Complains s bearer
        (.under "authorization" (.message "value should start with 'Bearer' word"))
  | noKey {place : KeyPlace} {name : String} : Requirement.KeyPlace.read place s name = none →
      Complains s (key place name) (.under name (.message "is required"))
  | emptyKey {place : KeyPlace} {name : String} : Requirement.KeyPlace.read place s name = some "" →
      Complains s (key place name) (.under name (.message "value length should be more than 1"))

end Scheme

namespace Requirement

/-! ## Compiling a definition -/

/-- A definition is compiled to a leaf exactly if it declares one of the three schemes, and to the
leaf of that scheme. -/
theorem ofScheme_eq_ok_iff {name : String} {definition : Json} {r : Requirement} :
    ofScheme name definition = .ok r ↔ ∃ x, Scheme.DeclaredBy definition x ∧ x.leaf = r := by
  constructor
  · intro h
    simp only [ofScheme] at h
    split at h
    · rename_i htype
      split at h
      · rename_i word hscheme
        split at h
        · rename_i hword
          cases h
          exact ⟨.basic, .basic htype hscheme hword, rfl⟩
        · split at h
          · rename_i hword
            cases h
            exact ⟨.bearer, .bearer htype hscheme hword, rfl⟩
          · cases h
      · cases h
    · rename_i htype
      split at h
      · cases h
      · rename_i name hname
        split at h
        · rename_i hplace
          cases h
          exact ⟨_, .header htype hname hplace, rfl⟩
        · rename_i hplace
          cases h
          exact ⟨_, .query htype hname hplace, rfl⟩
        · rename_i hplace
          cases h
          exact ⟨_, .cookie htype hname hplace, rfl⟩
        · cases h
    · cases h
    · cases h
  · rintro ⟨x, hx, rfl⟩
    cases hx with
    | basic htype hscheme hword =>
        simp only [Scheme.text] at htype hscheme
        simp [ofScheme, htype, hscheme, hword, Scheme.leaf]
    | bearer htype hscheme hword =>
        simp only [Scheme.text] at htype hscheme
        simp [ofScheme, htype, hscheme, hword, Scheme.leaf]
    | header htype hname hplace =>
        simp only [Scheme.text] at htype hname hplace
        simp [ofScheme, htype, hname, hplace, Scheme.leaf]
    | query htype hname hplace =>
        simp only [Scheme.text] at htype hname hplace
        simp [ofScheme, htype, hname, hplace, Scheme.leaf]
    | cookie htype hname hplace =>
        simp only [Scheme.text] at htype hname hplace
        simp [ofScheme, htype, hname, hplace, Scheme.leaf]

end Requirement

namespace Scheme

/-! ## Checking a leaf -/

/-- A text starts with a word and a blank if it is these with something behind them. -/
theorem isPrefixOf_iff {word value : String} :
    (word.toList ++ [' ']).isPrefixOf value.toList = true ↔
      ∃ rest, value = word ++ " " ++ rest := by
  rw [List.isPrefixOf_iff_prefix]
  constructor
  · rintro ⟨rest, hrest⟩
    refine ⟨String.ofList rest, String.toList_inj.mp ?_⟩
    rw [← hrest]
    simp
  · rintro ⟨rest, rfl⟩
    exact ⟨rest.toList, by simp⟩

/-- A header has a credential of a scheme if it starts with the scheme's name and a blank. -/
theorem checkScheme_eq_ok_iff {word : String} {header : Option String} {found : Credentials} :
    Requirement.checkScheme word header = .ok found ↔
      ∃ rest, header = some (word ++ " " ++ rest) ∧ [("authorization", rest)] = found := by
  cases header with
  | none => simp [Requirement.checkScheme]
  | some value =>
      simp only [Requirement.checkScheme, Option.some.injEq]
      by_cases hlead : (word.toList ++ [' ']).isPrefixOf value.toList = true
      · rw [if_pos hlead]
        obtain ⟨rest, rfl⟩ := isPrefixOf_iff.mp hlead
        have hdrop : String.ofList ((word ++ " " ++ rest).toList.drop
            (word.toList ++ [' ']).length) = rest := by
          simp
        rw [hdrop]
        constructor
        · rintro ⟨⟩
          exact ⟨rest, rfl, rfl⟩
        · rintro ⟨rest', heq, rfl⟩
          rw [(String.append_right_inj _).mp heq]
          rfl
      · rw [if_neg hlead]
        constructor
        · rintro ⟨⟩
        · rintro ⟨rest, rfl, -⟩
          exact absurd (isPrefixOf_iff.mpr ⟨rest, rfl⟩) hlead

/-- A header is refused if it is not there, or if it does not begin with the word of the scheme and
a space. -/
theorem checkScheme_eq_error_iff {word : String} {header : Option String} {e : ErrorTree} :
    Requirement.checkScheme word header = .error e ↔
      (header = none ∧ .under "authorization" (.message "is required") = e) ∨
      ∃ value, header = some value ∧ (∀ rest, value ≠ word ++ " " ++ rest) ∧
        .under "authorization"
          (.message ("value should start with '" ++ word ++ "' word")) = e := by
  cases header with
  | none => simp [Requirement.checkScheme, Requirement.failure, Requirement.authorization]
  | some value =>
      simp only [Requirement.checkScheme, Requirement.failure, Requirement.authorization,
        reduceCtorEq, false_and, false_or, Option.some.injEq, exists_eq_left']
      by_cases hlead : (word.toList ++ [' ']).isPrefixOf value.toList = true
      · rw [if_pos hlead]
        obtain ⟨rest, hrest⟩ := isPrefixOf_iff.mp hlead
        exact ⟨by rintro ⟨⟩, fun h => absurd hrest (h.1 rest)⟩
      · rw [if_neg hlead]
        have hnone : ∀ rest, value ≠ word ++ " " ++ rest :=
          fun rest hrest => hlead (isPrefixOf_iff.mpr ⟨rest, hrest⟩)
        simp [hnone]

theorem checkKey_eq_ok_iff {name : String} {value : Option String} {found : Credentials} :
    Requirement.checkKey name value = .ok found ↔
      ∃ v, value = some v ∧ v ≠ "" ∧ [(name, v)] = found := by
  cases value with
  | none => simp [Requirement.checkKey]
  | some v => by_cases hv : v = "" <;> simp [Requirement.checkKey, hv]

theorem checkKey_eq_error_iff {name : String} {value : Option String} {e : ErrorTree} :
    Requirement.checkKey name value = .error e ↔
      (value = none ∧ .under name (.message "is required") = e) ∨
      (value = some "" ∧ .under name (.message "value length should be more than 1") = e) := by
  cases value with
  | none => simp [Requirement.checkKey, Requirement.failure]
  | some v => by_cases hv : v = "" <;> simp [Requirement.checkKey, Requirement.failure, hv]

variable {x : Scheme} {s : CredentialSurface}

/-- The leaf answers with the credential that the surface has for the scheme. -/
theorem check_leaf_eq_ok_iff {found : Credentials} :
    x.leaf.check s = .ok found ↔ ∃ c, x.Grants s c ∧ [c] = found := by
  cases x with
  | basic =>
      rw [leaf, Requirement.check, checkScheme_eq_ok_iff]
      constructor
      · rintro ⟨value, hvalue, rfl⟩
        exact ⟨_, .basic hvalue, rfl⟩
      · rintro ⟨c, hc, rfl⟩
        cases hc with
        | basic hvalue => exact ⟨_, hvalue, rfl⟩
  | bearer =>
      rw [leaf, Requirement.check, checkScheme_eq_ok_iff]
      constructor
      · rintro ⟨value, hvalue, rfl⟩
        exact ⟨_, .bearer hvalue, rfl⟩
      · rintro ⟨c, hc, rfl⟩
        cases hc with
        | bearer hvalue => exact ⟨_, hvalue, rfl⟩
  | key place name =>
      rw [leaf, Requirement.check, checkKey_eq_ok_iff]
      constructor
      · rintro ⟨value, hvalue, hne, rfl⟩
        exact ⟨_, .key hvalue hne, rfl⟩
      · rintro ⟨c, hc, rfl⟩
        cases hc with
        | key hvalue hne => exact ⟨_, hvalue, hne, rfl⟩

/-- A leaf fails as its scheme complains, and in no other way. -/
theorem check_leaf_eq_error_iff {e : ErrorTree} : x.leaf.check s = .error e ↔ x.Complains s e := by
  cases x with
  | basic =>
      rw [leaf, Requirement.check, checkScheme_eq_error_iff]
      constructor
      · rintro (⟨hnone, rfl⟩ | ⟨value, hvalue, hother, rfl⟩)
        · exact .noBasic hnone
        · exact .otherThanBasic hvalue hother
      · intro h
        cases h with
        | noBasic hnone => exact .inl ⟨hnone, rfl⟩
        | otherThanBasic hvalue hother => exact .inr ⟨_, hvalue, hother, rfl⟩
  | bearer =>
      rw [leaf, Requirement.check, checkScheme_eq_error_iff]
      constructor
      · rintro (⟨hnone, rfl⟩ | ⟨value, hvalue, hother, rfl⟩)
        · exact .noBearer hnone
        · exact .otherThanBearer hvalue hother
      · intro h
        cases h with
        | noBearer hnone => exact .inl ⟨hnone, rfl⟩
        | otherThanBearer hvalue hother => exact .inr ⟨_, hvalue, hother, rfl⟩
  | key place name =>
      rw [leaf, Requirement.check, checkKey_eq_error_iff]
      constructor
      · rintro (⟨hnone, rfl⟩ | ⟨hempty, rfl⟩)
        · exact .noKey hnone
        · exact .emptyKey hempty
      · intro h
        cases h with
        | noKey hnone => exact .inl ⟨hnone, rfl⟩
        | emptyKey hempty => exact .inr ⟨hempty, rfl⟩

theorem accepts_leaf_iff : x.leaf.Accepts s ↔ x.Satisfied s := by
  simp only [Requirement.Accepts, Satisfied, check_leaf_eq_ok_iff]
  constructor
  · rintro ⟨_, c, hc, -⟩
    exact ⟨c, hc⟩
  · rintro ⟨c, hc⟩
    exact ⟨[c], c, hc, rfl⟩

end Scheme

end SchemaGate
