import Mathlib
import SchemaGate.Proofs.Credential.Check
import SchemaGate.Proofs.Schema.Members
import SchemaGate.Request.Bind

/-!
# Binding is all or nothing

A request is bound exactly if nothing about it fails, and else every failure is reported
(`Operation.bind_all_or_nothing`). Whether anything failed is told from the table of errors being
empty, so the point is that no failure is without an entry:

* how a body fares is `RequestBody.Fares`, and a body of a media type that the operation does not
  have is refused before anything else (`Operation.bodyOutcome_eq_error_iff`);
* `Operation.errors` is the table of all failures, and `Operation.get?_errors_eq_some_iff` says
  what stands in it under each name;
* a failure of the security always has an entry, as it is a complaint
  (`Operation.securityErrors_ne_nil`), and it never takes the place of another failure.
-/

namespace SchemaGate

/-! ## Parameters -/

namespace Parameter

/-- The request has what the parameter asks for. -/
structure Accepts (p : Parameter) (r : RequestSurface) : Prop where
  present : ¬ (p.required = true ∧ p.extract r = .absent)
  valid : ∃ f, p.validator.validate (p.extract r) true = .ok f

/-- What is wrong with a parameter: it is not there, or its validator complains. -/
inductive Fails (p : Parameter) (r : RequestSurface) : ErrorTree → Prop
  | missing : p.required = true → p.extract r = .absent → Fails p r requiredError
  | invalid {e : ErrorTree} : ¬ (p.required = true ∧ p.extract r = .absent) →
      p.validator.validate (p.extract r) true = .error e → Fails p r e

/-- A parameter fails in these two ways and in no other. -/
theorem outcome_eq_error_iff {p : Parameter} {r : RequestSurface} {e : ErrorTree} :
    p.outcome r = .error e ↔ p.Fails r e := by
  have hcond : ((p.extract r).isAbsent && p.required) = true ↔
      p.required = true ∧ p.extract r = .absent := by
    rw [Bool.and_eq_true, Field.isAbsent_iff, and_comm]
  rw [outcome]
  by_cases hmissing : p.required = true ∧ p.extract r = .absent
  · rw [if_pos (hcond.mpr hmissing)]
    constructor
    · rintro ⟨⟩
      exact .missing hmissing.1 hmissing.2
    · intro h
      cases h with
      | missing _ _ => rfl
      | invalid hpresent _ => exact absurd hmissing hpresent
  · rw [if_neg fun h => hmissing (hcond.mp h)]
    refine ⟨.invalid hmissing, fun h => ?_⟩
    cases h with
    | missing hrequired habsent => exact absurd ⟨hrequired, habsent⟩ hmissing
    | invalid _ he => exact he

/-- A parameter that is not accepted has an error to report. -/
theorem not_accepts_iff {p : Parameter} {r : RequestSurface} :
    ¬ p.Accepts r ↔ ∃ e, p.outcome r = .error e := by
  simp only [outcome_eq_error_iff]
  constructor
  · intro h
    by_cases hmissing : p.required = true ∧ p.extract r = .absent
    · exact ⟨_, .missing hmissing.1 hmissing.2⟩
    · cases hv : p.validator.validate (p.extract r) true with
      | ok f => exact absurd ⟨hmissing, f, hv⟩ h
      | error e => exact ⟨e, .invalid hmissing hv⟩
  · rintro ⟨e, he⟩ haccepts
    cases he with
    | missing hrequired habsent => exact haccepts.present ⟨hrequired, habsent⟩
    | invalid _ he =>
        obtain ⟨f, hf⟩ := haccepts.valid
        rw [he] at hf
        cases hf

theorem accepts_iff {p : Parameter} {r : RequestSurface} :
    p.Accepts r ↔ ∃ f, p.outcome r = .ok f := by
  rw [← not_iff_not, not_accepts_iff]
  cases p.outcome r <;> simp

end Parameter

/-! ## Bodies -/

/-- What a search finds in a table is what stands there under the first candidate that it has. -/
theorem MediaType.select_get?_eq_some_iff {α : Type} {table : Entries α} {essence : String} {x : α} :
    select (fun key => Entries.get? key table) essence = some x ↔
      ∃ key, FirstWhere (fun key => key ∈ Entries.keys table) (candidates essence) key ∧
        Entries.get? key table = some x := by
  have hfound : ∀ key, key ∈ Entries.keys table ↔ ∃ x, Entries.get? key table = some x := by
    intro key
    rw [← Entries.has_iff, Entries.has, Option.isSome_iff_exists]
  simp only [select, FirstWhere.findSome?_eq_some_iff, hfound]

theorem MediaType.select_get?_eq_none_iff {α : Type} {table : Entries α} {essence : String} :
    select (fun key => Entries.get? key table) essence = none ↔
      ∀ key ∈ candidates essence, key ∉ Entries.keys table := by
  simp only [select, List.findSome?_eq_none_iff, Entries.get?_eq_none_iff]

namespace BodyContent

/-- How the octets of a body fare: the decoder complains of them, there is nothing in them, or what
they say is handed to the validator, if there is one. -/
inductive Fares (c : BodyContent) (required : Bool) (octets : Utf8.Octets) : Outcome → Prop
  | unreadable {complaint : String} : c.decoder.decode octets = .error complaint →
      Fares c required octets (.error (.message complaint))
  | missing {d : Decoded} : c.decoder.decode octets = .ok d → required = true →
      d.value = .absent → Fares c required octets (.error requiredError)
  | unchecked {d : Decoded} : c.decoder.decode octets = .ok d →
      ¬ (required = true ∧ d.value = .absent) → c.validator = none →
      Fares c required octets (.ok d.value)
  | checked {d : Decoded} {v : Validator} : c.decoder.decode octets = .ok d →
      ¬ (required = true ∧ d.value = .absent) → c.validator = some v →
      Fares c required octets (v.validate d.value d.raw)

variable {c : BodyContent} {required : Bool} {octets : Utf8.Octets} {outcome : Outcome}

/-- The octets of a body fare in these four ways and in no other. -/
theorem outcome_eq_iff : c.outcome required octets = outcome ↔ c.Fares required octets outcome := by
  have hcond : ∀ d : Decoded, (d.value.isAbsent && required) = true ↔
      required = true ∧ d.value = .absent := by
    intro d
    rw [Bool.and_eq_true, Field.isAbsent_iff, and_comm]
  constructor
  · rintro rfl
    cases hd : c.decoder.decode octets with
    | error complaint =>
        simp only [BodyContent.outcome, hd]
        exact .unreadable hd
    | ok d =>
        simp only [BodyContent.outcome, hd]
        by_cases hmissing : required = true ∧ d.value = .absent
        · rw [if_pos ((hcond d).mpr hmissing)]
          exact .missing hd hmissing.1 hmissing.2
        · rw [if_neg fun h => hmissing ((hcond d).mp h)]
          cases hv : c.validator with
          | none => exact .unchecked hd hmissing hv
          | some v => exact .checked hd hmissing hv
  · intro h
    cases h with
    | unreadable hd => simp only [BodyContent.outcome, hd]
    | missing hd hrequired habsent =>
        simp only [BodyContent.outcome, hd, if_pos ((hcond _).mpr ⟨hrequired, habsent⟩)]
    | unchecked hd hpresent hv =>
        simp only [BodyContent.outcome, hd, if_neg fun h => hpresent ((hcond _).mp h), hv]
    | checked hd hpresent hv =>
        simp only [BodyContent.outcome, hd, if_neg fun h => hpresent ((hcond _).mp h), hv]

end BodyContent

namespace RequestBody

/-- The body has this content for the media type: that of the most specific key which it has. -/
def Selects (b : RequestBody) (mediaType : String) (c : BodyContent) : Prop :=
  ∃ key, FirstWhere (fun key => key ∈ Entries.keys b.content)
      (MediaType.candidates (MediaType.essence mediaType)) key ∧
    Entries.get? key b.content = some c

/-- How a request fares with the body. Without a media type there is none, which may be wrong;
otherwise the content for the media type decides. -/
inductive Fares (b : RequestBody) (r : RequestSurface) : Outcome → Prop
  | missing : r.contentType = none → b.required = true → Fares b r (.error requiredError)
  | nothing : r.contentType = none → b.required = false → Fares b r (.ok .absent)
  | content {mediaType : String} {c : BodyContent} {outcome : Outcome} :
      r.contentType = some mediaType → b.Selects mediaType c →
      c.Fares b.required r.body outcome → Fares b r outcome

variable {b : RequestBody} {r : RequestSurface} {outcome : Outcome}

theorem select_eq_some_iff {mediaType : String} {c : BodyContent} :
    b.select (MediaType.essence mediaType) = some c ↔ b.Selects mediaType c :=
  MediaType.select_get?_eq_some_iff

/-- A body that is not refused for its media type fares in these three ways and in no other. -/
theorem outcome_eq_ok_iff : b.outcome r = .ok outcome ↔ b.Fares r outcome := by
  constructor
  · intro h
    cases hr : r.contentType with
    | none =>
        cases hrequired : b.required with
        | true =>
            simp only [RequestBody.outcome, hr, hrequired] at h
            cases h
            exact .missing hr hrequired
        | false =>
            simp only [RequestBody.outcome, hr, hrequired] at h
            cases h
            exact .nothing hr hrequired
    | some mediaType =>
        cases hselect : b.select (MediaType.essence mediaType) with
        | none =>
            simp only [RequestBody.outcome, hr, hselect] at h
            cases h
        | some c =>
            simp only [RequestBody.outcome, hr, hselect, Except.ok.injEq] at h
            exact .content hr (select_eq_some_iff.mp hselect) (BodyContent.outcome_eq_iff.mp h)
  · intro h
    cases h with
    | missing hr hrequired => simp [RequestBody.outcome, hr, hrequired]
    | nothing hr hrequired => simp [RequestBody.outcome, hr, hrequired]
    | content hr hselects hfares =>
        have hselect := select_eq_some_iff.mpr hselects
        simp only [RequestBody.outcome, hr, hselect, BodyContent.outcome_eq_iff.mpr hfares]

theorem Fares.unique {outcome' : Outcome} (h : b.Fares r outcome) (h' : b.Fares r outcome') :
    outcome = outcome' :=
  Except.ok.inj ((outcome_eq_ok_iff.mpr h).symm.trans (outcome_eq_ok_iff.mpr h'))

/-- A body is refused for its media type if it has content under none of the candidates. -/
theorem outcome_eq_error_iff {e : BindError} :
    b.outcome r = .error e ↔ ∃ mediaType, r.contentType = some mediaType ∧
      (∀ key ∈ MediaType.candidates (MediaType.essence mediaType),
        key ∉ Entries.keys b.content) ∧
      .unsupportedMediaType (MediaType.essence mediaType) = e := by
  rw [RequestBody.outcome]
  cases r.contentType with
  | none => simp
  | some mediaType =>
      simp only [← MediaType.select_get?_eq_none_iff, Option.some.injEq, exists_eq_left']
      rw [← select]
      cases b.select (MediaType.essence mediaType) <;> simp

end RequestBody

namespace Operation

variable {o : Operation} {r : RequestSurface}

/-! ## What can fail -/

/-- The request has a body of a media type that the operation's body does not have. -/
def Refuses (o : Operation) (r : RequestSurface) (essence : String) : Prop :=
  ∃ b contentType, o.body = some b ∧ r.contentType = some contentType ∧
    MediaType.essence contentType = essence ∧
    ∀ key ∈ MediaType.candidates essence, key ∉ Entries.keys b.content

/-- The body fails. -/
def BodyFails (o : Operation) (r : RequestSurface) (e : ErrorTree) : Prop :=
  ∃ b, o.body = some b ∧ b.Fares r (.error e)

/-- The security fails. -/
def SecurityFails (o : Operation) (r : RequestSurface) (e : ErrorTree) : Prop :=
  ∃ s, o.security = some s ∧ s.check r.toCredentialSurface = .error e

/-- The request has all that the operation asks for. -/
structure Accepts (o : Operation) (r : RequestSurface) : Prop where
  parameters : ∀ p ∈ o.parameters, p.Accepts r
  body : ∀ b, o.body = some b → ∃ f, b.Fares r (.ok f)
  security : ∀ s, o.security = some s → s.Accepts r.toCredentialSurface

/-- What a failure of the security says under a name; a failure that is a leaf goes under the
name of the security. -/
inductive SecurityEntry : ErrorTree → String → ErrorTree → Prop
  | nested {errors : ErrorMap} {k : String} {e : ErrorTree} :
      Entries.get? k errors = some e → SecurityEntry (.nested errors) k e
  | leaf {text : String} : SecurityEntry (.message text) "security" (.message text)

/-- What is reported under a name: the failure of the body under its name, else the failure of
the last parameter of the name that fails, else what the security says. -/
inductive Reports (o : Operation) (r : RequestSurface) : String → ErrorTree → Prop
  | body {e : ErrorTree} : o.BodyFails r e → Reports o r bodyName e
  | parameter {k : String} {p : Parameter} {e : ErrorTree} :
      ¬ (k = bodyName ∧ ∃ e, o.BodyFails r e) →
      LastWhere (fun q => q.name = k ∧ ¬ q.Accepts r) o.parameters p → p.Fails r e →
      Reports o r k e
  | security {k : String} {e entry : ErrorTree} :
      ¬ (k = bodyName ∧ ∃ e, o.BodyFails r e) →
      (∀ p ∈ o.parameters, p.name = k → p.Accepts r) → o.SecurityFails r e →
      SecurityEntry e k entry → Reports o r k entry

/-! ## Media types -/

/-- Only media types are refused before everything else. -/
theorem bodyOutcome_eq_error_iff {e : BindError} :
    o.bodyOutcome r = .error e ↔
      ∃ essence, o.Refuses r essence ∧ .unsupportedMediaType essence = e := by
  rw [bodyOutcome]
  cases hb : o.body with
  | none => simp [Refuses, hb]
  | some b =>
      have hmap : (b.outcome r).map (fun outcome => [(bodyName, outcome)]) = .error e ↔
          b.outcome r = .error e := by
        cases b.outcome r <;> simp [Except.map]
      show (b.outcome r).map (fun outcome => [(bodyName, outcome)]) = .error e ↔ _
      rw [hmap, RequestBody.outcome_eq_error_iff]
      constructor
      · rintro ⟨contentType, hc, hnone, rfl⟩
        exact ⟨_, ⟨b, contentType, hb, hc, rfl, hnone⟩, rfl⟩
      · rintro ⟨_, ⟨b', contentType, hb', hc, rfl, hnone⟩, rfl⟩
        rw [hb] at hb'
        cases hb'
        exact ⟨contentType, hc, hnone, rfl⟩

/-! ## The table of all failures -/

/-- The errors of the security, none if it succeeds. -/
def securityFailures (o : Operation) (r : RequestSurface) : ErrorMap :=
  match o.securityOutcome r with
  | .ok _ => []
  | .error e => securityErrors e

/-- Everything that is wrong with a request, by name, given how its body fares. -/
def errors (o : Operation) (r : RequestSurface) (body : Entries Outcome) : ErrorMap :=
  addMissing (o.securityFailures r) (failures (o.parameterOutcomes r ++ body))

theorem securityOutcome_eq_error_iff {e : ErrorTree} :
    o.securityOutcome r = .error e ↔ o.SecurityFails r e := by
  rw [securityOutcome, SecurityFails]
  cases o.security <;> simp

/-- The credentials are those that the security found; without a security there are none. -/
theorem credentials_of_securityOutcome {credentials : Credentials}
    (h : o.securityOutcome r = .ok credentials) :
    (o.security = none → credentials = []) ∧
      ∀ s, o.security = some s → s.check r.toCredentialSurface = .ok credentials := by
  rw [securityOutcome] at h
  constructor
  · intro hnone
    rw [hnone] at h
    cases h
    rfl
  · intro s hs
    rw [hs] at h
    exact h

/-- The errors of the security are told by name, and those of a leaf under the name of the security.
-/
theorem get?_securityErrors_eq_some_iff {e entry : ErrorTree} {k : String} :
    Entries.get? k (securityErrors e) = some entry ↔ SecurityEntry e k entry := by
  constructor
  · intro h
    cases e with
    | message text =>
        obtain ⟨⟩ := List.mem_singleton.mp (Entries.mem_of_get? h)
        exact .leaf
    | nested errors => exact .nested h
  · intro h
    cases h with
    | nested h => exact h
    | leaf => exact if_pos rfl

theorem get?_securityFailures_eq_some_iff {k : String} {entry : ErrorTree} :
    Entries.get? k (o.securityFailures r) = some entry ↔
      ∃ e, o.SecurityFails r e ∧ SecurityEntry e k entry := by
  simp only [← securityOutcome_eq_error_iff, ← get?_securityErrors_eq_some_iff]
  rw [securityFailures]
  cases o.securityOutcome r <;> simp

/-- Rejected credentials always leave an entry. -/
theorem securityErrors_ne_nil {s : Requirement} {c : CredentialSurface} {e : ErrorTree}
    (h : s.check c = .error e) : securityErrors e ≠ [] := by
  cases Requirement.check_error_isComplaint h with
  | message text => exact List.cons_ne_nil _ _
  | under name text => exact List.cons_ne_nil _ _

/-- The security has no errors exactly if it accepts the credentials. -/
theorem securityFailures_eq_nil_iff :
    o.securityFailures r = [] ↔ ∀ s, o.security = some s → s.Accepts r.toCredentialSurface := by
  rw [securityFailures, securityOutcome]
  cases o.security with
  | none => simp
  | some s =>
      simp only [Option.some.injEq, forall_eq', Requirement.Accepts]
      cases hc : s.check r.toCredentialSurface with
      | ok found => simp
      | error e => simp [securityErrors_ne_nil hc]

/-- What is added never takes the place of what is there. -/
theorem get?_addMissing (k : String) (news errors : ErrorMap) :
    Entries.get? k (addMissing news errors) =
      (Entries.get? k errors).or (Entries.get? k news) := by
  induction news generalizing errors with
  | nil => simp [addMissing]
  | cons e rest ih =>
      obtain ⟨name, e⟩ := e
      have hstep : Entries.get? k
          (if Entries.has name errors then errors else Entries.file name e errors) =
          (Entries.get? k errors).or (if name = k then some e else none) := by
        split
        · rename_i hhas
          by_cases hk : name = k
          · subst hk
            obtain ⟨x, hx⟩ := Option.isSome_iff_exists.mp hhas
            rw [hx]
            rfl
          · simp [hk]
        · rename_i hhas
          rw [Entries.get?_file]
          by_cases hk : name = k
          · subst hk
            have hnone : Entries.get? name errors = none :=
              Option.not_isSome_iff_eq_none.mp hhas
            simp [hnone]
          · simp [hk]
      show Entries.get? k (addMissing rest
        (if Entries.has name errors then errors else Entries.file name e errors)) = _
      rw [ih, hstep, Option.or_assoc]
      congr 1
      by_cases hk : name = k <;> simp [hk]

theorem ascending_addMissing {errors : ErrorMap} (h : Entries.Ascending errors)
    (news : ErrorMap) : Entries.Ascending (addMissing news errors) := by
  induction news generalizing errors with
  | nil => exact h
  | cons e rest ih =>
      refine ih ?_
      show Entries.Ascending
        (if Entries.has e.1 errors then errors else Entries.file e.1 e.2 errors)
      split
      · exact h
      · exact h.file e.1 e.2

theorem addMissing_eq_nil_iff {news errors : ErrorMap} :
    addMissing news errors = [] ↔ news = [] ∧ errors = [] := by
  simp only [Entries.eq_nil_iff_get?, get?_addMissing, Option.or_eq_none_iff]
  exact ⟨fun h => ⟨fun k => (h k).2, fun k => (h k).1⟩, fun h k => ⟨h.2 k, h.1 k⟩⟩

/-! ## What stands in the table -/

/-- The body has an outcome under its name if the operation has one. -/
theorem bodyOutcome_eq_ok_iff {body : Entries Outcome} :
    o.bodyOutcome r = .ok body ↔
      (o.body = none ∧ body = []) ∨
      ∃ b outcome, o.body = some b ∧ b.Fares r outcome ∧ body = [(bodyName, outcome)] := by
  simp only [← RequestBody.outcome_eq_ok_iff]
  rw [bodyOutcome]
  cases o.body with
  | none => simp [eq_comm]
  | some b =>
      simp only [reduceCtorEq, false_and, false_or, Option.some.injEq, exists_eq_left',
        exists_and_left]
      cases b.outcome r <;> simp [Except.map, eq_comm]

/-- What is wrong with the body stands under its name, and nothing else stands there. -/
theorem get?_bodyFailures_eq_some_iff {body : Entries Outcome} (hb : o.bodyOutcome r = .ok body)
    {k : String} {e : ErrorTree} :
    Entries.get? k (failures body) = some e ↔ k = bodyName ∧ o.BodyFails r e := by
  rcases bodyOutcome_eq_ok_iff.mp hb with ⟨hnone, rfl⟩ | ⟨b, outcome, hsome, hfares, rfl⟩
  · constructor
    · rintro ⟨⟩
    · rintro ⟨-, b, hsome, -⟩
      rw [hnone] at hsome
      cases hsome
  · rw [failures, ObjectRule.get?_failures_singleton, Option.ite_none_right_eq_some,
      Outcome.error?_eq_some_iff]
    refine and_congr eq_comm ⟨?_, ?_⟩
    · rintro rfl
      exact ⟨b, hsome, hfares⟩
    · rintro ⟨b', hsome', hfares'⟩
      rw [hsome] at hsome'
      cases hsome'
      exact hfares.unique hfares'

/-- Of the parameters of one name that fail, the last is reported. -/
theorem get?_parameterFailures_eq_some_iff {k : String} {e : ErrorTree} :
    Entries.get? k (failures (o.parameterOutcomes r)) = some e ↔
      ∃ p, LastWhere (fun q => q.name = k ∧ ¬ q.Accepts r) o.parameters p ∧ p.Fails r e := by
  rw [failures, ObjectRule.get?_failures_eq_some_iff, parameterOutcomes, LastWhere.map_iff]
  simp only [← Parameter.not_accepts_iff]
  refine exists_congr fun p => and_congr_right fun hp => ?_
  rw [Prod.mk.injEq, Parameter.outcome_eq_error_iff]
  exact and_iff_right hp.holds.1

/-- Nothing is reported under a name whose parameters are all accepted. -/
theorem get?_parameterFailures_eq_none_iff {k : String} :
    Entries.get? k (failures (o.parameterOutcomes r)) = none ↔
      ∀ p ∈ o.parameters, p.name = k → p.Accepts r := by
  rw [Entries.get?_eq_none_iff, failures, ObjectRule.mem_keys_failures, parameterOutcomes]
  constructor
  · rintro h p hp rfl
    by_contra hrejected
    obtain ⟨e, he⟩ := Parameter.not_accepts_iff.mp hrejected
    exact h ⟨e, List.mem_map.mpr ⟨p, hp, by rw [he]⟩⟩
  · rintro h ⟨e, he⟩
    obtain ⟨p, hp, hpair⟩ := List.mem_map.mp he
    obtain ⟨hname, hfails⟩ := Prod.mk.inj hpair
    exact Parameter.not_accepts_iff.mpr ⟨e, hfails⟩ (h p hp hname)

/-- The table says under each name what is to be reported there. -/
theorem get?_errors_eq_some_iff {body : Entries Outcome} (hb : o.bodyOutcome r = .ok body)
    {k : String} {e : ErrorTree} :
    Entries.get? k (o.errors r body) = some e ↔ o.Reports r k e := by
  have hbody : Entries.get? k (failures body) = none ↔
      ¬ (k = bodyName ∧ ∃ e, o.BodyFails r e) := by
    simp only [Option.eq_none_iff_forall_ne_some, ne_eq, get?_bodyFailures_eq_some_iff hb,
      not_and, not_exists]
    exact ⟨fun h hk e => h e hk, fun h e hk => h hk e⟩
  -- the body is written after the parameters and so takes the place of theirs
  have hsplit : Entries.get? k (failures (o.parameterOutcomes r ++ body)) =
      (Entries.get? k (failures body)).or (Entries.get? k (failures (o.parameterOutcomes r))) :=
    ObjectRule.get?_failures_append k _ _
  rw [errors, get?_addMissing, hsplit, Option.or_eq_some_iff, Option.or_eq_some_iff,
    Option.or_eq_none_iff, hbody, get?_bodyFailures_eq_some_iff hb,
    get?_parameterFailures_eq_some_iff, get?_parameterFailures_eq_none_iff,
    get?_securityFailures_eq_some_iff]
  constructor
  · rintro ((⟨rfl, he⟩ | ⟨hn, p, hp, he⟩) | ⟨⟨hn, hparameters⟩, e', he', hentry⟩)
    · exact .body he
    · exact .parameter hn hp he
    · exact .security hn hparameters he' hentry
  · intro h
    cases h with
    | body he => exact .inl (.inl ⟨rfl, he⟩)
    | parameter hn hp he => exact .inl (.inr ⟨hn, _, hp, he⟩)
    | security hn hparameters he hentry => exact .inr ⟨⟨hn, hparameters⟩, _, he, hentry⟩

/-- The table is empty exactly if nothing fails. -/
theorem errors_eq_nil_iff {body : Entries Outcome} (hb : o.bodyOutcome r = .ok body) :
    o.errors r body = [] ↔ o.Accepts r := by
  have hparameters : (∀ e ∈ o.parameterOutcomes r, ∃ f, e.2 = .ok f) ↔
      ∀ p ∈ o.parameters, p.Accepts r := by
    simp only [Parameter.accepts_iff, parameterOutcomes, List.forall_mem_map]
  have hbody : (∀ e ∈ body, ∃ f, e.2 = .ok f) ↔
      ∀ b, o.body = some b → ∃ f, b.Fares r (.ok f) := by
    rcases bodyOutcome_eq_ok_iff.mp hb with ⟨hnone, rfl⟩ | ⟨b, outcome, hsome, hfares, rfl⟩
    · simp [hnone]
    · have houtcome : ∀ f, b.Fares r (.ok f) ↔ outcome = .ok f := by
        intro f
        exact ⟨hfares.unique, fun h => h ▸ hfares⟩
      simp [hsome, houtcome]
  rw [errors, addMissing_eq_nil_iff, securityFailures_eq_nil_iff, failures,
    ObjectRule.failures_eq_nil_iff, List.forall_mem_append, hparameters, hbody]
  exact ⟨fun h => ⟨h.2.1, h.2.2, h.1⟩, fun h => ⟨h.security, h.parameters, h.body⟩⟩

theorem ascending_errors (body : Entries Outcome) : Entries.Ascending (o.errors r body) :=
  ascending_addMissing (ObjectRule.ascending_failures _) _

/-- Something is reported under exactly the names of what fails. -/
theorem exists_reports_iff {k : String} :
    (∃ e, o.Reports r k e) ↔
      (∃ p ∈ o.parameters, p.name = k ∧ ¬ p.Accepts r) ∨
      (k = bodyName ∧ ∃ e, o.BodyFails r e) ∨
      ∃ e entry, o.SecurityFails r e ∧ SecurityEntry e k entry := by
  constructor
  · rintro ⟨e, h⟩
    cases h with
    | body he => exact .inr (.inl ⟨rfl, _, he⟩)
    | parameter _ hp _ => exact .inl ⟨_, hp.mem, hp.holds⟩
    | security _ _ he hentry => exact .inr (.inr ⟨_, _, he, hentry⟩)
  · intro h
    by_cases hbody : k = bodyName ∧ ∃ e, o.BodyFails r e
    · obtain ⟨rfl, e, he⟩ := hbody
      exact ⟨e, .body he⟩
    by_cases hparameters : ∃ p ∈ o.parameters, p.name = k ∧ ¬ p.Accepts r
    · obtain ⟨p, hp⟩ := LastWhere.exists_iff.mpr hparameters
      obtain ⟨e, he⟩ := Parameter.not_accepts_iff.mp hp.holds.2
      exact ⟨e, .parameter hbody hp (Parameter.outcome_eq_error_iff.mp he)⟩
    rcases h with hp | hb | ⟨e, entry, he, hentry⟩
    · exact absurd hp hparameters
    · exact absurd hb hbody
    · refine ⟨entry, .security hbody (fun p hp hname => ?_) he hentry⟩
      by_contra hrejected
      exact hparameters ⟨p, hp, hname, hrejected⟩

/-! ## Binding -/

/-- Without errors a request is bound, with the credentials that the security found. -/
theorem bind_of_errors_eq_nil (hv : o.options.validate = true) {body : Entries Outcome}
    (hb : o.bodyOutcome r = .ok body) (h : o.errors r body = []) :
    ∃ credentials, o.securityOutcome r = .ok credentials ∧
      o.bind r = .ok (o.bound (o.parameterOutcomes r ++ body) credentials) := by
  obtain ⟨hsecurity, hfailures⟩ := addMissing_eq_nil_iff.mp h
  rw [bind, hv, hb]
  cases hs : o.securityOutcome r with
  | error e =>
      rw [securityFailures, hs] at hsecurity
      obtain ⟨s, -, hcheck⟩ := securityOutcome_eq_error_iff.mp hs
      -- a failure of the security without an entry would let the request through
      exact absurd hsecurity (securityErrors_ne_nil hcheck)
  | ok credentials =>
      refine ⟨credentials, rfl, ?_⟩
      simp [hfailures]

/-- With errors nothing is bound. -/
theorem bind_of_errors_ne_nil (hv : o.options.validate = true) {body : Entries Outcome}
    (hb : o.bodyOutcome r = .ok body) (h : o.errors r body ≠ []) :
    o.bind r = .error (.invalid (o.errors r body)) := by
  obtain ⟨first, rest, hcons⟩ := List.exists_cons_of_ne_nil h
  rw [hcons]
  rw [errors, securityFailures] at hcons
  rw [bind, hv, hb]
  cases hs : o.securityOutcome r with
  | ok credentials =>
      rw [hs] at hcons
      have hfailures : failures (o.parameterOutcomes r ++ body) = first :: rest := hcons
      simp [hfailures]
  | error e =>
      rw [hs] at hcons
      have hall : addMissing (securityErrors e) (failures (o.parameterOutcomes r ++ body)) =
          first :: rest := hcons
      simp [hall]

/-- Binding with validation is all or nothing. A request is refused for its media type whatever
else fails; otherwise it is bound exactly if the operation accepts it, with the credentials that
the security found, and if not every failure is reported. -/
theorem bind_all_or_nothing (o : Operation) (hv : o.options.validate = true)
    (r : RequestSurface) :
    (∀ essence, o.bind r = .error (.unsupportedMediaType essence) ↔ o.Refuses r essence) ∧
    ((∀ essence, ¬ o.Refuses r essence) →
      ((∃ b, o.bind r = .ok b) ↔ o.Accepts r) ∧
      (¬ o.Accepts r → ∃ errors, o.bind r = .error (.invalid errors) ∧
        Entries.Ascending errors ∧
        (∀ k, k ∈ Entries.keys errors ↔
          (∃ p ∈ o.parameters, p.name = k ∧ ¬ p.Accepts r) ∨
          (k = bodyName ∧ ∃ e, o.BodyFails r e) ∨
          ∃ e entry, o.SecurityFails r e ∧ SecurityEntry e k entry) ∧
        ∀ k e, Entries.get? k errors = some e ↔ o.Reports r k e)) ∧
    ∀ b, o.bind r = .ok b → (o.security = none → b.credentials = []) ∧
      ∀ s, o.security = some s → s.check r.toCredentialSurface = .ok b.credentials := by
  cases hb : o.bodyOutcome r with
  | error e =>
      obtain ⟨essence, hrefuses, rfl⟩ := bodyOutcome_eq_error_iff.mp hb
      have hbind : o.bind r = .error (.unsupportedMediaType essence) := by
        rw [bind, hv, hb]
        rfl
      refine ⟨fun essence' => ?_, fun hn => absurd hrefuses (hn essence), fun b hbound => ?_⟩
      · rw [hbind]
        constructor
        · rintro ⟨⟩
          exact hrefuses
        · intro hrefuses'
          have hb' := bodyOutcome_eq_error_iff.mpr ⟨essence', hrefuses', rfl⟩
          rw [hb] at hb'
          cases hb'
          rfl
      · rw [hbind] at hbound
        cases hbound
  | ok body =>
      -- past this point the answer depends on the table of errors alone
      have hnone : ∀ essence, ¬ o.Refuses r essence := by
        intro essence hrefuses
        have hb' := bodyOutcome_eq_error_iff.mpr ⟨essence, hrefuses, rfl⟩
        rw [hb] at hb'
        cases hb'
      by_cases hnil : o.errors r body = []
      · obtain ⟨credentials, hsecurity, hbound⟩ := bind_of_errors_eq_nil hv hb hnil
        have haccepts := (errors_eq_nil_iff hb).mp hnil
        refine ⟨fun essence => ?_, fun _ => ⟨?_, fun hn => absurd haccepts hn⟩, fun b hb' => ?_⟩
        · rw [hbound]
          exact ⟨by rintro ⟨⟩, fun h => absurd h (hnone essence)⟩
        · exact ⟨fun _ => haccepts, fun _ => ⟨_, hbound⟩⟩
        · rw [hbound] at hb'
          cases hb'
          exact credentials_of_securityOutcome hsecurity
      · have hinvalid := bind_of_errors_ne_nil hv hb hnil
        have hrejected : ¬ o.Accepts r := fun h => hnil ((errors_eq_nil_iff hb).mpr h)
        rw [hinvalid]
        refine ⟨fun essence => ?_, fun _ => ⟨?_, fun _ => ?_⟩, by rintro b ⟨⟩⟩
        · exact ⟨by rintro ⟨⟩, fun h => absurd h (hnone essence)⟩
        · exact ⟨by rintro ⟨b, ⟨⟩⟩, fun h => absurd h hrejected⟩
        · refine ⟨_, rfl, ascending_errors body, fun k => ?_, fun k e => get?_errors_eq_some_iff hb⟩
          rw [← exists_reports_iff, ← Entries.has_iff, Entries.has, Option.isSome_iff_exists]
          simp only [get?_errors_eq_some_iff hb]

/-- An operation with a parameter, a body and a key, none of which may be missing. -/
def upload : Operation where
  path := "/items"
  method := "post"
  parameters := [⟨"limit", .query, .integer {}, true⟩]
  body := some ⟨true, [("application/json", ⟨⟨"application/json", Decoder.json⟩, none⟩)]⟩
  security := some (.apiKey .header "x-key")
  options := {}

/-- A request that has nothing but a media type. -/
def bareRequest : RequestSurface :=
  (({} : Request).withHeader "Content-Type" "application/json; charset=utf-8").surface

/-- All three failures are reported, that of the key among them. -/
theorem upload_bareRequest :
    upload.bind bareRequest = .error (.invalid [("body", requiredError),
      ("limit", requiredError), ("x-key", .message "is required")]) ∧
    ¬ upload.Accepts bareRequest ∧
    upload.Reports bareRequest "x-key" (.message "is required") := by
  have hbind : upload.bind bareRequest = .error (.invalid [("body", requiredError),
      ("limit", requiredError), ("x-key", .message "is required")]) := by cbv
  obtain ⟨hrefused, hdecided, -⟩ := bind_all_or_nothing upload rfl bareRequest
  have hknown : ∀ essence, ¬ upload.Refuses bareRequest essence := by
    intro essence hrefuses
    have hanswer := (hrefused essence).mpr hrefuses
    rw [hbind] at hanswer
    cases hanswer
  have hrejected : ¬ upload.Accepts bareRequest := by
    intro haccepts
    obtain ⟨b, hb⟩ := (hdecided hknown).1.mpr haccepts
    rw [hbind] at hb
    cases hb
  obtain ⟨errors, hinvalid, -, -, hreports⟩ := (hdecided hknown).2 hrejected
  rw [hbind] at hinvalid
  cases hinvalid
  exact ⟨hbind, hrejected, (hreports _ _).mp (by cbv)⟩

end Operation

end SchemaGate
