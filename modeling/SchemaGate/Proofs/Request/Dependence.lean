import Mathlib
import SchemaGate.Proofs.Credential.Check
import SchemaGate.Request.Bind

/-!
# What binding depends on

An operation declares what it reads of a request: the values of its parameters, the body if it has
one, and what the leaves of its security look for. Requests that agree on that
(`Operation.AgreeOn`) are bound alike, whatever else they carry
(`Operation.bind_eq_of_agreeOn`): nothing that a client adds decides whether a request is accepted,
which values a handler gets, or which errors are reported.
-/

namespace SchemaGate

variable {r r' : RequestSurface}

/-! ## Parameters -/

namespace Parameter

/-- The requests have the same values where the parameter is sent. -/
structure AgreeOn (p : Parameter) (r r' : RequestSurface) : Prop where
  query : p.location = .query → r.queryValues p.name = r'.queryValues p.name
  path : p.location = .path → r.pathParam p.name = r'.pathParam p.name
  header : p.location = .header → r.header p.name = r'.header p.name
  cookie : p.location = .cookie → r.cookie p.name = r'.cookie p.name

/-- A parameter is read from its own place alone. -/
theorem extract_eq_of_agreeOn {p : Parameter} (h : p.AgreeOn r r') :
    p.extract r = p.extract r' := by
  unfold extract
  cases hl : p.location with
  | query => exact congrArg Form.ofTexts (h.query hl)
  | path => exact congrArg single (h.path hl)
  | header => exact congrArg single (h.header hl)
  | cookie => exact congrArg single (h.cookie hl)

theorem outcome_eq_of_agreeOn {p : Parameter} (h : p.AgreeOn r r') :
    p.outcome r = p.outcome r' := by
  rw [outcome, outcome, extract_eq_of_agreeOn h]

end Parameter

/-! ## Operations -/

namespace Operation

/-- The requests agree on everything that the operation declares. -/
structure AgreeOn (o : Operation) (r r' : RequestSurface) : Prop where
  parameters : ∀ p ∈ o.parameters, p.AgreeOn r r'
  contentType : o.body ≠ none → r.contentType = r'.contentType
  octets : o.body ≠ none → r.body = r'.body
  credentials : ∀ s, o.security = some s → ∀ place name, s.Reads place name →
    Requirement.KeyPlace.read place r.toCredentialSurface name =
      Requirement.KeyPlace.read place r'.toCredentialSurface name

variable {o : Operation}

theorem parameterOutcomes_eq_of_agreeOn (h : o.AgreeOn r r') :
    o.parameterOutcomes r = o.parameterOutcomes r' := by
  unfold parameterOutcomes
  refine List.map_congr_left fun p hp => ?_
  rw [Parameter.outcome_eq_of_agreeOn (h.parameters p hp)]

/-- The body depends on the media type and the octets, and only where one is declared. -/
theorem bodyOutcome_eq_of_agreeOn (h : o.AgreeOn r r') :
    o.bodyOutcome r = o.bodyOutcome r' := by
  unfold bodyOutcome
  cases hb : o.body with
  | none => rfl
  | some b =>
      have hdeclared : o.body ≠ none := by
        rw [hb]
        rintro ⟨⟩
      have houtcome : b.outcome r = b.outcome r' := by
        rw [RequestBody.outcome, RequestBody.outcome, h.contentType hdeclared,
          h.octets hdeclared]
      show (b.outcome r).map _ = (b.outcome r').map _
      rw [houtcome]

theorem securityOutcome_eq_of_agreeOn (h : o.AgreeOn r r') :
    o.securityOutcome r = o.securityOutcome r' := by
  unfold securityOutcome
  cases hs : o.security with
  | none => rfl
  | some s => exact Requirement.check_congr (h.credentials s hs)

/-- Requests that agree on what an operation declares are bound alike: to the same values, or with
the same errors. -/
theorem bind_eq_of_agreeOn (h : o.AgreeOn r r') : o.bind r = o.bind r' := by
  rw [bind, bind, parameterOutcomes_eq_of_agreeOn h, bodyOutcome_eq_of_agreeOn h,
    securityOutcome_eq_of_agreeOn h]

/-- A search for a term that needs a key. -/
def search : Operation where
  path := "/search"
  method := "get"
  parameters := [⟨"term", .query, .array {} (.string {}), true⟩]
  body := none
  security := some (.optional (.any [.bearer, .apiKey .cookie "sid"]))
  options := {}

/-- A search for two terms with a key. -/
def searchRequest : Request where
  query := [("term", "a"), ("term", "b")]
  cookies := [("sid", "42")]

/-- The same search with things that nobody asked for: among them a body, a key of the name of the
term, and a term in the place of the key. -/
def searchWithMore : Request where
  query := [("term", "a"), ("sid", "1"), ("term", "b"), ("admin", "true")]
  path := [("term", "c")]
  headers := [("content-type", "application/json"), ("sid", "2"), ("x-user", "root")]
  cookies := [("sid", "42"), ("term", "d")]
  body := Utf8.encode "[]"

/-- None of it makes a difference. -/
theorem search_withMore :
    search.AgreeOn searchRequest.surface searchWithMore.surface ∧
    search.bind searchWithMore.surface = .ok
      { arguments := [("sid", .text "42"), ("term", .value (.array [.string "a", .string "b"]))]
        data := [("sid", .text "42"), ("term", .value (.array [.string "a", .string "b"]))]
        credentials := [("sid", "42")] } := by
  have hagree : search.AgreeOn searchRequest.surface searchWithMore.surface := by
    refine ⟨fun p hp => ?_, fun hb => absurd rfl hb, fun hb => absurd rfl hb,
      fun s hs place name hreads => ?_⟩
    · cases List.mem_singleton.mp hp
      exact ⟨fun _ => by cbv, by rintro ⟨⟩, by rintro ⟨⟩, by rintro ⟨⟩⟩
    · cases hs
      cases hreads with
      | optional hreads =>
        cases hreads with
        | any hr hreads =>
          rcases List.mem_cons.mp hr with rfl | hr
          · cases hreads
            cbv
          · cases List.mem_singleton.mp hr
            cases hreads
            cbv
  refine ⟨hagree, ?_⟩
  rw [← bind_eq_of_agreeOn hagree]
  cbv

end Operation

end SchemaGate
