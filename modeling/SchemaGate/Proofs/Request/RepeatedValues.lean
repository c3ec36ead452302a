import Mathlib
import SchemaGate.Proofs.Request.Dependence
import SchemaGate.Proofs.Schema.ArrayAnswer

/-!
# Repeated and joined values

A client may send an array in the query in two ways: with a pair for each item, or with one pair
whose value joins the items by commas. To the validator of an array they come in different shapes,
an array of texts and a single text, but both list the same items, so that they have the same
outcome, and requests that differ in nothing else are bound alike
(`Operation.joined_values_bind_alike`).

Only the list of one text without a character is different: joined, it lists nothing.
-/

namespace SchemaGate

open ArrayRule (Lists)

variable {r r' : RequestSurface}

/-! ## Items in two shapes -/

namespace Validator

/-- Inputs that list the same items have the same answer. -/
theorem validate_eq_of_lists {raw : Bool} {f g : Field} {xs : List Json} (hf : Lists raw f xs)
    (hg : Lists raw g xs) (rule : ArrayRule) (items : Validator) :
    (array rule items).validate f raw = (array rule items).validate g raw := by
  have hread : ArrayRule.read f raw = ArrayRule.read g raw :=
    (ArrayRule.read_eq_some_iff.mpr hf).trans (ArrayRule.read_eq_some_iff.mpr hg).symm
  rw [validate_array_eq, validate_array_eq, Common.settled_eq_of_isGiven hf.isGiven,
    Common.settled_eq_of_isGiven hg.isGiven, ArrayRule.examine, ArrayRule.examine, hread]

theorem validate_joined {ps : List String} (hcomma : ∀ p ∈ ps, ',' ∉ p.toList) (hps : ps ≠ [""])
    (rule : ArrayRule) (items : Validator) :
    (array rule items).validate (.value (.array (ps.map .string))) true =
      (array rule items).validate (.text (String.intercalate "," ps)) true :=
  validate_eq_of_lists (.items _) (.parts rfl hcomma hps) rule items

end Validator

/-! ## Parameters -/

namespace Parameter

variable {p : Parameter}

/-- The parameter is an array in the query. The first request has a value for each item, and the
other request one value that joins them. -/
structure Joins (p : Parameter) (r r' : RequestSurface) : Prop where
  query : p.location = .query
  array : ∃ rule items, p.validator = .array rule items
  values : ∃ vs, vs ≠ [] ∧ (∀ v ∈ vs, ',' ∉ v.toList) ∧ r.queryValues p.name = vs ∧
    r'.queryValues p.name = [String.intercalate "," vs]

/-- A parameter fares alike with values that are repeated and with the same values joined by commas.
-/
theorem outcome_eq_of_joins (h : p.Joins r r') : p.outcome r = p.outcome r' := by
  obtain ⟨rule, items, harray⟩ := h.array
  obtain ⟨vs, hvs, hcomma, hvalues, hvalue⟩ := h.values
  have hjoined : p.extract r' = .text (String.intercalate "," vs) := by
    rw [extract, h.query, hvalue]
    rfl
  have hrepeated : p.extract r = Form.ofTexts vs := by
    rw [extract, h.query, hvalues]
  rw [outcome, outcome, hrepeated, hjoined, harray]
  cases vs with
  | nil => exact absurd rfl hvs
  | cons v others =>
      cases others with
      | nil => rfl
      | cons w rest => exact Validator.validate_joined hcomma (by simp) rule items

end Parameter

/-! ## Operations -/

namespace Operation

/-- An operation binds both requests alike, whichever of its parameters are written in the one way
or the other. -/
theorem bind_eq_of_joins {o : Operation} (h : AgreeOn { o with parameters := [] } r r')
    (hp : ∀ p ∈ o.parameters, p.AgreeOn r r' ∨ p.Joins r r') : o.bind r = o.bind r' := by
  have hparameters : o.parameterOutcomes r = o.parameterOutcomes r' := by
    unfold parameterOutcomes
    refine List.map_congr_left fun p hmem => ?_
    rcases hp p hmem with hagree | hjoins
    · rw [Parameter.outcome_eq_of_agreeOn hagree]
    · rw [Parameter.outcome_eq_of_joins hjoins]
  -- the parameters are neither in the body nor in the security
  have hbody : o.bodyOutcome r = o.bodyOutcome r' :=
    bodyOutcome_eq_of_agreeOn (o := { o with parameters := [] }) h
  have hsecurity : o.securityOutcome r = o.securityOutcome r' :=
    securityOutcome_eq_of_agreeOn (o := { o with parameters := [] }) h
  rw [bind, bind, hparameters, hbody, hsecurity]

/-- An array node gives one answer to texts and to the text that joins them by commas. So an array
in the query has the same outcome in both forms, and requests are bound alike whose values for each
parameter are the same or are repeated in the one and joined in the other, if nothing else that the
operation reads is different. -/
theorem joined_values_bind_alike :
    (∀ (rule : ArrayRule) (items : Validator) (ps : List String),
      (∀ p ∈ ps, ',' ∉ p.toList) → ps ≠ [""] →
      (Validator.array rule items).validate (.value (.array (ps.map .string))) true =
        (Validator.array rule items).validate (.text (String.intercalate "," ps)) true) ∧
    (∀ (p : Parameter) (r r' : RequestSurface), p.Joins r r' → p.outcome r = p.outcome r') ∧
    ∀ (o : Operation) (r r' : RequestSurface), AgreeOn { o with parameters := [] } r r' →
      (∀ p ∈ o.parameters, p.AgreeOn r r' ∨ p.Joins r r') → o.bind r = o.bind r' :=
  ⟨fun rule items _ hcomma hps => Validator.validate_joined hcomma hps rule items,
    fun _ _ _ => Parameter.outcome_eq_of_joins, fun _ _ _ => bind_eq_of_joins⟩

/-! ## Ordering plates -/

/-- The numbers of the plates are an array of integers. -/
def plateNumbers : Parameter :=
  ⟨"plate", .query, .array { minItems := some 2 } (.integer {}), true⟩

/-- An order of plates to a table, with a key. -/
def orderPlates : Operation where
  path := "/plates"
  method := "get"
  parameters := [plateNumbers, ⟨"table", .query, .string {}, false⟩]
  body := none
  security := some (.any [.apiKey .query "key"])
  options := {}

/-- The plates one by one. -/
def platesRepeated : Request where
  query := [("plate", "17"), ("key", "k"), ("plate", "+018"), ("table", "a,b"), ("plate", "z")]

/-- The plates at once. -/
def platesJoined : Request where
  query := [("table", "a,b"), ("plate", "17,+018,z"), ("key", "k")]

/-- Both orders are refused for the same plate. -/
theorem orderPlates_alike :
    orderPlates.bind platesRepeated.surface = orderPlates.bind platesJoined.surface ∧
      plateNumbers.outcome platesRepeated.surface = plateNumbers.outcome platesJoined.surface ∧
      plateNumbers.outcome platesJoined.surface =
        .error (.nested [("2", typeError "int")]) ∧
      plateNumbers.validator.validate (.value (.array [.string "17", .string "18"])) true =
        plateNumbers.validator.validate (.text "17,18") true := by
  obtain ⟨hnode, hparameter, hoperation⟩ := joined_values_bind_alike
  have hjoins : plateNumbers.Joins platesRepeated.surface platesJoined.surface := by
    refine ⟨rfl, ⟨_, _, rfl⟩, ["17", "+018", "z"], ?_, ?_, ?_, ?_⟩
    · simp
    · decide
    · cbv
    · cbv
  refine ⟨hoperation _ _ _ ?_ ?_, hparameter _ _ _ hjoins, by cbv, ?_⟩
  · refine ⟨fun p hp => absurd hp List.not_mem_nil, fun hb => absurd rfl hb,
      fun hb => absurd rfl hb, fun s hs place name hreads => ?_⟩
    cases hs
    cases hreads with
    | any hr hreads =>
      cases List.mem_singleton.mp hr
      cases hreads
      cbv
  · intro p hp
    rcases List.mem_cons.mp hp with rfl | hp
    · exact .inr hjoins
    · cases List.mem_singleton.mp hp
      exact .inl ⟨fun _ => by cbv, by rintro ⟨⟩, by rintro ⟨⟩, by rintro ⟨⟩⟩
  · exact hnode _ _ ["17", "18"] (by decide) (by decide)

end Operation

end SchemaGate
