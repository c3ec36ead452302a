import Mathlib
import SchemaGate.Proofs.Request.Binding

/-!
# The values of a bound request

Parameters of four places, the body and the credentials hand out their values in one table by name,
so names decide which of them are found there.

* `Operation.Offers` is everything that a request has for an operation, each value under its name;
* `Operation.Binds` is what stands in the table: the credential of the name, else the body under
  its name, else the last parameter of the name that has a value;
* `Operation.get?_bind_iff` says that this is so, and that nothing is lost exactly if no name stands
  for two values. Parts with names of their own suffice for that (`Operation.NamesApart`), but
  parameters are told apart by their places too, and two of one name take the place of each other
  (`Operation.item_losesPathValue`).
-/

namespace SchemaGate

variable {r : RequestSurface}

/-! ## Parameters -/

namespace Parameter

/-- The request has a value for the parameter. -/
def Yields (p : Parameter) (r : RequestSurface) (f : Field) : Prop :=
  p.validator.validate (p.extract r) true = .ok f ∧ f ≠ .absent

theorem outcome_eq_ok_iff {p : Parameter} (h : p.Accepts r) {f : Field} :
    p.outcome r = .ok f ↔ p.validator.validate (p.extract r) true = .ok f := by
  rw [outcome, if_neg]
  rw [Bool.and_eq_true, Field.isAbsent_iff]
  exact fun hmissing => h.present ⟨hmissing.2, hmissing.1⟩

end Parameter

namespace Operation

variable {o : Operation} {b : Bound} {k : String} {f g : Field}

/-! ## What there is to bind -/

/-- The request has a value for the body. -/
def BodyYields (o : Operation) (r : RequestSurface) (f : Field) : Prop :=
  ∃ b, o.body = some b ∧ b.Fares r (.ok f) ∧ f ≠ .absent

/-- The security finds a credential under the name. -/
def Finds (o : Operation) (r : RequestSurface) (k text : String) : Prop :=
  ∃ s found, o.security = some s ∧ s.check r.toCredentialSurface = .ok found ∧
    Entries.get? k found = some text

/-- Everything that a request has for an operation, by name. -/
inductive Offers (o : Operation) (r : RequestSurface) : String → Field → Prop
  | parameter {p : Parameter} {f : Field} :
      p ∈ o.parameters → p.Yields r f → Offers o r p.name f
  | body {f : Field} : o.BodyYields r f → Offers o r bodyName f
  | credential {k text : String} : o.Finds r k text → Offers o r k (.text text)

/-- What is bound under a name: the credential of the name, else the body under its name, else the
value of the last parameter of the name that has one. -/
inductive Binds (o : Operation) (r : RequestSurface) : String → Field → Prop
  | credential {k text : String} : o.Finds r k text → Binds o r k (.text text)
  | body {f : Field} : (∀ text, ¬ o.Finds r bodyName text) → o.BodyYields r f →
      Binds o r bodyName f
  | parameter {k : String} {p : Parameter} {f : Field} : (∀ text, ¬ o.Finds r k text) →
      ¬ (k = bodyName ∧ ∃ g, o.BodyYields r g) →
      LastWhere (fun q => q.name = k ∧ ∃ g, q.Yields r g) o.parameters p → p.Yields r f →
      Binds o r k f

theorem Binds.offers (h : o.Binds r k f) : o.Offers r k f := by
  cases h with
  | credential hfound => exact .credential hfound
  | body _ hyields => exact .body hyields
  | parameter _ _ hlast hyields =>
      obtain ⟨rfl, -⟩ := hlast.holds
      exact .parameter hlast.mem hyields

/-- A name that something is offered under has something bound to it. -/
theorem Offers.exists_binds (h : o.Offers r k f) : ∃ g, o.Binds r k g := by
  by_cases hfound : ∃ text, o.Finds r k text
  · obtain ⟨text, hfound⟩ := hfound
    exact ⟨_, .credential hfound⟩
  have hnone : ∀ text, ¬ o.Finds r k text := fun text htext => hfound ⟨text, htext⟩
  by_cases hbody : k = bodyName ∧ ∃ g, o.BodyYields r g
  · obtain ⟨rfl, g, hyields⟩ := hbody
    exact ⟨g, .body hnone hyields⟩
  cases h with
  | credential htext => exact absurd htext (hnone _)
  | body hyields => exact absurd ⟨rfl, _, hyields⟩ hbody
  | @parameter p f hp hyields =>
      have hsome : ∃ q ∈ o.parameters, q.name = p.name ∧ ∃ g, q.Yields r g :=
        ⟨p, hp, rfl, f, hyields⟩
      obtain ⟨q, hq⟩ := LastWhere.exists_iff.mpr hsome
      obtain ⟨g, hg⟩ := hq.holds.2
      exact ⟨g, .parameter hnone hbody hq hg⟩

/-! ## Names that stand for one value -/

theorem BodyYields.unique (hf : o.BodyYields r f) (hg : o.BodyYields r g) : f = g := by
  obtain ⟨b, hb, hfares, -⟩ := hf
  obtain ⟨b', hb', hfares', -⟩ := hg
  rw [hb] at hb'
  cases hb'
  exact Except.ok.inj (hfares.unique hfares')

/-- The security finds one credential under a name. -/
theorem Finds.unique {text text' : String} (h : o.Finds r k text) (h' : o.Finds r k text') :
    text = text' := by
  obtain ⟨s, found, hs, hcheck, hget⟩ := h
  obtain ⟨s', found', hs', hcheck', hget'⟩ := h'
  rw [hs] at hs'
  cases hs'
  rw [hcheck] at hcheck'
  cases hcheck'
  rw [hget] at hget'
  exact Option.some.inj hget'

/-- No two parameters have one name, none has the name of the body if there is one, and the
credentials have names of their own. -/
structure NamesApart (o : Operation) (r : RequestSurface) : Prop where
  parameters : (o.parameters.map Parameter.name).Nodup
  body : o.body ≠ none → bodyName ∉ o.parameters.map Parameter.name
  credentials : ∀ k text, o.Finds r k text →
    k ∉ o.parameters.map Parameter.name ∧ (o.body ≠ none → k ≠ bodyName)

/-- Where names are apart, a name stands for one value. -/
theorem NamesApart.unique (h : o.NamesApart r) (hf : o.Offers r k f) (hg : o.Offers r k g) :
    f = g := by
  have hnamed : ∀ p ∈ o.parameters, p.name ∈ o.parameters.map Parameter.name :=
    fun p hp => List.mem_map_of_mem hp
  have hdeclared : ∀ {x}, o.BodyYields r x → o.body ≠ none := by
    rintro x ⟨b, hb, -⟩ hnone
    rw [hb] at hnone
    cases hnone
  cases hf with
  | @parameter p _ hp hyields =>
      generalize hname : p.name = k at hg
      cases hg with
      | parameter hq hyields' =>
          cases List.inj_on_of_nodup_map h.parameters hp hq hname
          exact Except.ok.inj (hyields.1.symm.trans hyields'.1)
      | body hbody => exact absurd (hname ▸ hnamed p hp) (h.body (hdeclared hbody))
      | credential htext => exact absurd (hname ▸ hnamed p hp) (h.credentials _ _ htext).1
  | body hbody =>
      generalize hname : bodyName = k at hg
      cases hg with
      | parameter hq _ => exact absurd (hname ▸ hnamed _ hq) (h.body (hdeclared hbody))
      | body hbody' => exact hbody.unique hbody'
      | credential htext =>
          exact absurd hname.symm ((h.credentials _ _ htext).2 (hdeclared hbody))
  | credential htext =>
      cases hg with
      | parameter hq _ => exact absurd (hnamed _ hq) (h.credentials _ _ htext).1
      | body hbody => exact absurd rfl ((h.credentials _ _ htext).2 (hdeclared hbody))
      | credential htext' => exact congrArg Field.text (htext.unique htext')

/-! ## The values among outcomes -/

/-- The value of an outcome, if there is one. -/
def value? : Outcome → Option Field
  | .ok f => if f.isAbsent then none else some f
  | .error _ => none

theorem value?_eq_some_iff {outcome : Outcome} :
    value? outcome = some f ↔ outcome = .ok f ∧ f ≠ .absent := by
  cases outcome with
  | error e => simp [value?]
  | ok g =>
      rw [value?, Option.ite_none_left_eq_some, Field.isAbsent_iff, Option.some.injEq,
        Except.ok.injEq]
      constructor
      · rintro ⟨hg, rfl⟩
        exact ⟨rfl, hg⟩
      · rintro ⟨rfl, hg⟩
        exact ⟨hg, rfl⟩

theorem values_eq (outcomes : Entries Outcome) :
    values outcomes = Entries.sorted
      (outcomes.filterMap fun e => (value? e.2).map fun f => (e.1, f)) := by
  refine congrArg Entries.sorted (List.filterMap_congr ?_)
  rintro ⟨name, outcome⟩ -
  cases outcome with
  | error e => rfl
  | ok f => cases f <;> rfl

/-- Among the values is, under each name, the last outcome of the name that is one. -/
theorem get?_values_eq_some_iff {outcomes : Entries Outcome} :
    Entries.get? k (values outcomes) = some f ↔
      LastWhere (fun e => e.1 = k ∧ ∃ g, e.2 = .ok g ∧ g ≠ .absent) outcomes (k, .ok f) := by
  rw [values_eq, Entries.get?_sorted_filterMap_eq_some_iff]
  simp only [value?_eq_some_iff]
  constructor
  · rintro ⟨outcome, hlast, rfl, -⟩
    exact hlast
  · intro hlast
    obtain ⟨-, g, hg, hpresent⟩ := hlast.holds
    cases hg
    exact ⟨_, hlast, rfl, hpresent⟩

theorem get?_values_append (k : String) (as bs : Entries Outcome) :
    Entries.get? k (values (as ++ bs)) =
      (Entries.get? k (values bs)).or (Entries.get? k (values as)) := by
  simp only [values_eq, Entries.get?_sorted, List.filterMap_append, List.reverse_append,
    Entries.get?_append]

/-- The value of the body stands under its name. -/
theorem get?_bodyValues_eq_some_iff {body : Entries Outcome} (hb : o.bodyOutcome r = .ok body) :
    Entries.get? k (values body) = some f ↔ k = bodyName ∧ o.BodyYields r f := by
  rw [get?_values_eq_some_iff]
  rcases bodyOutcome_eq_ok_iff.mp hb with ⟨hnone, rfl⟩ | ⟨b, outcome, hsome, hfares, rfl⟩
  · constructor
    · rintro ⟨⟩
    · rintro ⟨-, b, hsome, -⟩
      rw [hnone] at hsome
      cases hsome
  · constructor
    · intro hlast
      obtain ⟨hname, g, hg, hpresent⟩ := hlast.holds
      obtain ⟨rfl, rfl⟩ := Prod.mk.inj (List.mem_singleton.mp hlast.mem)
      cases hg
      exact ⟨rfl, b, hsome, hfares, hpresent⟩
    · rintro ⟨rfl, b', hsome', hfares', hpresent⟩
      rw [hsome] at hsome'
      cases hsome'
      obtain rfl := hfares.unique hfares'
      exact .here ⟨rfl, f, rfl, hpresent⟩ fun e he => absurd he List.not_mem_nil

/-- Of the parameters of one name that have a value, the last is bound. -/
theorem get?_parameterValues_eq_some_iff (h : ∀ p ∈ o.parameters, p.Accepts r) :
    Entries.get? k (values (o.parameterOutcomes r)) = some f ↔
      ∃ p, LastWhere (fun q => q.name = k ∧ ∃ g, q.Yields r g) o.parameters p ∧
        p.Yields r f := by
  have hyields : ∀ p ∈ o.parameters, ∀ g,
      (p.outcome r = .ok g ∧ g ≠ .absent) ↔ p.Yields r g :=
    fun p hp g => and_congr_left fun _ => Parameter.outcome_eq_ok_iff (h p hp)
  rw [get?_values_eq_some_iff, parameterOutcomes, LastWhere.map_iff]
  refine exists_congr fun p => ?_
  rw [LastWhere.congr fun q hq => and_congr_right fun _ => exists_congr (hyields q hq)]
  refine and_congr_right fun hlast => ?_
  obtain ⟨hname, g, hg⟩ := hlast.holds
  rw [← hyields p hlast.mem, Prod.mk.injEq]
  constructor
  · rintro ⟨-, houtcome⟩
    have hoffered := (hyields p hlast.mem g).mpr hg
    rw [houtcome] at hoffered
    obtain ⟨⟨⟩, hpresent⟩ := hoffered
    exact ⟨houtcome, hpresent⟩
  · rintro ⟨houtcome, -⟩
    exact ⟨hname, houtcome⟩

/-! ## Binding -/

/-- What is known of a request that is bound. -/
theorem of_bind_eq_ok (hv : o.options.validate = true) (h : o.bind r = .ok b) :
    ∃ body credentials, o.bodyOutcome r = .ok body ∧ o.securityOutcome r = .ok credentials ∧
      o.Accepts r ∧ b = o.bound (o.parameterOutcomes r ++ body) credentials := by
  cases hb : o.bodyOutcome r with
  | error e =>
      rw [bind, hv, hb] at h
      cases h
  | ok body =>
      by_cases hnil : o.errors r body = []
      · obtain ⟨credentials, hsecurity, hbound⟩ := bind_of_errors_eq_nil hv hb hnil
        rw [hbound] at h
        cases h
        exact ⟨body, credentials, rfl, hsecurity, (errors_eq_nil_iff hb).mp hnil, rfl⟩
      · rw [bind_of_errors_ne_nil hv hb hnil] at h
        cases h

/-- The credentials that are handed out are those that the security finds. -/
theorem get?_credentials_eq_some_iff {credentials : Credentials}
    (h : o.securityOutcome r = .ok credentials) {text : String} :
    Entries.get? k credentials = some text ↔ o.Finds r k text := by
  obtain ⟨hnone, hsome⟩ := credentials_of_securityOutcome h
  cases hs : o.security with
  | none =>
      rw [hnone hs]
      constructor
      · rintro ⟨⟩
      · rintro ⟨s, found, hs', -⟩
        rw [hs] at hs'
        cases hs'
  | some s =>
      have hcheck := hsome s hs
      constructor
      · exact fun hget => ⟨s, credentials, hs, hcheck, hget⟩
      · rintro ⟨s', found, hs', hcheck', hget⟩
        rw [hs] at hs'
        cases hs'
        rw [hcheck] at hcheck'
        cases hcheck'
        exact hget

theorem ascending_credentials {credentials : Credentials}
    (h : o.securityOutcome r = .ok credentials) : Entries.Ascending credentials := by
  obtain ⟨hnone, hsome⟩ := credentials_of_securityOutcome h
  cases hs : o.security with
  | none =>
      rw [hnone hs]
      exact Entries.ascending_nil
  | some s => exact Requirement.ascending_of_check (hsome s hs)

/-- The table of a bound request holds under each name what is bound there. -/
theorem get?_eq_some_iff_binds (hv : o.options.validate = true) (h : o.bind r = .ok b) :
    b.get? k = some f ↔ o.Binds r k f := by
  obtain ⟨body, credentials, hbody, hsecurity, haccepts, rfl⟩ := of_bind_eq_ok hv h
  have hnodup : (Entries.keys (Entries.mapValues Field.text credentials)).Nodup := by
    rw [Entries.mapValues, Entries.keys_map fun _ => Field.text]
    exact (ascending_credentials hsecurity).nodup
  have hcredential : Entries.get? k (Entries.mapValues Field.text credentials) =
      (Entries.get? k credentials).map Field.text :=
    Entries.get?_map (fun _ => Field.text) credentials
  have hfound : Entries.get? k credentials = none ↔ ∀ text, ¬ o.Finds r k text := by
    simp only [Option.eq_none_iff_forall_ne_some, ne_eq, get?_credentials_eq_some_iff hsecurity]
  have hnobody : Entries.get? k (values body) = none ↔
      ¬ (k = bodyName ∧ ∃ g, o.BodyYields r g) := by
    simp only [Option.eq_none_iff_forall_ne_some, ne_eq, get?_bodyValues_eq_some_iff hbody,
      not_and, not_exists]
    exact ⟨fun hn hk g => hn g hk, fun hn g hk => hn hk g⟩
  -- credentials are filed last, and the body after the parameters
  rw [Bound.get?, bound, Entries.get?_fileAll_of_nodup hnodup, hcredential, get?_values_append,
    Option.or_eq_some_iff, Option.or_eq_some_iff, Option.map_eq_none_iff, hfound, hnobody,
    Option.map_eq_some_iff, get?_bodyValues_eq_some_iff hbody,
    get?_parameterValues_eq_some_iff haccepts.parameters]
  simp only [get?_credentials_eq_some_iff hsecurity]
  constructor
  · rintro (⟨text, htext, rfl⟩ | ⟨hnone, ⟨rfl, hyields⟩ | ⟨hn, p, hlast, hyields⟩⟩)
    · exact .credential htext
    · exact .body hnone hyields
    · exact .parameter hnone hn hlast hyields
  · intro hbinds
    cases hbinds with
    | credential htext => exact .inl ⟨_, htext, rfl⟩
    | body hnone hyields => exact .inr ⟨hnone, .inl ⟨rfl, hyields⟩⟩
    | parameter hnone hn hlast hyields => exact .inr ⟨hnone, .inr ⟨hn, _, hlast, hyields⟩⟩

/-- With validation, a bound request holds under each name the value that is bound there. No value
that the request has for the operation is lost exactly if no name stands for two of them, which is
so where the parts of the operation have names of their own. -/
theorem get?_bind_iff (hv : o.options.validate = true) (h : o.bind r = .ok b) :
    (∀ k f, b.get? k = some f ↔ o.Binds r k f) ∧
    ((∀ k f, o.Offers r k f → b.get? k = some f) ↔
      ∀ k f g, o.Offers r k f → o.Offers r k g → f = g) ∧
    (o.NamesApart r → ∀ k f, o.Offers r k f → b.get? k = some f) := by
  have hkept : (∀ k f g, o.Offers r k f → o.Offers r k g → f = g) →
      ∀ k f, o.Offers r k f → b.get? k = some f := by
    intro hunique k f hf
    obtain ⟨g, hg⟩ := hf.exists_binds
    rw [hunique k f g hf hg.offers]
    exact (get?_eq_some_iff_binds hv h).mpr hg
  refine ⟨fun k f => get?_eq_some_iff_binds hv h, ⟨fun hall k f g hf hg => ?_, hkept⟩,
    fun happart => hkept fun k f g => happart.unique⟩
  have hsame := (hall k f hf).symm.trans (hall k g hg)
  exact Option.some.inj hsame

/-! ## Names for one value and for two -/

/-- An upload of an empty array with all that the operation declares. -/
def fullRequest : Request where
  query := [("limit", "50")]
  headers := [("content-type", "application/json"), ("x-key", "k")]
  body := [0x5b, 0x5d]

/-- The limit of the upload. -/
def uploadLimit : Json := .number (.int ⟨50, by decide, by decide⟩)

/-- What the upload is bound to. -/
def uploadBound : Bound where
  arguments := [("body", .value (.array [])), ("limit", .value uploadLimit),
    ("x-key", .text "k")]
  data := [("body", .value (.array [])), ("limit", .value uploadLimit),
    ("x-key", .text "k")]
  credentials := [("x-key", "k")]

theorem upload_namesApart : upload.NamesApart fullRequest.surface := by
  refine ⟨by decide, fun _ => by decide, ?_⟩
  rintro k text ⟨s, found, hs, hcheck, hget⟩
  cases hs
  have hfound : Requirement.check (.apiKey .header "x-key") fullRequest.surface.toCredentialSurface =
      .ok [("x-key", "k")] := by cbv
  rw [hfound] at hcheck
  cases hcheck
  obtain ⟨⟩ := List.mem_singleton.mp (Entries.mem_of_get? hget)
  exact ⟨by decide, fun _ => by decide⟩

/-- Every value of the upload has its own name, and none is lost. -/
theorem upload_keepsAll :
    upload.bind fullRequest.surface = .ok uploadBound ∧
      ∀ k f, upload.Offers fullRequest.surface k f → uploadBound.get? k = some f := by
  have hbind : upload.bind fullRequest.surface = .ok uploadBound := by cbv
  exact ⟨hbind, (get?_bind_iff rfl hbind).2.2 upload_namesApart⟩

/-- A document whose items are told by an `id` in the path, and have an `id` in the query too. -/
def itemDocument : Document where
  root := []
  paths := [("/items/\x7bid\x7d", .object [("get", .object [("parameters", .array [
    .object [("name", .string "id"), ("in", .string "path"),
      ("schema", .object [("type", .string "integer")])],
    .object [("name", .string "id"), ("in", .string "query"),
      ("schema", .object [("type", .string "string")])]])])])]
  components := none

/-- What the operation on an item is compiled to. -/
def item : Operation where
  path := "/items/\x7bid\x7d"
  method := "get"
  parameters := [⟨"id", .path, .integer {}, true⟩, ⟨"id", .query, .string {}, false⟩]
  body := none
  security := none
  options := {}

theorem compile_itemDocument (formats : FormatRegistry) (decoders : DecoderRegistry) :
    compile ⟨formats, decoders, {}⟩ itemDocument "/items/\x7bid\x7d" "get" = .ok item := by
  cbv

/-- A request for an item, with something else in the query. -/
def itemRequest : RequestSurface :=
  ((({} : Request).withPath "id" "40").withQuery "id" "x").surface

/-- The value of the path. -/
def itemId : Json := .number (.int ⟨40, by decide, by decide⟩)

/-- The value of the path is lost: that of the query takes its place. -/
theorem item_losesPathValue :
    ∃ o p b, compile .standard itemDocument "/items/\x7bid\x7d" "get" = .ok o ∧
      o.options.validate = true ∧ o.bind itemRequest = .ok b ∧
      p ∈ o.parameters ∧ p.Yields itemRequest (.value itemId) ∧
      b.get? p.name ≠ some (.value itemId) ∧ b.data = [("id", .text "x")] := by
  refine ⟨item, ⟨"id", .path, .integer {}, true⟩,
    ⟨[("id", .text "x")], [("id", .text "x")], []⟩, compile_itemDocument _ _, rfl, by cbv,
    List.mem_cons_self, ⟨by cbv, ?_⟩, ?_, rfl⟩
  · rintro ⟨⟩
  · intro h
    cases h

end Operation

end SchemaGate
