import Mathlib
import SchemaGate.Proofs.Request.Binding
import SchemaGate.Proofs.Text.Trimming

/-!
# The most specific media type

The media type of a request selects one of those that an operation declares for its body: the
declared ones are compared by essence, the media type itself comes before its wildcards, and of
declarations of the same essence the last counts (`Operation.bind_selects_mostSpecific`).

* `MediaType.Splits` says what the kind and the subtype are, and `MediaType.Ranks` what a media type
  may be found under, the most specific key first;
* `MediaType.Names` says which texts name a media type: case, blanks around it and parameters make
  no difference, so they have one essence (`MediaType.Names.essence_eq`);
* `MediaType.select_eq_some_iff`: a table of any kind is searched in this order, so that a registry
  of decoders makes the same choice (`DecoderRegistry.lookup_eq_ok_iff`).
-/

namespace SchemaGate

namespace MediaType

/-! ## Kind and subtype -/

/-- The kind stands before the first slash and the subtype behind it. Without a slash there is only
a kind, and any subtype will do. -/
inductive Splits (essence : String) : String → String → Prop
  | slash {kind subtype : String} : '/' ∉ kind.toList → kind ++ "/" ++ subtype = essence →
      Splits essence kind subtype
  | whole : '/' ∉ essence.toList → Splits essence essence "*"

/-- A media type has one kind and one subtype. -/
theorem Splits.split_eq {essence kind subtype : String} (h : Splits essence kind subtype) :
    split essence = (kind, subtype) := by
  cases h with
  | slash hkind heq =>
      have hlist : essence.toList = kind.toList ++ '/' :: subtype.toList := by
        simp [← heq]
      have hdrop : essence.toList.dropWhile (· != '/') = '/' :: subtype.toList := by
        rw [hlist, dropWhile_bne_eq hkind]
      have htake : essence.toList.takeWhile (· != '/') = kind.toList := by
        rw [hlist, takeWhile_bne_eq hkind]
      simp [split, hdrop, htake]
  | whole hessence =>
      have hdrop : essence.toList.dropWhile (· != '/') = [] :=
        List.dropWhile_eq_nil_iff.mpr (bne_of_not_mem hessence)
      simp [split, hdrop]

theorem exists_splits (essence : String) : ∃ kind subtype, Splits essence kind subtype := by
  by_cases hslash : '/' ∈ essence.toList
  · obtain ⟨kind, subtype, hlist, hkind⟩ := List.eq_append_cons_of_mem hslash
    refine ⟨String.ofList kind, String.ofList subtype, .slash (by simpa using hkind) ?_⟩
    apply String.toList_injective
    simp [hlist]
  · exact ⟨essence, "*", .whole hslash⟩

/-- What a media type is found under, the most specific key first. -/
inductive Ranks (mediaType : String) : List String → Prop
  | of {kind subtype : String} : Splits (essence mediaType) kind subtype →
      Ranks mediaType [essence mediaType, kind ++ "/*", "*/" ++ subtype, "*/*"]

/-- The candidates are ranked as they are tried. -/
theorem ranks_iff {mediaType : String} {keys : List String} :
    Ranks mediaType keys ↔ candidates (essence mediaType) = keys := by
  have hranks : ∀ {kind subtype}, Splits (essence mediaType) kind subtype →
      candidates (essence mediaType) =
        [essence mediaType, kind ++ "/*", "*/" ++ subtype, "*/*"] := by
    intro kind subtype hsplits
    rw [candidates, hsplits.split_eq]
  constructor
  · intro h
    cases h with
    | of hsplits => exact hranks hsplits
  · rintro rfl
    obtain ⟨kind, subtype, hsplits⟩ := exists_splits (essence mediaType)
    rw [hranks hsplits]
    exact .of hsplits

theorem ranks_candidates (mediaType : String) :
    Ranks mediaType (candidates (essence mediaType)) := ranks_iff.mpr rfl

/-! ## Searching -/

section Searching

variable {α : Type} {table : Entries α} {mediaType : String} {keys : List String}

/-- A table is searched for the most specific key that it has. -/
theorem select_eq_some_iff (h : Ranks mediaType keys) {v : α} :
    select (fun key => Entries.get? key table) (essence mediaType) = some v ↔
      ∃ key, FirstWhere (fun key => key ∈ Entries.keys table) keys key ∧
        Entries.get? key table = some v := by
  rw [select_get?_eq_some_iff, ranks_iff.mp h]

theorem select_eq_none_iff (h : Ranks mediaType keys) :
    select (fun key => Entries.get? key table) (essence mediaType) = none ↔
      ∀ key ∈ keys, key ∉ Entries.keys table := by
  rw [select_get?_eq_none_iff, ranks_iff.mp h]

end Searching

/-! ## What names a media type -/

/-- The text names the media type: in any case, with blanks around it, and with parameters behind a
semicolon. -/
inductive Names (mediaType : String) : String → Prop
  | of {front back parameters : List Char} {name : String} :
      (∀ c ∈ front, Text.isBlank c = true) → (∀ c ∈ back, Text.isBlank c = true) →
      name.toLower = mediaType.toLower →
      (parameters = [] ∨ ∃ rest, parameters = ';' :: rest) →
      Names mediaType (String.ofList (front ++ name.toList ++ back ++ parameters))

theorem toLower_eq_semicolon_iff (c : Char) : c.toLower = ';' ↔ c = ';' := by
  rcases Text.toLower_eq_or c with h | ⟨hlow, hhigh, hlower⟩
  · rw [h]
  · constructor
    · intro h
      have hcode : c.toLower.toNat = 59 := by rw [h]; rfl
      omega
    · rintro rfl
      have hcode : ';'.toNat = 59 := rfl
      omega

/-- The essence is that of the media type in lower case. -/
theorem toList_essence (mediaType : String) :
    (essence mediaType).toList =
      Text.trimChars (mediaType.toLower.toList.takeWhile (· != ';')) := by
  have hsemicolon : (fun c : Char => c != ';') ∘ Char.toLower = fun c => c != ';' := by
    funext c
    simp [bne, Bool.beq_eq_decide_eq, toLower_eq_semicolon_iff]
  simp only [essence, String.toLower, String.toList_map, String.toList_ofList]
  rw [List.takeWhile_map, hsemicolon, Text.trimChars_map_toLower]

theorem essence_congr {name mediaType : String} (h : name.toLower = mediaType.toLower) :
    essence name = essence mediaType := by
  apply String.toList_injective
  rw [toList_essence, toList_essence, h]

/-- What stands before the parameters is the name, but for blanks; the name may have parameters of
its own. -/
theorem trimChars_takeWhile_named {front name back parameters : List Char}
    (hfront : ∀ c ∈ front, Text.isBlank c = true) (hback : ∀ c ∈ back, Text.isBlank c = true)
    (hparameters : parameters = [] ∨ ∃ rest, parameters = ';' :: rest) :
    Text.trimChars ((front ++ name ++ back ++ parameters).takeWhile (· != ';')) =
      Text.trimChars (name.takeWhile (· != ';')) := by
  have hblanks : ∀ {cs : List Char}, (∀ c ∈ cs, Text.isBlank c = true) → ';' ∉ cs := by
    intro cs hcs hmem
    cases hcs ';' hmem
  have hnone : parameters.takeWhile (· != ';') = [] := by
    rcases hparameters with rfl | ⟨rest, rfl⟩ <;> rfl
  by_cases hname : ';' ∈ name
  · obtain ⟨before, after, rfl, hbefore⟩ := List.eq_append_cons_of_mem hname
    have hstart : ';' ∉ front ++ before := by
      simp [hblanks hfront, hbefore]
    have hshown : (front ++ (before ++ ';' :: after) ++ back ++ parameters).takeWhile (· != ';') =
        front ++ before := by
      simpa using takeWhile_bne_eq hstart (after ++ back ++ parameters)
    have hnothing : ∀ c ∈ ([] : List Char), Text.isBlank c = true := by simp
    have htrimmed := Text.trimChars_surrounded before hfront hnothing
    rw [List.append_nil] at htrimmed
    rw [hshown, takeWhile_bne_eq hbefore, htrimmed]
  · have hshown : (front ++ name ++ back ++ parameters).takeWhile (· != ';') =
        front ++ name ++ back := by
      have hall : ';' ∉ front ++ name ++ back := by
        simp [hblanks hfront, hname, hblanks hback]
      rw [List.takeWhile_append_of_pos (bne_of_not_mem hall), hnone, List.append_nil]
    have hown : name.takeWhile (· != ';') = name :=
      List.takeWhile_eq_self_iff.mpr (bne_of_not_mem hname)
    rw [hshown, hown, Text.trimChars_surrounded name hfront hback]

/-- Case, blanks and parameters do not change the essence. -/
theorem Names.essence_eq {mediaType written : String} (h : Names mediaType written) :
    essence written = essence mediaType := by
  cases h with
  | of hfront hback hname hparameters =>
      rw [← essence_congr hname, essence, essence, String.toList_ofList,
        trimChars_takeWhile_named hfront hback hparameters]

end MediaType

/-! ## Decoders -/

namespace DecoderRegistry

variable {r : DecoderRegistry} {mediaType : String} {keys : List String}

/-- The decoder for a media type is that of the most specific key which is registered. -/
theorem lookup_eq_ok_iff (h : MediaType.Ranks mediaType keys) {d : Decoder} :
    r.lookup mediaType = .ok d ↔
      ∃ key, FirstWhere (fun key => key ∈ r.mediaTypes) keys key ∧
        Entries.get? key r.decoders = some d := by
  rw [mediaTypes, ← MediaType.select_eq_some_iff h, lookup]
  cases MediaType.select (fun key => Entries.get? key r.decoders) (MediaType.essence mediaType) <;>
    simp

theorem exists_lookup (h : MediaType.Ranks mediaType keys) {key : String}
    (hkey : FirstWhere (fun key => key ∈ r.mediaTypes) keys key) :
    ∃ d, Entries.get? key r.decoders = some d ∧ r.lookup mediaType = .ok d := by
  have hregistered : key ∈ Entries.keys r.decoders := hkey.holds
  obtain ⟨d, hd⟩ := Entries.exists_get?_of_mem_keys hregistered
  exact ⟨d, hd, (lookup_eq_ok_iff h).mpr ⟨key, hkey, hd⟩⟩

theorem lookup_eq_error_iff (h : MediaType.Ranks mediaType keys) {e : CompileError} :
    r.lookup mediaType = .error e ↔
      .missingDecoder (MediaType.essence mediaType) = e ∧ ∀ key ∈ keys, key ∉ r.mediaTypes := by
  rw [mediaTypes, ← MediaType.select_eq_none_iff h, lookup]
  cases MediaType.select (fun key => Entries.get? key r.decoders) (MediaType.essence mediaType) <;>
    simp

end DecoderRegistry

/-! ## Declared content -/

namespace RequestBody

/-- What validates the values of a declared media type. -/
inductive ValidatedBy (ctx : Validator.Context) (entry : Json) : Option Validator → Prop
  | anything : entry.member? "schema" = none → ValidatedBy ctx entry none
  | schema {s : Json} {v : Validator} : entry.member? "schema" = some s →
      Validator.compile ctx s = .ok v → ValidatedBy ctx entry (some v)

/-- What a declared media type is compiled to. -/
structure CompiledAs (ctx : Validator.Context) (decoders : DecoderRegistry) (entry : String × Json)
    (content : BodyContent) : Prop where
  decoder : decoders.lookup entry.1 = .ok content.decoder
  validator : ValidatedBy ctx entry.2 content.validator

/-- The media types that a body declares, in order; the body may be a reference. -/
def Declares (ctx : Validator.Context) (body : Json) (declared : Entries Json) : Prop :=
  ∃ resolved, Parameter.resolve ctx.components body = .ok resolved ∧
    resolved.member? "content" = some (.object declared)

/-- The essence of some declared media type. -/
def HasEssence (declared : Entries Json) (key : String) : Prop :=
  ∃ entry ∈ declared, MediaType.essence entry.1 = key

variable {ctx : Validator.Context} {decoders : DecoderRegistry} {body : Json}
  {declared : Entries Json} {contents : Entries BodyContent} {b : RequestBody}

/-- Media types are compiled one by one and kept under their essences. -/
theorem forall₂_of_compileContent (h : compileContent ctx decoders declared = .ok contents) :
    List.Forall₂ (fun entry c => MediaType.essence entry.1 = c.1 ∧ CompiledAs ctx decoders entry c.2)
      declared contents := by
  induction declared generalizing contents with
  | nil =>
      cases h
      exact .nil
  | cons entry rest ih =>
      rw [compileContent, bind_eq_ok_iff] at h
      obtain ⟨decoder, hdecoder, h⟩ := h
      have hvalidated : ∃ validator, ValidatedBy ctx entry.2 validator ∧
          (compileContent ctx decoders rest >>= fun others =>
            pure ((MediaType.essence entry.1, ⟨decoder, validator⟩) :: others)) =
              .ok contents := by
        cases hmember : entry.2.member? "schema" with
        | none =>
            rw [hmember] at h
            exact ⟨none, .anything hmember, h⟩
        | some s =>
            rw [hmember] at h
            cases hv : Validator.compile ctx s with
            | error e =>
                simp only [hv] at h
                cases h
            | ok v =>
                simp only [hv] at h
                exact ⟨some v, .schema hmember hv, h⟩
      obtain ⟨validator, hvalidator, h⟩ := hvalidated
      obtain ⟨others, hothers, h⟩ := bind_eq_ok_iff.mp h
      cases h
      exact .cons ⟨rfl, hdecoder, hvalidator⟩ (ih hothers)

/-- The content of a compiled body: under each essence what the last declaration of that essence is
compiled to. -/
structure Keeps (ctx : Validator.Context) (decoders : DecoderRegistry) (declared : Entries Json)
    (content : Entries BodyContent) : Prop where
  mem_keys_iff : ∀ key, key ∈ Entries.keys content ↔ HasEssence declared key
  last : ∀ key, HasEssence declared key → ∃ entry c,
    LastWhere (fun entry => MediaType.essence entry.1 = key) declared entry ∧
      CompiledAs ctx decoders entry c ∧ Entries.get? key content = some c

/-- Of the contents of one essence the last is kept. -/
theorem keeps_sorted (h : compileContent ctx decoders declared = .ok contents) :
    Keeps ctx decoders declared (Entries.sorted contents) := by
  have hall := forall₂_of_compileContent h
  constructor
  · intro key
    have hkeys : Entries.keys contents = declared.map fun entry => MediaType.essence entry.1 := by
      clear h
      induction hall with
      | nil => rfl
      | cons hc _ ih => rw [Entries.keys_cons, List.map_cons, ih, hc.1]
    rw [Entries.mem_keys_sorted, hkeys, List.mem_map, HasEssence]
  · intro key hkey
    obtain ⟨entry, hentry⟩ := LastWhere.exists_iff.mpr hkey
    have hkept : ∀ (entry : String × Json) (c : String × BodyContent),
        (MediaType.essence entry.1 = c.1 ∧ CompiledAs ctx decoders entry c.2) →
          (MediaType.essence entry.1 = key ↔ c.1 = key) := by
      intro entry c hc
      rw [hc.1]
    obtain ⟨⟨key', c⟩, ⟨-, hcompiled⟩, hlast⟩ := hentry.exists_of_forall₂ hall hkept
    have hkey' : key' = key := hlast.holds
    rw [hkey'] at hlast
    exact ⟨entry, c, hentry, hcompiled, Entries.get?_sorted_eq_some_iff.mpr hlast⟩

/-- What a body is compiled to. -/
theorem exists_keeps_of_compile (h : compile ctx decoders body = .ok b) :
    ∃ declared, Declares ctx body declared ∧ Keeps ctx decoders declared b.content := by
  rw [compile, bind_eq_ok_iff] at h
  obtain ⟨resolved, hresolved, h⟩ := h
  cases hdeclared : (resolved.member? "content").bind Json.object? with
  | none =>
      simp only [hdeclared] at h
      cases h
  | some declared =>
      simp only [hdeclared] at h
      obtain ⟨contents, hcontents, h⟩ := bind_eq_ok_iff.mp h
      cases h
      exact ⟨declared, ⟨resolved, hresolved, Json.bind_object?_eq_some_iff.mp hdeclared⟩,
        keeps_sorted hcontents⟩

/-! ## Selecting -/

variable {mediaType : String} {keys : List String} {r : RequestSurface}

/-- A body is of no declared media type exactly if none of the keys is declared. -/
theorem Keeps.outcome_eq_error_iff (h : Keeps ctx decoders declared b.content)
    (hranks : MediaType.Ranks mediaType keys) (hr : r.contentType = some mediaType)
    {e : BindError} :
    b.outcome r = .error e ↔ .unsupportedMediaType (MediaType.essence mediaType) = e ∧
      ∀ key ∈ keys, ¬ HasEssence declared key := by
  rw [RequestBody.outcome_eq_error_iff]
  simp only [hr, Option.some.injEq, exists_eq_left', MediaType.ranks_iff.mp hranks,
    h.mem_keys_iff]
  exact and_comm

/-- A body of the media type is bound as this declared entry has it. -/
def Uses (ctx : Validator.Context) (decoders : DecoderRegistry) (b : RequestBody)
    (mediaType : String) (entry : String × Json) : Prop :=
  ∃ c, CompiledAs ctx decoders entry c ∧ b.Selects mediaType c ∧
    ∀ r : RequestSurface, r.contentType = some mediaType →
      ∀ outcome, b.outcome r = .ok outcome ↔ c.Fares b.required r.body outcome

/-- With the content selected, the octets of the body decide. -/
theorem Selects.outcome_eq_ok_iff {c : BodyContent} (h : b.Selects mediaType c)
    (hr : r.contentType = some mediaType) {outcome : Outcome} :
    b.outcome r = .ok outcome ↔ c.Fares b.required r.body outcome := by
  have hselect := select_eq_some_iff.mpr h
  simp only [RequestBody.outcome, hr, hselect, Except.ok.injEq, BodyContent.outcome_eq_iff]

/-- The declaration of the most specific essence is used, and the last one of these. -/
theorem Keeps.exists_uses (h : Keeps ctx decoders declared b.content)
    (hranks : MediaType.Ranks mediaType keys) {key : String}
    (hkey : FirstWhere (HasEssence declared) keys key) :
    ∃ entry, LastWhere (fun entry => MediaType.essence entry.1 = key) declared entry ∧
      Uses ctx decoders b mediaType entry := by
  obtain ⟨entry, c, hentry, hcompiled, hget⟩ := h.last key hkey.holds
  have hselects : b.Selects mediaType c := by
    rw [Selects, MediaType.ranks_iff.mp hranks]
    exact ⟨key, hkey.congr h.mem_keys_iff, hget⟩
  exact ⟨entry, hentry, c, hcompiled, hselects, fun r hr outcome => hselects.outcome_eq_ok_iff hr⟩

/-- What has the same essence is used alike. -/
theorem Uses.congr {other : String} {entry : String × Json}
    (h : Uses ctx decoders b mediaType entry)
    (hessence : MediaType.essence other = MediaType.essence mediaType) :
    Uses ctx decoders b other entry := by
  obtain ⟨c, hcompiled, hselects, -⟩ := h
  have hselects' : b.Selects other c := by
    rwa [Selects, hessence]
  exact ⟨c, hcompiled, hselects', fun r hr outcome => hselects'.outcome_eq_ok_iff hr⟩

/-- A declared media type is found under its own essence. -/
theorem firstWhere_of_declared (hranks : MediaType.Ranks mediaType keys)
    (h : HasEssence declared (MediaType.essence mediaType)) :
    FirstWhere (HasEssence declared) keys (MediaType.essence mediaType) := by
  cases hranks with
  | of _ => exact .here h

end RequestBody

/-! ## Binding -/

namespace Operation

variable {o : Operation} {r : RequestSurface}

/-- Only for its body is a request refused as being of an unknown media type. -/
theorem bind_eq_unsupported_iff {b : RequestBody} (hb : o.body = some b) {mediaType : String} :
    o.bind r = .error (.unsupportedMediaType mediaType) ↔
      o.options.validate = true ∧ b.outcome r = .error (.unsupportedMediaType mediaType) := by
  by_cases hv : o.options.validate = true
  · cases houtcome : b.outcome r with
    | error e =>
        have hbody : o.bodyOutcome r = .error e := by
          simp [bodyOutcome, hb, houtcome, Except.map]
        simp [bind, hv, hbody]
    | ok outcome =>
        have hbody : o.bodyOutcome r = .ok [(bodyName, outcome)] := by
          simp [bodyOutcome, hb, houtcome, Except.map]
        by_cases hnil : o.errors r [(bodyName, outcome)] = []
        · obtain ⟨credentials, -, hbound⟩ := bind_of_errors_eq_nil hv hbody hnil
          simp [hbound]
        · simp [bind_of_errors_ne_nil hv hbody hnil]
  · simp [bind, hv]

/-- Requests that differ in a media type of one essence are bound alike. -/
theorem bind_of_essence_eq {mediaType other : String} (hr : r.contentType = some mediaType)
    (h : MediaType.essence mediaType = MediaType.essence other) :
    o.bind r = o.bind { r with contentType := some other } := by
  have hbody : o.bodyOutcome { r with contentType := some other } = o.bodyOutcome r := by
    simp only [bodyOutcome, RequestBody.outcome, hr, h]
  have hparameters : o.parameterOutcomes { r with contentType := some other } =
      o.parameterOutcomes r := rfl
  have hsecurity : o.securityOutcome { r with contentType := some other } =
      o.securityOutcome r := rfl
  rw [bind, bind, hbody, hparameters, hsecurity]

/-- A body is refused for its media type exactly if neither the media type nor a wildcard of it is
declared, and so is then the request if requests are checked at all. Otherwise the body is bound as
the most specific of these has it, in its last declaration. To name a declared media type is as good
as writing it, in any case, with blanks around it and with parameters. A registry of decoders makes
the same choice among its own keys. -/
theorem bind_selects_mostSpecific {ctx : Validator.Context} {decoders : DecoderRegistry}
    {body : Json} {b : RequestBody} {mediaType : String}
    (h : RequestBody.compile ctx decoders body = .ok b) (hb : o.body = some b)
    (hr : r.contentType = some mediaType) :
    ∃ declared keys, RequestBody.Declares ctx body declared ∧ MediaType.Ranks mediaType keys ∧
      (∀ e, b.outcome r = .error e ↔
        .unsupportedMediaType (MediaType.essence mediaType) = e ∧
          ∀ key ∈ keys, ¬ RequestBody.HasEssence declared key) ∧
      (∀ essence, o.bind r = .error (.unsupportedMediaType essence) ↔
        o.options.validate = true ∧ b.outcome r = .error (.unsupportedMediaType essence)) ∧
      (∀ key, FirstWhere (RequestBody.HasEssence declared) keys key →
        ∃ entry, LastWhere (fun entry => MediaType.essence entry.1 = key) declared entry ∧
          b.Uses ctx decoders mediaType entry) ∧
      (∀ named ∈ declared, MediaType.Names named.1 mediaType →
        (∀ essence, o.bind r ≠ .error (.unsupportedMediaType essence)) ∧
        o.bind r = o.bind { r with contentType := some named.1 } ∧
        ∃ entry, LastWhere (fun entry => MediaType.essence entry.1 = MediaType.essence named.1)
            declared entry ∧
          b.Uses ctx decoders mediaType entry ∧ b.Uses ctx decoders named.1 entry) ∧
      ∀ registry : DecoderRegistry,
        (∀ e, registry.lookup mediaType = .error e ↔
          .missingDecoder (MediaType.essence mediaType) = e ∧
            ∀ key ∈ keys, key ∉ registry.mediaTypes) ∧
        ∀ key, FirstWhere (fun key => key ∈ registry.mediaTypes) keys key →
          ∃ d, Entries.get? key registry.decoders = some d ∧ registry.lookup mediaType = .ok d := by
  obtain ⟨declared, hdeclares, hkeeps⟩ := RequestBody.exists_keeps_of_compile h
  have hranks := MediaType.ranks_candidates mediaType
  refine ⟨declared, _, hdeclares, hranks, ?_, ?_, ?_, ?_, ?_⟩
  · intro e
    exact hkeeps.outcome_eq_error_iff hranks hr
  · intro essence
    exact bind_eq_unsupported_iff hb
  · intro key hkey
    exact hkeeps.exists_uses hranks hkey
  · intro named hnamed hnames
    have hessence : MediaType.essence mediaType = MediaType.essence named.1 := hnames.essence_eq
    have hhas : RequestBody.HasEssence declared (MediaType.essence mediaType) :=
      ⟨named, hnamed, hessence.symm⟩
    have hfirst := RequestBody.firstWhere_of_declared hranks hhas
    refine ⟨?_, bind_of_essence_eq hr hessence, ?_⟩
    · intro essence hbind
      have hrefused := ((bind_eq_unsupported_iff hb).mp hbind).2
      exact ((hkeeps.outcome_eq_error_iff hranks hr).mp hrefused).2 _ hfirst.mem hhas
    · obtain ⟨entry, hentry, huses⟩ := hkeeps.exists_uses hranks hfirst
      rw [hessence] at hentry
      exact ⟨entry, hentry, huses, huses.congr hessence.symm⟩
  · intro registry
    refine ⟨fun e => DecoderRegistry.lookup_eq_error_iff hranks, ?_⟩
    intro key hkey
    exact DecoderRegistry.exists_lookup hranks hkey

/-! ## A note in several media types -/

/-- The schemas of the note need no shared definitions and no formats. -/
def noteContext : Validator.Context := ⟨none, .empty⟩

/-- A registry that reads every media type as a written value. -/
def noteDecoders : DecoderRegistry := ⟨[("*/*", ⟨"*/*", Decoder.json⟩)]⟩

/-- Texts are declared twice, in two spellings. -/
def noteContent : Entries Json :=
  [("text/*", .object [("schema", .object [("type", .string "integer")])]),
    ("Text/* ; v=2", .object [("schema", .object [("type", .string "string")])]),
    ("*/*", .object [])]

/-- What the body of a note is compiled to. -/
def noteBody : RequestBody where
  required := false
  content := [("*/*", ⟨⟨"*/*", Decoder.json⟩, none⟩),
    ("text/*", ⟨⟨"*/*", Decoder.json⟩, some (.string {})⟩)]

/-- An operation that takes a note. -/
def takeNote : Operation where
  path := "/notes"
  method := "post"
  parameters := []
  body := some noteBody
  security := none
  options := {}

/-- A plain text is a text as it was declared last. -/
theorem noteBody_uses_lastText :
    noteBody.Uses noteContext noteDecoders " Text/Plain; q=1"
      ("Text/* ; v=2", .object [("schema", .object [("type", .string "string")])]) := by
  have hcompiled : RequestBody.compile noteContext noteDecoders
      (.object [("content", .object noteContent)]) = .ok noteBody := by
    cbv
  have hsent : (({} : Request).withBody " Text/Plain; q=1" []).surface.contentType =
      some " Text/Plain; q=1" := by
    cbv
  have hbody : takeNote.body = some noteBody := rfl
  obtain ⟨declared, keys, ⟨resolved, hresolved, hcontent⟩, hranks, -, -, huses, -⟩ :=
    bind_selects_mostSpecific hcompiled hbody hsent
  cases hresolved
  have hdeclared : declared = noteContent := by
    cases hcontent
    rfl
  subst hdeclared
  have hkeys : MediaType.candidates (MediaType.essence " Text/Plain; q=1") =
      ["text/plain", "text/*", "*/plain", "*/*"] := by
    cbv
  obtain rfl := (MediaType.ranks_iff.mp hranks).symm.trans hkeys
  have hessences : noteContent.map (fun entry => MediaType.essence entry.1) =
      ["text/*", "text/*", "*/*"] := by
    cbv
  have hhas : ∀ key, RequestBody.HasEssence noteContent key ↔ key ∈ ["text/*", "text/*", "*/*"] := by
    intro key
    rw [RequestBody.HasEssence, ← List.mem_map, hessences]
  have hfirst : FirstWhere (RequestBody.HasEssence noteContent)
      ["text/plain", "text/*", "*/plain", "*/*"] "text/*" :=
    .later (by simp [hhas]) (.here (by simp [hhas]))
  obtain ⟨entry, hentry, hused⟩ := huses "text/*" hfirst
  have hother : MediaType.essence "*/*" = "*/*" := by cbv
  have hlast : LastWhere (fun entry => MediaType.essence entry.1 = "text/*") noteContent
      ("Text/* ; v=2", .object [("schema", .object [("type", .string "string")])]) :=
    .later (.here (by cbv) (by simp [hother]))
  exact hentry.unique hlast ▸ hused

end Operation

end SchemaGate
