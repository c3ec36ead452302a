import Mathlib
import SchemaGate.Proofs.Request.Overriding
import SchemaGate.Request.Bind

/-!
# Parameters by reported name

A parameter is reported under its name, that of a header in lower case, since headers do not depend
on case. Declarations on the other hand replace each other by their names as written. So two
parameters of an operation never have the same place and the same reported name unless they are
headers that are spelled in different cases, and then both stay in force
(`Parameter.unique_iff_spelledAlike`).

* `Parameter.Declared.Meets` says which declarations are reported alike;
* `Parameter.mem_counting_iff` and `Parameter.pairwise_counting`: of declarations for the same
  parameter just the last one counts.
-/

namespace SchemaGate

theorem Location.name_injective {l m : Location} (h : l.name = m.name) : l = m := by
  have hl := Location.ofName?_eq_some_iff.mpr h
  rw [Location.ofName?_eq_some_iff.mpr rfl] at hl
  exact (Option.some.inj hl).symm

namespace Parameter

/-! ## Reported names -/

namespace Declared

/-- The name under which the parameter is reported. -/
def reported (d : Declared) : String :=
  if d.place = Location.header.name then d.name.toLower else d.name

/-- The declarations are for the same place and are reported alike. -/
def Meets (a b : Declared) : Prop := a.place = b.place ∧ a.reported = b.reported

variable {a b : Declared}

theorem Same.meets (h : a.Same b) : a.Meets b := by
  refine ⟨h.2, ?_⟩
  rw [reported, reported, h.1, h.2]

theorem Meets.symm (h : a.Meets b) : b.Meets a := ⟨h.1.symm, h.2.symm⟩

theorem Meets.trans {c : Declared} (h : a.Meets b) (h' : b.Meets c) : a.Meets c :=
  ⟨h.1.trans h'.1, h.2.trans h'.2⟩

/-- Only headers are reported otherwise than they are written. -/
theorem Meets.same_of_ne (h : a.Meets b) (hplace : a.place ≠ Location.header.name) :
    a.Same b := by
  obtain ⟨hab, hreported⟩ := h
  rw [reported, reported, if_neg hplace, if_neg (hab ▸ hplace)] at hreported
  exact ⟨hreported, hab⟩

end Declared

/-- The parameters are read from the same place and are reported under the same name. -/
def Collides (p q : Parameter) : Prop := p.location = q.location ∧ p.name = q.name

/-- The parameter is reported as the declaration says. -/
def IsFor (p : Parameter) (d : Declared) : Prop :=
  p.location.name = d.place ∧ p.name = d.reported

variable {ctx : Validator.Context} {a b d : Declared} {p q : Parameter}

theorem CompiledAs.isFor (h : CompiledAs ctx d p) : p.IsFor d := by
  refine ⟨h.location, ?_⟩
  rw [h.name, Declared.reported, ← h.location]
  by_cases hheader : p.location = .header
  · rw [if_pos hheader, if_pos (by rw [hheader])]
  · rw [if_neg hheader, if_neg fun hname => hheader (Location.name_injective hname)]

theorem CompiledAs.unique (hp : CompiledAs ctx d p) (hq : CompiledAs ctx d q) : p = q := by
  have hcompiled := ofDeclared_eq_ok_iff.mpr hp
  rw [ofDeclared_eq_ok_iff.mpr hq] at hcompiled
  cases hcompiled
  rfl

theorem CompiledAs.isFor_iff (hp : CompiledAs ctx a p) : p.IsFor b ↔ a.Meets b := by
  obtain ⟨hplace, hname⟩ := hp.isFor
  rw [IsFor, Declared.Meets, hplace, hname]

/-- Parameters collide exactly if their declarations meet. -/
theorem CompiledAs.collides_iff (hp : CompiledAs ctx a p) (hq : CompiledAs ctx b q) :
    p.Collides q ↔ a.Meets b := by
  obtain ⟨hplace, hname⟩ := hq.isFor
  rw [← hp.isFor_iff, IsFor, ← hplace, ← hname, Collides]
  constructor
  · intro h
    exact ⟨congrArg Location.name h.1, h.2⟩
  · intro h
    exact ⟨Location.name_injective h.1, h.2⟩

/-! ## One declaration for each parameter -/

variable {ds : List Declared}

/-- Of the declarations for one parameter the last counts. -/
theorem mem_counting_iff : d ∈ counting ds ↔ LastWhere (fun e => e.Same d) ds d := by
  induction ds with
  | nil =>
      constructor
      · intro h
        cases h
      · rintro ⟨⟩
  | cons c rest ih =>
      rw [counting_cons]
      cases hany : rest.any c.sameAs with
      | true =>
          obtain ⟨e, he, hsame⟩ := any_sameAs_iff.mp hany
          rw [if_pos rfl, ih]
          constructor
          · exact .later
          · intro h
            cases h with
            | here _ hnone => exact absurd hsame.symm (hnone e he)
            | later hlast => exact hlast
      | false =>
          have hnone : ∀ e ∈ rest, ¬ e.Same c := by
            intro e he hsame
            rw [any_sameAs_iff.mpr ⟨e, he, hsame.symm⟩] at hany
            cases hany
          rw [if_neg Bool.false_ne_true, List.mem_cons, ih]
          constructor
          · rintro (rfl | hlast)
            · exact .here (.refl d) hnone
            · exact .later hlast
          · intro h
            cases h with
            | here _ _ => exact .inl rfl
            | later hlast => exact .inr hlast

/-- No two declarations that count are for the same parameter. -/
theorem pairwise_counting (ds : List Declared) :
    (counting ds).Pairwise fun a b => ¬ a.Same b := by
  induction ds with
  | nil => exact .nil
  | cons c rest ih =>
      rw [counting_cons]
      cases hany : rest.any c.sameAs with
      | true => exact ih
      | false =>
          refine List.pairwise_cons.mpr ⟨?_, ih⟩
          intro e he hsame
          rw [any_sameAs_iff.mpr ⟨e, (mem_counting_iff.mp he).mem, hsame⟩] at hany
          cases hany

theorem exists_counting (hd : d ∈ ds) : ∃ e ∈ counting ds, e.Same d := by
  have hlast : ∃ e, LastWhere (fun e => e.Same d) ds e :=
    LastWhere.exists_iff.mpr ⟨d, hd, .refl d⟩
  obtain ⟨e, he⟩ := hlast
  have hsame : e.Same d := he.holds
  refine ⟨e, mem_counting_iff.mpr ?_, hsame⟩
  exact (LastWhere.congr fun c _ => ⟨fun h => h.trans hsame.symm, fun h => h.trans hsame⟩).mp he

/-- Declarations that are reported alike are written alike. -/
def SpelledAlike (ds : List Declared) : Prop := ∀ a ∈ ds, ∀ b ∈ ds, a.Meets b → a.Same b

/-- Reported names are unique among the declarations that count exactly if no header is spelled in
two ways. -/
theorem pairwise_not_meets_iff :
    (counting ds).Pairwise (fun a b => ¬ a.Meets b) ↔ SpelledAlike ds := by
  constructor
  · intro h a ha b hb hmeets
    obtain ⟨a', ha', hsame⟩ := exists_counting ha
    obtain ⟨b', hb', hsame'⟩ := exists_counting hb
    have hmeets' : a'.Meets b' := (hsame.meets.trans hmeets).trans hsame'.meets.symm
    have hsymm : Std.Symm fun a b : Declared => ¬ a.Meets b := ⟨fun _ _ hnot hm => hnot hm.symm⟩
    have heq : a' = b' := by
      by_contra hne
      exact h.forall ha' hb' hne hmeets'
    exact hsame.symm.trans (heq ▸ hsame')
  · intro h
    refine (pairwise_counting ds).imp_of_mem ?_
    intro a b ha hb hnot hmeets
    exact hnot (h a (mem_counting_iff.mp ha).mem b (mem_counting_iff.mp hb).mem hmeets)

/-! ## Parameters by reported name -/

variable {pathItem : Option (Entries Json)} {operation : Entries Json} {ps : List Parameter}
  {shared own : List Declared}

/-- Whether parameters collide is told by their declarations. -/
theorem pairwise_not_collides_iff (h : List.Forall₂ (CompiledAs ctx) (counting ds) ps) :
    ps.Pairwise (fun p q => ¬ p.Collides q) ↔
      (counting ds).Pairwise fun a b => ¬ a.Meets b := by
  constructor
  · refine pairwise_of_forall₂ h.flip ?_
    intro p q a b hp hq hnot hmeets
    exact hnot ((hp.collides_iff hq).mpr hmeets)
  · refine pairwise_of_forall₂ h ?_
    intro a b p q hp hq hnot hcollides
    exact hnot ((hp.collides_iff hq).mp hcollides)

/-- Only headers collide. -/
theorem pairwise_header_of_collides (h : List.Forall₂ (CompiledAs ctx) (counting ds) ps) :
    ps.Pairwise fun p q => p.Collides q → p.location = .header := by
  refine pairwise_of_forall₂ h ?_ (pairwise_counting ds)
  intro a b p q hp hq hnot hcollides
  by_contra hother
  have hplace : a.place ≠ Location.header.name := by
    intro hname
    exact hother (Location.name_injective (hp.location.trans hname))
  exact hnot (((hp.collides_iff hq).mp hcollides).same_of_ne hplace)

/-- Of declarations that are reported alike the operation's last one is compiled and no other, if
they are written alike in the case of headers. -/
theorem exists_only_own (h : List.Forall₂ (CompiledAs ctx) (counting (shared ++ own)) ps)
    (hb : b ∈ own)
    (hheader : b.place = Location.header.name → ∀ a ∈ shared ++ own, a.Meets b → a.Same b) :
    ∃ d p, LastWhere (fun e => e.Meets b) own d ∧ CompiledAs ctx d p ∧
      ∀ q, (q ∈ ps ∧ q.IsFor b) ↔ q = p := by
  have halike : ∀ a ∈ shared ++ own, a.Meets b → a.Same b := by
    intro a ha hmeets
    by_cases hplace : b.place = Location.header.name
    · exact hheader hplace a ha hmeets
    · exact (hmeets.symm.same_of_ne hplace).symm
  have hlast : ∃ d, LastWhere (fun e => e.Meets b) own d :=
    LastWhere.exists_iff.mpr ⟨b, hb, rfl, rfl⟩
  obtain ⟨d, hd⟩ := hlast
  have hmeets : d.Meets b := hd.holds
  have hsame : d.Same b := halike d (List.mem_append_right shared hd.mem) hmeets
  -- what counts for the parameter is the last declaration that meets `b`
  have hcounts : ∀ e, e.Same b → (e ∈ counting (shared ++ own) ↔ e = d) := by
    intro e he
    have hiff : ∀ c ∈ shared ++ own, c.Same e ↔ c.Meets b :=
      fun c hc => ⟨fun hce => (hce.trans he).meets, fun hcb => (halike c hc hcb).trans he.symm⟩
    rw [mem_counting_iff, LastWhere.congr hiff]
    constructor
    · exact fun hlast => hlast.unique (hd.append_left shared)
    · rintro rfl
      exact hd.append_left shared
  obtain ⟨p, hp, hcompiled⟩ := exists_mem_of_forall₂ h.flip ((hcounts d hsame).mpr rfl)
  refine ⟨d, p, hd, hcompiled, ?_⟩
  intro q
  constructor
  · rintro ⟨hq, hfor⟩
    obtain ⟨e, he, hqe⟩ := exists_mem_of_forall₂ h hq
    have hmem : e ∈ shared ++ own := (mem_counting_iff.mp he).mem
    have hed : e = d := (hcounts e (halike e hmem (hqe.isFor_iff.mp hfor))).mp he
    exact (hed ▸ hqe).unique hcompiled
  · rintro rfl
    exact ⟨hp, hcompiled.isFor_iff.mpr hmeets⟩

/-- The parameters of an operation have distinct reported names in each place exactly if no header
is spelled in two ways, and only headers are ever reported twice. What an operation declares is
compiled from its own last declaration and from no other, whatever its path declares, except for a
header that is spelled in two ways. -/
theorem unique_iff_spelledAlike (h : compileAll ctx pathItem operation = .ok ps) :
    ∃ shared own, Declares ctx pathItem operation shared own ∧
      (ps.Pairwise (fun p q => ¬ p.Collides q) ↔ SpelledAlike (shared ++ own)) ∧
      ps.Pairwise (fun p q => p.Collides q → p.location = .header) ∧
      ∀ b ∈ own, (b.place = Location.header.name →
          ∀ a ∈ shared ++ own, a.Meets b → a.Same b) →
        ∃ d p, LastWhere (fun e => e.Meets b) own d ∧ CompiledAs ctx d p ∧
          ∀ q, (q ∈ ps ∧ q.IsFor b) ↔ q = p := by
  obtain ⟨shared, own, hdeclares⟩ := exists_declares_of_compileAll h
  have hcompiled := hdeclares.compileAll_eq_ok_iff.mp h
  refine ⟨shared, own, hdeclares, ?_, pairwise_header_of_collides hcompiled, ?_⟩
  · rw [pairwise_not_collides_iff hcompiled, pairwise_not_meets_iff]
  · intro b hb hheader
    exact exists_only_own hcompiled hb hheader

/-! ## A header that is declared again -/

/-- A header of this name whose values have this type. -/
def headerOf (name type : String) : Entries Json :=
  [("name", .string name), ("in", .string "header"),
    ("schema", .object [("type", .string type)])]

/-- What lists one header. -/
def listing (name type : String) : Entries Json :=
  [("parameters", .array [.object (headerOf name type)])]

/-- The schemas of the headers need no shared definitions and no formats. -/
def headerContext : Validator.Context := ⟨none, .empty⟩

theorem declares_listing (name name' : String) :
    Declares headerContext (some (listing name "integer")) (listing name' "string")
      [⟨name, "header", headerOf name "integer"⟩] [⟨name', "header", headerOf name' "string"⟩] :=
  ⟨rfl, rfl⟩

/-- A trace that is a number for the path and a text for the operation is a text. -/
theorem trace_takesPlace :
    ∃ p, compileAll headerContext (some (listing "X-Trace" "integer"))
        (listing "X-Trace" "string") = .ok [p] ∧
      CompiledAs headerContext ⟨"X-Trace", "header", headerOf "X-Trace" "string"⟩ p := by
  have hcompiled : compileAll headerContext (some (listing "X-Trace" "integer"))
      (listing "X-Trace" "string") = .ok [⟨"x-trace", .header, .string {}, false⟩] := by
    cbv
  obtain ⟨shared, own, hdeclares, -, -, hown⟩ := unique_iff_spelledAlike hcompiled
  have hshared := hdeclares.shared.symm.trans (declares_listing "X-Trace" "X-Trace").shared
  have hlisted := hdeclares.own.symm.trans (declares_listing "X-Trace" "X-Trace").own
  cases hshared
  cases hlisted
  obtain ⟨d, p, hd, hp, honly⟩ := hown _ List.mem_cons_self fun _ a ha _ => by
    simp only [List.cons_append, List.nil_append, List.mem_cons, List.not_mem_nil, or_false] at ha
    rcases ha with rfl | rfl <;> exact ⟨rfl, rfl⟩
  obtain rfl := List.mem_singleton.mp hd.mem
  obtain rfl := List.mem_singleton.mp ((honly p).mpr rfl).1
  exact ⟨_, hcompiled, hp⟩

/-- A path and an operation on it that declare the trace in two spellings. -/
def traceDocument : Document where
  root := []
  paths := [("/a", .object (listing "X-Trace" "integer" ++
    [("get", .object (listing "x-trace" "string"))]))]
  components := none

/-- What the operation is compiled to. -/
def tracedTwice : Operation where
  path := "/a"
  method := "get"
  parameters := [⟨"x-trace", .header, .integer {}, false⟩, ⟨"x-trace", .header, .string {}, false⟩]
  body := none
  security := none
  options := {}

theorem compile_traceDocument (formats : FormatRegistry) (decoders : DecoderRegistry) :
    Operation.compile ⟨formats, decoders, {}⟩ traceDocument "/a" "get" = .ok tracedTwice := by
  cbv

/-- Both traces are compiled, and a text is refused since it is no number. -/
theorem trace_staysInForce :
    compileAll headerContext (some (listing "X-Trace" "integer")) (listing "x-trace" "string") =
      .ok tracedTwice.parameters ∧
    ¬ tracedTwice.parameters.Pairwise (fun p q => ¬ p.Collides q) ∧
    Operation.compile .standard traceDocument "/a" "get" = .ok tracedTwice ∧
    tracedTwice.bind (({} : Request).withHeader "X-Trace" "abc").surface =
      .error (.invalid [("x-trace", typeError "int")]) := by
  refine ⟨by cbv, ?_, compile_traceDocument _ _, by cbv⟩
  intro h
  exact (List.pairwise_cons.mp h).1 _ List.mem_cons_self ⟨rfl, rfl⟩

end Parameter

end SchemaGate
