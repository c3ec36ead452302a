import Mathlib
import SchemaGate.Proofs.Lists
import SchemaGate.Request.Parameter

/-!
# Parameters that are declared again

A path and its operations list declarations of parameters, and of those for the same name and
place, as written, only the last counts. So the compiled parameters of an operation are those of
the declarations that no later one replaces, in the order in which they are listed
(`Parameter.compileAll_keepsLast`): a declaration that is replaced only has to have a name and a
place.

* `Parameter.DeclaredAs` and `Parameter.CompiledAs` say what an entry declares and what a
  declaration is compiled to;
* `Parameter.Counts` says which declarations are replaced by none, and `Parameter.effective` keeps
  these (`Parameter.effective_eq_counting`);
* `Parameter.effective_append` is the law of overriding: a longer list takes away what it replaces
  and adds what it declares itself (`Parameter.effective_eq_foldl` for one declaration at a time).
-/

namespace SchemaGate

theorem Location.ofName?_eq_some_iff {s : String} {l : Location} :
    Location.ofName? s = some l ↔ l.name = s := by
  constructor
  · intro h
    unfold Location.ofName? at h
    split at h <;> cases h <;> rfl
  · rintro rfl
    cases l <;> rfl

namespace Parameter

/-! ## Declarations -/

/-- The declarations are for the same parameter, as they are written. -/
def Declared.Same (a b : Declared) : Prop := a.name = b.name ∧ a.place = b.place

namespace Declared

variable {a b c : Declared}

theorem sameAs_iff : a.sameAs b = true ↔ a.Same b := by
  rw [sameAs, Bool.and_eq_true, beq_iff_eq, beq_iff_eq, Same]

instance (a b : Declared) : Decidable (a.Same b) := decidable_of_iff _ sameAs_iff

theorem Same.refl (a : Declared) : a.Same a := ⟨rfl, rfl⟩

theorem Same.symm (h : a.Same b) : b.Same a := ⟨h.1.symm, h.2.symm⟩

theorem Same.trans (h : a.Same b) (h' : b.Same c) : a.Same c :=
  ⟨h.1.trans h'.1, h.2.trans h'.2⟩

end Declared

/-- What an entry of a list declares: the object that it is or refers to, with a name and a place
that are texts. -/
structure DeclaredAs (components : Option Components) (entry : Json) (d : Declared) : Prop where
  resolved : resolve components entry = .ok (.object d.members)
  name : Entries.get? "name" d.members = some (.string d.name)
  place : Entries.get? "in" d.members = some (.string d.place)

/-- An entry, or what it refers to, is declared by a name and a place that are texts. -/
theorem declare_eq_ok_iff {components : Option Components} {entry : Json} {d : Declared} :
    declare components entry = .ok d ↔ DeclaredAs components entry d := by
  rw [declare, bind_eq_ok_iff]
  constructor
  · rintro ⟨v, hv, h⟩
    cases v with
    | object members =>
        simp only at h
        split at h
        · cases h
        · rename_i name hname
          split at h
          · cases h
          · rename_i place hplace
            cases h
            exact ⟨hv, Json.bind_string?_eq_some_iff.mp hname,
              Json.bind_string?_eq_some_iff.mp hplace⟩
    | _ => cases h
  · intro h
    refine ⟨_, h.resolved, ?_⟩
    simp [h.name, h.place, Json.string?]

/-- A list has these entries; one that is missing has none. -/
inductive Lists : Option Json → List Json → Prop
  | missing : Lists none []
  | entries (es : List Json) : Lists (some (.array es)) es

theorem declareAll_of_lists {components : Option Components} {list : Option Json}
    {es : List Json} (h : Lists list es) :
    declareAll components list = es.mapM (declare components) := by
  cases h <;> rfl

/-- A declaration says whether its parameter is required; it is not if nothing is said. -/
inductive SaysRequired (members : Entries Json) : Bool → Prop
  | unsaid : Entries.get? "required" members = none → SaysRequired members false
  | said {flag : Bool} : Entries.get? "required" members = some (.bool flag) →
      SaysRequired members flag

/-- What a declaration is compiled to. -/
structure CompiledAs (ctx : Validator.Context) (d : Declared) (p : Parameter) : Prop where
  location : p.location.name = d.place
  name : p.name = if p.location = .header then d.name.toLower else d.name
  required : ∃ flag, SaysRequired d.members flag ∧
    (p.required = true ↔ flag = true ∨ p.location = .path)
  validator : ∃ schema, Entries.get? "schema" d.members = some schema ∧
    Validator.compile ctx schema = .ok p.validator

/-- A declaration that says all that it has to say is compiled as soon as its schema is. -/
theorem ofDeclared_of_reads {ctx : Validator.Context} {d : Declared} {l : Location}
    {schema : Json} {flag : Bool} (hplace : Location.ofName? d.place = some l)
    (hschema : Entries.get? "schema" d.members = some schema)
    (hrequired : SaysRequired d.members flag) :
    ofDeclared ctx d = (Validator.compile ctx schema).map fun v =>
      ⟨if l = .header then d.name.toLower else d.name, l, v, flag || l == .path⟩ := by
  cases hrequired with
  | unsaid hnone =>
      simp only [ofDeclared, hplace, hschema, hnone]
      rfl
  | said hsome =>
      simp only [ofDeclared, hplace, hschema, hsome]
      rfl

/-- A declaration is compiled only if its place is known, a schema is given, and what it says of
being required is a flag. -/
theorem reads_of_ofDeclared {ctx : Validator.Context} {d : Declared} {p : Parameter}
    (h : ofDeclared ctx d = .ok p) :
    ∃ l schema flag, Location.ofName? d.place = some l ∧
      Entries.get? "schema" d.members = some schema ∧ SaysRequired d.members flag := by
  unfold ofDeclared at h
  cases hplace : Location.ofName? d.place with
  | none =>
      rw [hplace] at h
      cases h
  | some l =>
      cases hschema : Entries.get? "schema" d.members with
      | none =>
          simp only [hplace, hschema] at h
          cases h
      | some schema =>
          cases hrequired : Entries.get? "required" d.members with
          | none => exact ⟨l, schema, false, rfl, rfl, .unsaid hrequired⟩
          | some v =>
              cases v with
              | bool flag => exact ⟨l, schema, flag, rfl, rfl, .said hrequired⟩
              | _ =>
                  simp only [hplace, hschema, hrequired] at h
                  cases h

/-- A declaration is compiled to one parameter: its own name in its own place, with its schema's
validator. -/
theorem ofDeclared_eq_ok_iff {ctx : Validator.Context} {d : Declared} {p : Parameter} :
    ofDeclared ctx d = .ok p ↔ CompiledAs ctx d p := by
  constructor
  · intro h
    obtain ⟨l, schema, flag, hplace, hschema, hrequired⟩ := reads_of_ofDeclared h
    rw [ofDeclared_of_reads hplace hschema hrequired] at h
    cases hv : Validator.compile ctx schema with
    | error e =>
        rw [hv] at h
        cases h
    | ok v =>
        rw [hv] at h
        cases h
        exact ⟨Location.ofName?_eq_some_iff.mp hplace, rfl, ⟨flag, hrequired, by simp⟩, schema,
          hschema, hv⟩
  · rintro ⟨hlocation, hname, ⟨flag, hsays, hrequired⟩, schema, hschema, hv⟩
    have hflag : (flag || p.location == .path) = p.required := by
      rw [Bool.eq_iff_iff, hrequired]
      simp
    rw [ofDeclared_of_reads (Location.ofName?_eq_some_iff.mpr hlocation) hschema hsays, hv, hflag,
      ← hname]
    rfl

/-! ## Declarations that count -/

/-- No later declaration of the list is for the same parameter. -/
def Counts (ds : List Declared) (i : Fin ds.length) : Prop :=
  ∀ j, i < j → ¬ (ds.get j).Same (ds.get i)

instance (ds : List Declared) : DecidablePred (Counts ds) :=
  fun _ => inferInstanceAs (Decidable (∀ _, _))

/-- The declarations that count, in their order. -/
def counting (ds : List Declared) : List Declared :=
  ((List.finRange ds.length).filter (Counts ds ·)).map ds.get

variable {d : Declared} {ds es : List Declared}

theorem any_sameAs_iff : ds.any d.sameAs = true ↔ ∃ e ∈ ds, d.Same e := by
  simp only [List.any_eq_true, Declared.sameAs_iff]

/-- The first declaration counts if none behind it replaces it. -/
theorem counts_zero_iff : Counts (d :: ds) 0 ↔ ds.any d.sameAs = false := by
  rw [← Bool.not_eq_true, any_sameAs_iff]
  constructor
  · rintro h ⟨e, he, hsame⟩
    obtain ⟨j, rfl⟩ := List.get_of_mem he
    exact h j.succ (Fin.succ_pos j) hsame.symm
  · intro h j hj hsame
    obtain ⟨j, rfl⟩ := Fin.exists_succ_eq.mpr hj.ne'
    exact h ⟨ds.get j, List.get_mem ds j, hsame.symm⟩

theorem counts_succ_iff {i : Fin ds.length} : Counts (d :: ds) i.succ ↔ Counts ds i := by
  constructor
  · intro h j hj
    exact h j.succ (Fin.succ_lt_succ_iff.mpr hj)
  · intro h j hj
    obtain ⟨j, rfl⟩ := Fin.exists_succ_eq.mpr (Fin.ne_zero_of_lt hj)
    exact h j (Fin.succ_lt_succ_iff.mp hj)

/-- The declarations behind the first one count as they do without it. -/
theorem counting_cons (d : Declared) (ds : List Declared) :
    counting (d :: ds) = if ds.any d.sameAs then counting ds else d :: counting ds := by
  have hrest : (((List.finRange ds.length).map Fin.succ).filter (Counts (d :: ds) ·)).map
      (d :: ds).get = counting ds := by
    rw [counting, List.filter_map, List.map_map]
    simp only [Function.comp_def, counts_succ_iff]
    rfl
  have hpositions : counting (d :: ds) =
      ((0 :: (List.finRange ds.length).map Fin.succ).filter (Counts (d :: ds) ·)).map
        (d :: ds).get :=
    congrArg (fun is => (is.filter (Counts (d :: ds) ·)).map (d :: ds).get) List.finRange_succ
  rw [hpositions]
  cases hany : ds.any d.sameAs with
  | true =>
      have hzero : ¬ Counts (d :: ds) 0 := by simp [counts_zero_iff, hany]
      rw [List.filter_cons_of_neg (by simpa using hzero), hrest]
      rfl
  | false =>
      have hzero : Counts (d :: ds) 0 := counts_zero_iff.mpr hany
      rw [List.filter_cons_of_pos (by simpa using hzero), List.map_cons, hrest]
      rfl

/-- What is kept are the declarations that count. -/
theorem effective_eq_counting (ds : List Declared) : effective ds = counting ds := by
  induction ds with
  | nil => rfl
  | cons d rest ih => rw [effective, counting_cons, ih]

/-- Declarations that follow others take away those that they replace. -/
theorem effective_append (ds es : List Declared) :
    effective (ds ++ es) =
      (effective ds).filter (fun d => !es.any d.sameAs) ++ effective es := by
  induction ds with
  | nil => rfl
  | cons d rest ih =>
      rw [List.cons_append, effective, effective, List.any_append, ih]
      cases hrest : rest.any d.sameAs with
      | true => rfl
      | false =>
          cases hes : es.any d.sameAs with
          | true => simp [hes]
          | false => simp [hes]

/-- Reading the declarations one by one, each takes the place of the one that it replaces. -/
theorem effective_eq_foldl (ds : List Declared) :
    effective ds = ds.foldl (fun kept d => kept.filter (fun e => !e.sameAs d) ++ [d]) [] := by
  induction ds using List.reverseRecOn with
  | nil => rfl
  | append_singleton rest d ih =>
      rw [effective_append, List.foldl_append, ← ih]
      simp [effective]

/-! ## Parameters of an operation -/

variable {ctx : Validator.Context} {pathItem : Option (Entries Json)} {operation : Entries Json}
  {ps : List Parameter}

/-- The entries of a list are declarations one by one. -/
theorem declareAll_eq_ok_iff {components : Option Components} {list : Option Json}
    {entries : List Json} (h : Lists list entries) :
    declareAll components list = .ok ds ↔ List.Forall₂ (DeclaredAs components) entries ds := by
  rw [declareAll_of_lists h, mapM_eq_ok_iff]
  simp only [declare_eq_ok_iff]

/-- What a path and an operation declare. -/
structure Declares (ctx : Validator.Context) (pathItem : Option (Entries Json))
    (operation : Entries Json) (shared own : List Declared) : Prop where
  shared : declareAll ctx.components (pathItem.bind (Entries.get? "parameters")) = .ok shared
  own : declareAll ctx.components (Entries.get? "parameters" operation) = .ok own

theorem Declares.compileAll_eq {shared own : List Declared}
    (h : Declares ctx pathItem operation shared own) :
    compileAll ctx pathItem operation = (counting (shared ++ own)).mapM (ofDeclared ctx) := by
  rw [compileAll, h.shared, h.own, ← effective_eq_counting]
  rfl

theorem exists_declares_of_compileAll (h : compileAll ctx pathItem operation = .ok ps) :
    ∃ shared own, Declares ctx pathItem operation shared own := by
  rw [compileAll, bind_eq_ok_iff] at h
  obtain ⟨shared, hshared, h⟩ := h
  obtain ⟨own, hown, -⟩ := bind_eq_ok_iff.mp h
  exact ⟨shared, own, hshared, hown⟩

/-- The compiled parameters are those of the declarations that count. -/
theorem Declares.compileAll_eq_ok_iff {shared own : List Declared}
    (h : Declares ctx pathItem operation shared own) :
    compileAll ctx pathItem operation = .ok ps ↔
      List.Forall₂ (CompiledAs ctx) (counting (shared ++ own)) ps := by
  rw [h.compileAll_eq, mapM_eq_ok_iff]
  simp only [ofDeclared_eq_ok_iff]

/-- Declarations of one list after the other are those of both together. -/
theorem exists_declares_of_lists {entries others : List Json}
    (hshared : Lists (pathItem.bind (Entries.get? "parameters")) entries)
    (hown : Lists (Entries.get? "parameters" operation) others)
    (h : List.Forall₂ (DeclaredAs ctx.components) (entries ++ others) ds) :
    ∃ shared own, Declares ctx pathItem operation shared own ∧ shared ++ own = ds := by
  have hentries := (List.forall₂_take_append ds entries others h.flip).flip
  have hothers := (List.forall₂_drop_append ds entries others h.flip).flip
  exact ⟨_, _, ⟨(declareAll_eq_ok_iff hshared).mpr hentries, (declareAll_eq_ok_iff hown).mpr hothers⟩,
    List.take_append_drop entries.length ds⟩

/-- Where the lists have been read, each of their entries is a declaration. -/
theorem Declares.exists_declaredAs {shared own : List Declared} {entries others : List Json}
    (h : Declares ctx pathItem operation shared own)
    (hshared : Lists (pathItem.bind (Entries.get? "parameters")) entries)
    (hown : Lists (Entries.get? "parameters" operation) others) :
    ∀ entry ∈ entries ++ others, ∃ d, DeclaredAs ctx.components entry d := by
  have hentries := (declareAll_eq_ok_iff hshared).mp h.shared
  have hothers := (declareAll_eq_ok_iff hown).mp h.own
  intro entry hentry
  rcases List.mem_append.mp hentry with hmem | hmem
  · exact exists_forall₂_iff.mp ⟨shared, hentries⟩ entry hmem
  · exact exists_forall₂_iff.mp ⟨own, hothers⟩ entry hmem

/-- The parameters of an operation are those of the declarations that no later one replaces, in
the order in which its path and then the operation itself list them. An entry without a name and a
place is a fault wherever it stands. Everything else that is wrong with a declaration is a fault
only if the declaration counts. What is sent in the path is always required. -/
theorem compileAll_keepsLast {entries others : List Json}
    (hshared : Lists (pathItem.bind (Entries.get? "parameters")) entries)
    (hown : Lists (Entries.get? "parameters" operation) others) :
    ((∃ entry ∈ entries ++ others, ∀ d, ¬ DeclaredAs ctx.components entry d) →
      ∃ e, compileAll ctx pathItem operation = .error e) ∧
    ∀ ds, List.Forall₂ (DeclaredAs ctx.components) (entries ++ others) ds →
      compileAll ctx pathItem operation = (counting ds).mapM (ofDeclared ctx) ∧
      (∀ ps, compileAll ctx pathItem operation = .ok ps ↔
        List.Forall₂ (CompiledAs ctx) (counting ds) ps) ∧
      ((∃ ps, compileAll ctx pathItem operation = .ok ps) ↔
        ∀ i, Counts ds i → ∃ p, CompiledAs ctx (ds.get i) p) ∧
      ∀ ps, compileAll ctx pathItem operation = .ok ps →
        ∀ p ∈ ps, p.location = .path → p.required = true := by
  constructor
  · rintro ⟨entry, hentry, hnone⟩
    cases h : compileAll ctx pathItem operation with
    | error e => exact ⟨e, rfl⟩
    | ok ps =>
        obtain ⟨shared, own, hdeclares⟩ := exists_declares_of_compileAll h
        obtain ⟨d, hd⟩ := hdeclares.exists_declaredAs hshared hown entry hentry
        exact absurd hd (hnone d)
  · intro ds hds
    obtain ⟨shared, own, hdeclares, rfl⟩ := exists_declares_of_lists hshared hown hds
    refine ⟨hdeclares.compileAll_eq, fun ps => hdeclares.compileAll_eq_ok_iff, ?_, ?_⟩
    · simp only [hdeclares.compileAll_eq_ok_iff, exists_forall₂_iff, counting, List.mem_map,
        List.mem_filter, List.mem_finRange, decide_eq_true_eq, true_and,
        forall_exists_index, and_imp, forall_apply_eq_imp_iff₂]
    · intro ps hps p hp hpath
      obtain ⟨d, -, hd⟩ := exists_mem_of_forall₂ (hdeclares.compileAll_eq_ok_iff.mp hps) hp
      obtain ⟨flag, -, hrequired⟩ := hd.required
      exact hrequired.mpr (.inr hpath)

/-- A path declares a shelf, and a limit of which only the name and the place make sense. -/
def shelfPath : List Json :=
  [.object [("name", .string "limit"), ("in", .string "query"), ("required", .string "yes"),
      ("schema", .string "any")],
    .object [("name", .string "shelf"), ("in", .string "path"),
      ("schema", .object [("type", .string "integer")])]]

/-- An operation on the shelf declares the limit again. -/
def shelfBooks : List Json :=
  [.object [("name", .string "limit"), ("in", .string "query"),
    ("schema", .object [("type", .string "string")])]]

/-- The schemas of the shelf need no shared definitions and no formats. -/
def shelfContext : Validator.Context := ⟨none, .empty⟩

/-- The limit of the operation counts, and that of the path is not looked at. -/
theorem shelf_keepsLast :
    compileAll shelfContext (some [("parameters", .array shelfPath)])
        [("parameters", .array shelfBooks)] =
      .ok [⟨"shelf", .path, .integer {}, true⟩, ⟨"limit", .query, .string {}, false⟩] := by
  have hshared : Lists ((some [("parameters", .array shelfPath)]).bind
      (Entries.get? "parameters")) shelfPath := .entries shelfPath
  have hown : Lists (Entries.get? "parameters" [("parameters", .array shelfBooks)]) shelfBooks :=
    .entries shelfBooks
  have hdeclared : List.Forall₂ (DeclaredAs shelfContext.components) (shelfPath ++ shelfBooks)
      [⟨"limit", "query", [("name", .string "limit"), ("in", .string "query"),
          ("required", .string "yes"), ("schema", .string "any")]⟩,
        ⟨"shelf", "path", [("name", .string "shelf"), ("in", .string "path"),
          ("schema", .object [("type", .string "integer")])]⟩,
        ⟨"limit", "query", [("name", .string "limit"), ("in", .string "query"),
          ("schema", .object [("type", .string "string")])]⟩] :=
    .cons ⟨rfl, rfl, rfl⟩ (.cons ⟨rfl, rfl, rfl⟩ (.cons ⟨rfl, rfl, rfl⟩ .nil))
  obtain ⟨-, hcompiled, -, -⟩ := (compileAll_keepsLast hshared hown).2 _ hdeclared
  refine (hcompiled _).mpr (.cons ?_ (.cons ?_ .nil))
  · exact ⟨rfl, rfl, ⟨false, .unsaid (by cbv), by simp⟩, _, by cbv, by cbv⟩
  · exact ⟨rfl, rfl, ⟨false, .unsaid (by cbv), by simp⟩, _, by cbv, by cbv⟩

end Parameter

end SchemaGate
