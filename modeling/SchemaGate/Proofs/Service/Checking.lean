import Mathlib
import SchemaGate.Command.Run
import SchemaGate.Proofs.Request.Declared
import SchemaGate.Proofs.Service.Handling

/-!
# What a check foretells

A check compiles the operations of a document one by one and goes on behind a fault; a table stops
at the first one. The check is worth running before a service starts because the two agree
(`Files.check_foretells`): it finds nothing exactly if there is a table, and otherwise the fault
that it reports first is the one that the table ends with.

* `CheckReport.Describes`: what a report says of a document, operation by operation, and
  `CheckReport.Describes.unique`: no two reports say it;
* `CheckReport.render_eq`: how a report is printed;
* `OperationTable.Covers`: what a table holds;
* `Document.check_describes` and `OperationTable.covers_of_compile`: they do, whatever the
  operations are compiled with.
-/

namespace SchemaGate

/-! ## Reports -/

/-- The report has the faults of a document's operations, by path and then by method, and it counts
them among all that are declared. -/
structure CheckReport.Describes (r : CheckReport) (tools : Toolkit) (d : Document) : Prop where
  ordered : (r.faults.map Prod.fst).Pairwise OperationRef.Precedes
  mem_faults_iff : ∀ ref e, (ref, e) ∈ r.faults ↔
    d.Declares ref ∧ Operation.compile tools d ref.path ref.method = .error e
  /-- There are as many operations as it says. -/
  total : ∃ refs : List OperationRef, refs.Nodup ∧ (∀ ref, ref ∈ refs ↔ d.Declares ref) ∧
    refs.length = r.total
  /-- As many of them compile as it says. -/
  compiled : ∃ refs : List OperationRef, refs.Nodup ∧ (∀ ref, ref ∈ refs ↔
    d.Declares ref ∧ ∃ o, Operation.compile tools d ref.path ref.method = .ok o) ∧
    refs.length = r.compiled
  /-- What is taken off the total is not more than that. -/
  fits : r.faults.length ≤ r.total

section

variable {tools : Toolkit} {d : Document} {ref : OperationRef} {e : CompileError}

namespace CheckReport

variable {r r' : CheckReport}

/-- What a report describes leaves nothing of it open. -/
theorem Describes.unique (h : r.Describes tools d) (h' : r'.Describes tools d) : r = r' := by
  have hnodup : ∀ {r : CheckReport}, r.Describes tools d → r.faults.Nodup := by
    intro r h
    refine (List.pairwise_map.mp h.ordered).imp ?_
    intro f f' hprecedes hsame
    subst hsame
    exact OperationRef.Precedes.irrefl _ hprecedes
  have hmem : ∀ f, f ∈ r.faults ↔ f ∈ r'.faults := by
    intro f
    exact (h.mem_faults_iff f.1 f.2).trans (h'.mem_faults_iff f.1 f.2).symm
  -- the same faults, and both lists have them in the same strict order
  have hfaults : r.faults = r'.faults := by
    have hperm := (List.perm_ext_iff_of_nodup (hnodup h) (hnodup h')).mpr hmem
    refine hperm.eq_of_pairwise ?_ (List.pairwise_map.mp h.ordered) (List.pairwise_map.mp h'.ordered)
    intro f f' _ _ hprecedes hprecedes'
    exact absurd (hprecedes.trans hprecedes') (OperationRef.Precedes.irrefl f.1)
  obtain ⟨refs, hrefs, hdeclared, htotal⟩ := h.total
  obtain ⟨refs', hrefs', hdeclared', htotal'⟩ := h'.total
  have hsame : refs.Perm refs' := by
    refine (List.perm_ext_iff_of_nodup hrefs hrefs').mpr ?_
    intro ref
    exact (hdeclared ref).trans (hdeclared' ref).symm
  have htotals : r.total = r'.total := by
    rw [← htotal, ← htotal', hsame.length_eq]
  cases r
  cases r'
  simp only at hfaults htotals
  rw [hfaults, htotals]

/-- One line is printed for each fault, in order, and then one that counts. -/
theorem render_eq (diagnose : String → String) (r : CheckReport) :
    r.render diagnose =
      String.join (r.faults.map fun (ref, e) => "  FAIL: " ++ ref.method.toUpper ++ " " ++
        ref.path ++ ": " ++ e.explain diagnose ++ "\n") ++
      ("Operations: " ++ toString r.compiled ++ "/" ++ toString r.total ++ " compiled\n") := rfl

example : render (fun _ => "nothing to repeat") ⟨2, [(⟨"/a", "put"⟩, .invalidPattern "+")]⟩ =
    "  FAIL: PUT /a: invalid pattern '+': nothing to repeat\nOperations: 1/2 compiled\n" := by
  decide +kernel

end CheckReport

theorem OperationRef.fault?_eq_some_iff :
    ref.fault? tools d = some e ↔ Operation.compile tools d ref.path ref.method = .error e := by
  unfold fault?
  cases Operation.compile tools d ref.path ref.method <;> simp

theorem OperationRef.fault?_eq_none_iff :
    ref.fault? tools d = none ↔ ∃ o, Operation.compile tools d ref.path ref.method = .ok o := by
  unfold fault?
  cases Operation.compile tools d ref.path ref.method <;> simp

namespace Document

theorem faults_check :
    (d.check tools).faults =
      d.operations.filterMap fun ref => (ref.fault? tools d).map fun e => (ref, e) := rfl

/-- The faults are those of the operations that do not compile. -/
theorem mem_faults_check_iff :
    (ref, e) ∈ (d.check tools).faults ↔
      ref ∈ d.operations ∧ Operation.compile tools d ref.path ref.method = .error e := by
  simp only [faults_check, List.mem_filterMap, Option.map_eq_some_iff, Prod.mk.injEq,
    OperationRef.fault?_eq_some_iff]
  constructor
  · rintro ⟨ref', href, e', he, rfl, rfl⟩
    exact ⟨href, he⟩
  · rintro ⟨href, he⟩
    exact ⟨ref, href, e, he, rfl, rfl⟩

/-- Every operation has a fault or compiles. -/
theorem length_faults_check (tools : Toolkit) (d : Document) :
    (d.operations.filter fun ref => (ref.fault? tools d).isNone).length +
      (d.check tools).faults.length = d.operations.length := by
  rw [faults_check, List.length_filterMap_eq_countP, ← List.countP_eq_length_filter,
    List.length_eq_countP_add_countP (fun ref => (ref.fault? tools d).isNone)]
  congr 1
  refine List.countP_congr fun ref _ => ?_
  cases ref.fault? tools d <;> simp

/-- A check tells the truth about a document. -/
theorem check_describes (hd : d.Distinct) (tools : Toolkit) :
    (d.check tools).Describes tools d := by
  have hcount := length_faults_check tools d
  have htotal : (d.check tools).total = d.operations.length := rfl
  refine ⟨?_, fun ref e => ?_, ?_, ?_, ?_⟩
  · -- the names of the faults are some of those of the operations
    have hnames : ((d.check tools).faults.map Prod.fst).Sublist d.operations := by
      rw [faults_check]
      generalize d.operations = refs
      induction refs with
      | nil => exact List.Sublist.refl _
      | cons ref rest ih =>
          cases hfault : ref.fault? tools d with
          | none =>
              rw [List.filterMap_cons_none (by rw [hfault]; rfl)]
              exact ih.cons ref
          | some e =>
              rw [List.filterMap_cons_some (by rw [hfault]; rfl)]
              exact ih.cons_cons ref
    exact (pairwise_operations hd).sublist hnames
  · rw [mem_faults_check_iff, mem_operations_iff hd]
  · exact ⟨d.operations, nodup_operations hd, fun ref => mem_operations_iff hd, rfl⟩
  · refine ⟨d.operations.filter fun ref => (ref.fault? tools d).isNone,
      (nodup_operations hd).filter _, fun ref => ?_, ?_⟩
    · rw [List.mem_filter, mem_operations_iff hd, Option.isNone_iff_eq_none,
        OperationRef.fault?_eq_none_iff]
    · rw [CheckReport.compiled, htotal]
      omega
  · rw [htotal]
    omega

end Document

end

/-! ## Tables -/

/-- The table has one operation for each name that the document declares, and no other. -/
structure OperationTable.Covers (t : OperationTable) (tools : Toolkit) (d : Document) : Prop where
  once : (t.operations.map fun o => OperationRef.mk o.path o.method).Nodup
  declared_iff : ∀ ref, (∃ o ∈ t.operations, o.path = ref.path ∧ o.method = ref.method) ↔
    d.Declares ref
  compiled : ∀ o ∈ t.operations, Operation.compile tools d o.path o.method = .ok o
  /-- An operation is found under its own name. -/
  get?_eq_some_iff : ∀ method path o, t.get? method path = some o ↔
    o ∈ t.operations ∧ o.path = path ∧ o.method = method.toLower

namespace OperationTable

variable {tools : Toolkit} {d : Document} {t : OperationTable}

/-- The operations of a table have the names of those of the document, in order. -/
theorem names_of_compile (ht : compile tools d = .ok t) :
    t.operations.map (fun o => OperationRef.mk o.path o.method) = d.operations := by
  have hpairs := (List.forall₂_and_left d.operations _).mpr
    ⟨fun ref href => href, compile_eq_ok_iff.mp ht⟩
  have hnames : List.Forall₂ (fun ref (o : Operation) => OperationRef.mk o.path o.method = ref)
      d.operations t.operations := by
    refine hpairs.imp ?_
    rintro ref o ⟨href, hcompile⟩
    obtain ⟨hpath, hmethod⟩ := Operation.names_of_compile hcompile
    rw [toLower_httpMethod _ (Document.method_mem_httpMethods href)] at hmethod
    rw [hpath, hmethod]
  exact List.forall₂_eq_eq_eq ▸ List.forall₂_map_left_iff.mpr hnames.flip

/-- No two operations of a table have the same names. -/
theorem eq_of_names (hd : d.Distinct) (ht : compile tools d = .ok t) {o o' : Operation}
    (ho : o ∈ t.operations) (ho' : o' ∈ t.operations) (hpath : o.path = o'.path)
    (hmethod : o.method = o'.method) : o = o' := by
  have hnodup : (t.operations.map fun o => OperationRef.mk o.path o.method).Nodup :=
    names_of_compile ht ▸ Document.nodup_operations hd
  exact List.inj_on_of_nodup_map hnodup ho ho' (by rw [hpath, hmethod])

/-- A table that compiles has all operations of its document, each under its own name. -/
theorem covers_of_compile (hd : d.Distinct) (ht : compile tools d = .ok t) :
    t.Covers tools d := by
  refine ⟨?_, fun ref => ?_, fun o ho => (compile_of_mem ht ho).2, fun method path o => ?_⟩
  · rw [names_of_compile ht]
    exact Document.nodup_operations hd
  · rw [← Document.mem_operations_iff hd]
    exact (mem_operations_iff ht).symm
  · constructor
    · exact of_get?_eq_some
    · rintro ⟨ho, hpath, hmethod⟩
      cases hget : t.get? method path with
      | none => exact absurd ⟨hpath, hmethod⟩ (get?_eq_none_iff.mp hget o ho)
      | some o' =>
          obtain ⟨ho', hpath', hmethod'⟩ := of_get?_eq_some hget
          rw [eq_of_names hd ht ho' ho (hpath'.trans hpath.symm) (hmethod'.trans hmethod.symm)]

/-! ## The two agree -/

/-- There is a table exactly if a check finds no fault. -/
theorem exists_compile_iff :
    (∃ t, compile tools d = .ok t) ↔ (d.check tools).faults = [] := by
  have htables : (∃ t, compile tools d = .ok t) ↔ ∃ os, List.Forall₂
      (fun ref o => Operation.compile tools d ref.path ref.method = .ok o) d.operations os := by
    constructor
    · rintro ⟨t, ht⟩
      exact ⟨t.operations, compile_eq_ok_iff.mp ht⟩
    · rintro ⟨os, hos⟩
      exact ⟨⟨os⟩, compile_eq_ok_iff.mpr hos⟩
  rw [htables, exists_forall₂_iff, Document.faults_check, List.filterMap_eq_nil_iff]
  simp only [Option.map_eq_none_iff, OperationRef.fault?_eq_none_iff]

/-- The fault that there is no table for is the first that a check finds. -/
theorem faults_of_compile_eq_error {e : CompileError} (h : compile tools d = .error e) :
    ∃ ref rest, (d.check tools).faults = (ref, e) :: rest := by
  have hmapM : d.operations.mapM
      (fun ref => Operation.compile tools d ref.path ref.method) = .error e := by
    rw [compile] at h
    cases hresult : d.operations.mapM
        (fun ref => Operation.compile tools d ref.path ref.method) with
    | error e' =>
        rw [hresult] at h
        cases h
        rfl
    | ok os =>
        rw [hresult] at h
        cases h
  obtain ⟨ref, hfirst, hcompile⟩ := mapM_eq_error_iff.mp hmapM
  have hfault : ((ref.fault? tools d).map fun e => (ref, e)) = some (ref, e) := by
    rw [OperationRef.fault?_eq_some_iff.mpr hcompile]
    rfl
  refine ⟨ref, filterMap_of_firstWhere (hfirst.congr fun ref' => ?_) hfault⟩
  simp [Option.map_eq_some_iff, OperationRef.fault?_eq_some_iff]

end OperationTable

namespace Files

variable {files : Files} {spec : String} {d : Document}

/-- A document in a file comes from a text, so no path and no method of it repeats. -/
theorem distinct_of_document (h : files.document spec = .ok d) : d.Distinct := by
  obtain ⟨text, -, htext⟩ := bind_eq_ok_iff.mp h
  cases hd : Document.ofText text with
  | error e =>
      rw [hd] at htext
      cases htext
  | ok d' =>
      rw [hd] at htext
      cases htext
      exact Document.distinct_of_ofText hd

theorem check_eq (diagnose : String → String) (h : files.document spec = .ok d) :
    files.check spec diagnose = .ok
      ⟨if (d.check .standard).isClean then 0 else 1, (d.check .standard).render diagnose, ""⟩ := by
  rw [check, h]
  rfl

/-- The check of a file agrees with the table of the document in it. It prints a line for each
fault of the document's operations, by path and then by method, and counts those that compile. It
ends with 0 if there is a table, which then covers the document. Otherwise it ends with 1, and the
first fault that it prints is the one that there is no table for. -/
theorem check_foretells (diagnose : String → String) (h : files.document spec = .ok d) :
    ∃ (r : CheckReport) (code : Nat),
      files.check spec diagnose = .ok ⟨code,
        String.join (r.faults.map fun (ref, e) => "  FAIL: " ++ ref.method.toUpper ++ " " ++
          ref.path ++ ": " ++ e.explain diagnose ++ "\n") ++
        ("Operations: " ++ toString r.compiled ++ "/" ++ toString r.total ++ " compiled\n"), ""⟩ ∧
      r.Describes .standard d ∧
      (code = 0 ↔ ∃ t, OperationTable.compile .standard d = .ok t) ∧
      (∀ t, OperationTable.compile .standard d = .ok t →
        t.Covers .standard d ∧ r.faults = []) ∧
      ∀ e, OperationTable.compile .standard d = .error e →
        code = 1 ∧ ∃ ref rest, r.faults = (ref, e) :: rest := by
  have hd := distinct_of_document h
  have hcheck := check_eq diagnose h
  rw [CheckReport.render_eq] at hcheck
  refine ⟨_, _, hcheck, Document.check_describes hd .standard, ?_, ?_, ?_⟩
  · rw [OperationTable.exists_compile_iff, CheckReport.isClean]
    cases (d.check .standard).faults <;> simp
  · intro t ht
    exact ⟨OperationTable.covers_of_compile hd ht, OperationTable.exists_compile_iff.mp ⟨t, ht⟩⟩
  · intro e he
    obtain ⟨ref, rest, hfaults⟩ := OperationTable.faults_of_compile_eq_error he
    refine ⟨?_, ref, rest, hfaults⟩
    rw [CheckReport.isClean, hfaults]
    rfl

/-! ## A file with two operations -/

/-- A document in a file. One of its operations asks for a scheme that is defined nowhere. -/
def noteFiles : Files := fun path =>
  if path = "notes.yaml" then
    some (Utf8.encode "{paths: {/notes: {post: {}, get: {security: [{key: []}]}}}}")
  else none

/-- What a path of it declares. -/
def notePath : Json :=
  .object [("post", .object []),
    ("get", .object [("security", .array [.object [("key", .array [])]])])]

/-- The document. -/
def noteDocument : Document where
  root := [("paths", .object [("/notes", notePath)])]
  paths := [("/notes", notePath)]
  components := none

/-- What the check finds. -/
def noteReport : CheckReport := ⟨2, [(⟨"/notes", "get"⟩, .missingSecuritySchemes)]⟩

theorem document_noteFiles : noteFiles.document "notes.yaml" = .ok noteDocument := by
  cbv

theorem operations_noteDocument :
    noteDocument.operations = [⟨"/notes", "get"⟩, ⟨"/notes", "post"⟩] := by
  have hlisted : noteDocument.paths.flatMap (fun e => Document.methodsOf e.1 e.2) =
      [⟨"/notes", "post"⟩, ⟨"/notes", "get"⟩] := by
    cbv
  have hlater : OperationRef.before ⟨"/notes", "post"⟩ ⟨"/notes", "get"⟩ = false := by
    cbv
  show (noteDocument.paths.flatMap fun e => Document.methodsOf e.1 e.2).mergeSort
    OperationRef.before = _
  rw [hlisted]
  simp [List.mergeSort, hlater]

theorem check_noteDocument (formats : FormatRegistry) (decoders : DecoderRegistry) :
    noteDocument.check ⟨formats, decoders, {}⟩ = noteReport := by
  have hget : OperationRef.fault? ⟨formats, decoders, {}⟩ noteDocument ⟨"/notes", "get"⟩ =
      some .missingSecuritySchemes := by
    cbv
  have hpost : OperationRef.fault? ⟨formats, decoders, {}⟩ noteDocument ⟨"/notes", "post"⟩ =
      none := by
    cbv
  simp [Document.check, operations_noteDocument, hget, hpost, noteReport]

/-- The check prints the fault, counts the other operation and ends with 1. There is no table, for
the reason that is printed. -/
theorem noteFiles_foretold :
    noteFiles.document "notes.yaml" = .ok noteDocument ∧
      noteFiles.check "notes.yaml" = .ok ⟨1,
        "  FAIL: GET /notes: securitySchemes must be defined in components\n" ++
        "Operations: 1/2 compiled\n", ""⟩ ∧
      OperationTable.compile .standard noteDocument = .error .missingSecuritySchemes := by
  obtain ⟨r, code, hcheck, hdescribes, -, hclean, hfault⟩ :=
    check_foretells CompileError.unknownReason document_noteFiles
  have hreport : r = noteReport := by
    have htrue := Document.check_describes (distinct_of_document document_noteFiles) .standard
    exact hdescribes.unique (check_noteDocument .builtin .builtin ▸ htrue)
  subst hreport
  cases htable : OperationTable.compile .standard noteDocument with
  | ok t => cases (hclean t htable).2
  | error e =>
      obtain ⟨rfl, ref, rest, hfaults⟩ := hfault e htable
      cases hfaults
      refine ⟨document_noteFiles, hcheck.trans ?_, rfl⟩
      congr 2
      decide +kernel

end Files

end SchemaGate
