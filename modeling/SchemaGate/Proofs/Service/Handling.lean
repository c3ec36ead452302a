import Mathlib
import SchemaGate.Proofs.Lists
import SchemaGate.Service.Echo

/-!
# Which requests are bound

A route and the operation that its requests are bound to are found in different ways: a handler by
the method in upper case, with a request for the head going to the handler that gets the whole, and
an operation by the method in lower case. The two agree but for one kind of request, for the head
of what the document only declares how to get (`Document.HeadOfGet`). It reaches the handler
without bound values, and is the only one that the service answers with its own failure
(`EchoService.respond_binds`).

* `OperationTable.get?_eq_none_iff_of_compile`: which operations are found;
* `EchoService.declares_iff` and `EchoService.handler_eq_echo_iff`: which requests are handled;
* `EchoService.echo_unbound_iff`: where the two part.
-/

namespace SchemaGate

/-! ## Operations of a document -/

/-- Methods are declared in lower case and requested in upper case. -/
theorem toLower_toUpper_httpMethod : ∀ m ∈ httpMethods, m.toUpper.toLower = m := by
  decide +kernel

theorem toLower_httpMethod : ∀ m ∈ httpMethods, m.toLower = m := by
  decide +kernel

theorem toLower_get : "GET".toLower = "get" := by
  decide +kernel

theorem toLower_head : "HEAD".toLower = "head" := by
  decide +kernel

namespace Document

theorem method_mem_httpMethods {d : Document} {ref : OperationRef} (h : ref ∈ d.operations) :
    ref.method ∈ httpMethods := by
  rw [operations, List.mem_mergeSort, List.mem_flatMap] at h
  obtain ⟨⟨path, item⟩, -, hitem⟩ := h
  cases item with
  | object members =>
      obtain ⟨method, hmethod, rfl⟩ := List.mem_map.mp hitem
      exact List.contains_iff_mem.mp (List.mem_filter.mp hmethod).2
  | _ => cases hitem

/-- The request is for the head of what the document declares how to get, and only that. -/
def HeadOfGet (d : Document) (method path : String) : Prop :=
  method = "HEAD" ∧ ⟨path, "get"⟩ ∈ d.operations ∧ ⟨path, "head"⟩ ∉ d.operations

end Document

/-- An operation keeps its path, and its method in lower case. -/
theorem Operation.names_of_compile {tools : Toolkit} {d : Document} {path method : String}
    {o : Operation} (h : Operation.compile tools d path method = .ok o) :
    o.path = path ∧ o.method = method.toLower := by
  rw [Operation.compile] at h
  obtain ⟨operation, -, h⟩ := bind_eq_ok_iff.mp h
  obtain ⟨parameters, -, h⟩ := bind_eq_ok_iff.mp h
  -- whatever the body and the security are, the names are those that were asked for
  have hnames : ∀ body security,
      Except.ok (Operation.mk path method.toLower parameters body security tools.options) =
        (.ok o : Except CompileError Operation) → o.path = path ∧ o.method = method.toLower := by
    intro body security heq
    cases heq
    exact ⟨rfl, rfl⟩
  dsimp only at h
  split at h
  · obtain ⟨body, -, h⟩ := bind_eq_ok_iff.mp h
    split at h
    · obtain ⟨security, -, h⟩ := bind_eq_ok_iff.mp h
      exact hnames body security h
    · obtain ⟨security, -, h⟩ := bind_eq_ok_iff.mp h
      exact hnames body security h
  · obtain ⟨body, -, h⟩ := bind_eq_ok_iff.mp h
    split at h
    · obtain ⟨security, -, h⟩ := bind_eq_ok_iff.mp h
      exact hnames body security h
    · obtain ⟨security, -, h⟩ := bind_eq_ok_iff.mp h
      exact hnames body security h

/-! ## The table of a document -/

namespace OperationTable

variable {tools : Toolkit} {d : Document} {t : OperationTable} {method path : String}
  {o : Operation}

/-- A table has the operations of its document one by one, in order. -/
theorem compile_eq_ok_iff :
    compile tools d = .ok t ↔ List.Forall₂
      (fun ref o => Operation.compile tools d ref.path ref.method = .ok o)
      d.operations t.operations := by
  rw [← mapM_eq_ok_iff, compile]
  cases d.operations.mapM fun ref => Operation.compile tools d ref.path ref.method with
  | error e => simp [Except.map]
  | ok operations =>
      obtain ⟨operations'⟩ := t
      simp [Except.map]

/-- An operation of the table is compiled from the one of its names that the document declares. -/
theorem compile_of_mem (ht : compile tools d = .ok t) (ho : o ∈ t.operations) :
    ⟨o.path, o.method⟩ ∈ d.operations ∧
      Operation.compile tools d o.path o.method = .ok o := by
  have hpairs := (List.forall₂_and_left d.operations _).mpr
    ⟨fun ref href => href, compile_eq_ok_iff.mp ht⟩
  obtain ⟨ref, -, href, hcompile⟩ := exists_mem_of_forall₂ hpairs ho
  obtain ⟨hpath, hmethod⟩ := Operation.names_of_compile hcompile
  rw [toLower_httpMethod _ (Document.method_mem_httpMethods href)] at hmethod
  rw [hpath, hmethod]
  exact ⟨href, hcompile⟩

/-- The operations of a document are those of its table, by name. -/
theorem mem_operations_iff (ht : compile tools d = .ok t) :
    ⟨path, method⟩ ∈ d.operations ↔ ∃ o ∈ t.operations, o.path = path ∧ o.method = method := by
  constructor
  · intro href
    have hpairs := compile_eq_ok_iff.mp ht
    obtain ⟨o, ho, hcompile⟩ := exists_mem_of_forall₂ hpairs.flip href
    obtain ⟨hpath, hmethod⟩ := Operation.names_of_compile hcompile
    rw [toLower_httpMethod _ (Document.method_mem_httpMethods href)] at hmethod
    exact ⟨o, ho, hpath, hmethod⟩
  · rintro ⟨o, ho, rfl, rfl⟩
    exact (compile_of_mem ht ho).1

theorem get?_eq_none_iff :
    t.get? method path = none ↔
      ∀ o ∈ t.operations, ¬ (o.path = path ∧ o.method = method.toLower) := by
  rw [get?, List.find?_eq_none]
  simp [and_comm]

theorem of_get?_eq_some (h : t.get? method path = some o) :
    o ∈ t.operations ∧ o.path = path ∧ o.method = method.toLower := by
  have hnames := List.find?_some h
  simp only [Bool.and_eq_true, beq_iff_eq] at hnames
  exact ⟨List.mem_of_find?_eq_some h, hnames.2, hnames.1⟩

/-- An operation is found if the document declares the method in lower case. -/
theorem get?_eq_none_iff_of_compile (ht : compile tools d = .ok t) :
    t.get? method path = none ↔ ⟨path, method.toLower⟩ ∉ d.operations := by
  rw [get?_eq_none_iff, mem_operations_iff ht]
  simp

end OperationTable

/-! ## Handlers -/

namespace EchoService

variable {tools : Toolkit} {d : Document} {t : OperationTable} {s : EchoService}
  {method template : String}

/-- A service is of its table, which has no operation on the path of the service's own route. -/
theorem of_ofTable?_eq_some (hs : ofTable? t = some s) :
    s.table = t ∧ t.get? "get" livenessPath = none := by
  rw [ofTable?] at hs
  split at hs
  · cases hs
  · rename_i hfree
    obtain ⟨routes, -, hroutes⟩ := Option.bind_eq_some_iff.mp hs
    split at hroutes
    · cases hroutes
      exact ⟨rfl, Option.not_isSome_iff_eq_none.mp hfree⟩
    · cases hroutes

/-- A route declares the methods that the document has on its path, in upper case. -/
theorem declares_iff (ht : OperationTable.compile tools d = .ok s.table) :
    s.declares method template = true ↔
      ∃ m ∈ httpMethods, m.toUpper = method ∧ ⟨template, m⟩ ∈ d.operations := by
  rw [declares, List.any_eq_true]
  simp only [Bool.and_eq_true, beq_iff_eq]
  constructor
  · rintro ⟨o, ho, rfl, hmethod⟩
    have href := (OperationTable.compile_of_mem ht ho).1
    exact ⟨o.method, Document.method_mem_httpMethods href, hmethod, href⟩
  · rintro ⟨m, -, hmethod, href⟩
    obtain ⟨o, ho, hpath, rfl⟩ := (OperationTable.mem_operations_iff ht).mp href
    exact ⟨o, ho, hpath, hmethod⟩

/-- The handler echoes on methods that are declared, and for HEAD where GET is. -/
theorem handler_eq_echo_iff :
    s.handler method template = .echo ↔ s.declares method template = true ∨
      (method = "HEAD" ∧ template ≠ livenessPath ∧ s.declares "GET" template = true) := by
  rw [handler]
  cases hdeclared : s.declares method template with
  | true => simp
  | false =>
      by_cases hhead : method = "HEAD"
      · subst hhead
        by_cases hlive : template = livenessPath
        · simp [hlive]
        · cases hget : s.declares "GET" template with
          | true => simp [hlive]
          | false => simp [hlive]
      · -- there is nothing to fall back on
        by_cases hget : method = "GET"
        · by_cases hlive : template = livenessPath
          · simp [hget, hlive]
          · simp [hget, hlive]
        · simp [hget, hhead]

/-- The one kind of request that a handler gets without an operation to bind it to. -/
theorem echo_unbound_iff (ht : OperationTable.compile tools d = .ok t)
    (hs : ofTable? t = some s) :
    s.handler method template = .echo ∧ s.table.get? method template = none ↔
      d.HeadOfGet method template := by
  obtain ⟨rfl, hfree⟩ := of_ofTable?_eq_some hs
  rw [handler_eq_echo_iff, OperationTable.get?_eq_none_iff_of_compile ht]
  constructor
  · rintro ⟨hdeclared | ⟨rfl, -, hget⟩, hnone⟩
    · -- what is declared in upper case is found in lower case
      obtain ⟨m, hm, rfl, href⟩ := (declares_iff ht).mp hdeclared
      rw [toLower_toUpper_httpMethod m hm] at hnone
      exact absurd href hnone
    · obtain ⟨m, hm, hupper, href⟩ := (declares_iff ht).mp hget
      have hlower := toLower_toUpper_httpMethod m hm
      rw [hupper, toLower_get] at hlower
      rw [toLower_head] at hnone
      exact ⟨rfl, hlower ▸ href, hnone⟩
  · rintro ⟨rfl, hget, hhead⟩
    have hlive : template ≠ livenessPath := by
      rintro rfl
      rw [OperationTable.get?_eq_none_iff_of_compile ht,
        toLower_httpMethod "get" (by decide)] at hfree
      exact hfree hget
    have hdeclared : s.declares "GET" template = true :=
      (declares_iff ht).mpr ⟨"get", by decide, by decide +kernel, hget⟩
    rw [toLower_head]
    exact ⟨.inr ⟨rfl, hlive, hdeclared⟩, hhead⟩

/-! ## Answers -/

/-- The answer to a request that is handled once it is bound. -/
def answer : Except ServiceError Bound → HttpResponse
  | .error e => .ofError e
  | .ok bound => .json 200 bound.dataJson

theorem status_ofBindError (failure : BindError) :
    (ServiceError.ofBindError failure).status = 400 ∨
      (ServiceError.ofBindError failure).status = 415 := by
  cases failure with
  | invalid errors => exact .inl rfl
  | unsupportedMediaType mediaType => exact .inr rfl

/-- No failure of binding is a failure of the service. -/
theorem status_of_bind_eq_error {o : Operation} {r : HttpRequest}
    {values : List (String × String)} {e : ServiceError} (h : bind o r values = .error e) :
    e.status ≠ 500 := by
  rw [bind] at h
  split at h
  · cases h
    decide
  · cases hb : o.bind (r.surface values) with
    | ok bound =>
        rw [hb] at h
        cases h
    | error failure =>
        rw [hb] at h
        cases h
        have hstatus := status_ofBindError failure
        omega

variable {r : HttpRequest} {route : Route} {values : List (String × String)}

theorem respondOn_of_get? {o : Operation} (hecho : s.handler r.method route.template = .echo)
    (ho : s.table.get? r.method route.template = some o) :
    s.respondOn r route values = answer (bind o r (decodePathValues values)) := by
  simp only [respondOn, hecho, ho]
  cases bind o r (decodePathValues values) with
  | error e => rfl
  | ok bound => rfl

/-- A request on a route fails inside the service exactly if it comes to the handler and the table
has no operation for its method. -/
theorem status_respondOn_iff :
    (s.respondOn r route values).status = 500 ↔
      s.handler r.method route.template = .echo ∧
        s.table.get? r.method route.template = none := by
  cases ho : s.table.get? r.method route.template with
  | none =>
      cases hh : s.handler r.method route.template with
      | alive => simp [respondOn, hh, run, HttpResponse.text]
      | echo => simp [respondOn, hh, ho, run, HttpResponse.ofError, HttpResponse.json,
          ServiceError.status]
      | notAllowed => simp [respondOn, hh, ho, run, HttpResponse.bare]
  | some o =>
      have hnot : (s.respondOn r route values).status ≠ 500 := by
        cases hh : s.handler r.method route.template with
        | alive => simp [respondOn, hh, run, HttpResponse.text]
        | echo =>
            rw [respondOn_of_get? hh ho]
            cases hb : bind o r (decodePathValues values) with
            | error e => exact status_of_bind_eq_error hb
            | ok bound => simp [answer, HttpResponse.json]
        | notAllowed =>
            simp only [respondOn, hh, ho]
            cases hb : bind o r (decodePathValues values) with
            | error e => exact status_of_bind_eq_error hb
            | ok bound => simp [run, HttpResponse.bare]
      simp [hnot]

theorem status_answering (method : String) (response : HttpResponse) :
    (HttpResponse.answering method response).status = response.status := by
  rw [HttpResponse.answering]
  split <;> rfl

/-- So does a request to the service, on the route that it is sent to. -/
theorem status_respond_iff :
    (s.respond r).status = 500 ↔ ∃ route values,
      Route.find? s.routes r.path = some (route, values) ∧
        (s.respondOn r route values).status = 500 := by
  rw [respond, status_answering]
  cases Route.find? s.routes r.path with
  | none => simp [HttpResponse.bare]
  | some found =>
      obtain ⟨route, values⟩ := found
      simp

/-- A request that a handler answers with its values has been bound to an operation of the
document, unless it is for the head of what the document only declares how to get. Only that is
answered with a failure of the service. -/
theorem respond_binds (ht : OperationTable.compile tools d = .ok t) (hs : ofTable? t = some s)
    (r : HttpRequest) :
    ((s.respond r).status = 500 ↔ ∃ route values,
      Route.find? s.routes r.path = some (route, values) ∧
        d.HeadOfGet r.method route.template) ∧
    ∀ route values, Route.find? s.routes r.path = some (route, values) →
      s.handler r.method route.template = .echo → ¬ d.HeadOfGet r.method route.template →
        ∃ o ∈ t.operations, o.path = route.template ∧ o.method = r.method.toLower ∧
          Operation.compile tools d o.path o.method = .ok o ∧
          s.respond r =
            HttpResponse.answering r.method (answer (bind o r (decodePathValues values))) := by
  constructor
  · rw [status_respond_iff]
    simp only [status_respondOn_iff, echo_unbound_iff ht hs]
  · intro route values hroute hecho hbound
    rw [← echo_unbound_iff ht hs] at hbound
    obtain ⟨rfl, -⟩ := of_ofTable?_eq_some hs
    cases ho : s.table.get? r.method route.template with
    | none => exact absurd ⟨hecho, ho⟩ hbound
    | some o =>
        obtain ⟨hmem, hpath, hmethod⟩ := OperationTable.of_get?_eq_some ho
        refine ⟨o, hmem, hpath, hmethod, (OperationTable.compile_of_mem ht hmem).2, ?_⟩
        rw [respond, hroute]
        exact congrArg (HttpResponse.answering r.method) (respondOn_of_get? hecho ho)

/-! ## A document with one operation -/

/-- A document that declares how to get a status. -/
def statusDocument : Document where
  root := [("paths", .object [("/status", .object [("get", .object [])])])]
  paths := [("/status", .object [("get", .object [])])]
  components := none

/-- What it is compiled to. -/
def statusTable : OperationTable where
  operations := [⟨"/status", "get", [], none, none, {}⟩]

/-- A request for the status, by its method. -/
def statusRequest (method : String) : HttpRequest := ⟨method, "/status", [], []⟩

theorem compile_statusDocument (formats : FormatRegistry) (decoders : DecoderRegistry) :
    OperationTable.compile ⟨formats, decoders, {}⟩ statusDocument = .ok statusTable := by
  cbv

/-- A request for the head is answered with a failure: nothing has bound it. -/
theorem statusRequest_head :
    ∃ t s, OperationTable.compile .standard statusDocument = .ok t ∧ ofTable? t = some s ∧
      s.handler "HEAD" "/status" = .echo ∧
      (s.respond (statusRequest "HEAD")).status = 500 := by
  have hanswer : ((ofTable? statusTable).map fun s =>
      (s.handler "HEAD" "/status", (s.respond (statusRequest "HEAD")).status)) =
        some (.echo, 500) := by
    decide +kernel
  obtain ⟨s, hs, hpair⟩ := Option.map_eq_some_iff.mp hanswer
  obtain ⟨hecho, hstatus⟩ := Prod.mk.inj hpair
  exact ⟨statusTable, s, compile_statusDocument _ _, hs, hecho, hstatus⟩

/-- A request for the whole is bound, and is answered with what it is bound to. -/
theorem statusRequest_get :
    ∃ t s, OperationTable.compile .standard statusDocument = .ok t ∧ ofTable? t = some s ∧
      (s.respond (statusRequest "GET")).status ≠ 500 ∧
      ∃ o ∈ t.operations, o.path = "/status" ∧ o.method = "get" ∧ ∃ values,
        s.respond (statusRequest "GET") =
          answer (bind o (statusRequest "GET") (decodePathValues values)) := by
  have ht : OperationTable.compile .standard statusDocument = .ok statusTable :=
    compile_statusDocument _ _
  have hroute : ((ofTable? statusTable).bind fun s =>
      (Route.find? s.routes (statusRequest "GET").path).map fun found =>
        (found.1.template, s.handler "GET" found.1.template)) = some ("/status", .echo) := by
    decide +kernel
  obtain ⟨s, hs, hfound⟩ := Option.bind_eq_some_iff.mp hroute
  obtain ⟨⟨route, values⟩, hroute, hpair⟩ := Option.map_eq_some_iff.mp hfound
  obtain ⟨htemplate : route.template = "/status", hecho⟩ := Prod.mk.inj hpair
  obtain ⟨hstatus, hbinds⟩ := respond_binds ht hs (statusRequest "GET")
  have hwhole : ∀ path, ¬ statusDocument.HeadOfGet "GET" path := by
    rintro path ⟨hhead, -⟩
    exact absurd hhead (by decide)
  obtain ⟨o, ho, hpath, hmethod, -, hanswer⟩ := hbinds route values hroute hecho (hwhole _)
  refine ⟨statusTable, s, ht, hs, ?_, o, ho, hpath.trans htemplate, ?_, values, hanswer⟩
  · rw [ne_eq, hstatus]
    rintro ⟨route, values, -, hhead⟩
    exact hwhole _ hhead
  · rw [hmethod]
    exact toLower_get

end EchoService

end SchemaGate
