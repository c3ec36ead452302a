import Mathlib
import SchemaGate.Proofs.Service.Handling
import SchemaGate.Proofs.Text.Trimming

/-!
# What a request is answered with

Binding decides about the answer to a request that has an operation: invalid values are told, a
media type that the operation does not have is refused, and what is bound is echoed
(`EchoService.decidedBy_bind`). The operation is looked up for the method in any case, but the
handler of the route only for the method in upper case. With any other spelling a request is bound,
and if that succeeds there is no handler for it.

* `EchoService.course` tells which way a request goes, where a response no longer does, and
  `EchoService.respond_eq` that the response is that of the course;
* `EchoService.handler_of_get?`: whether a request that has an operation has a handler;
* `EchoService.course_of_get?`: its way, in terms of what it is bound to;
* `EchoService.statusRequest_lowerCase`: a request that is bound and has no handler.
-/

namespace SchemaGate

namespace EchoService

/-! ## Courses -/

/-- Which way a request goes: there is no route for it, it is refused before it comes to a handler,
or it comes to one with the values that it is bound to. -/
inductive Course where
  | lost
  | refused (e : ServiceError)
  | handled (handler : Handler) (bound : Option Bound)

/-- The response at the end of the way. -/
def Course.response : Course → HttpResponse
  | lost => .bare 404
  | refused e => .ofError e
  | handled handler bound => run bound handler

/-- The way of a request on a route. -/
def courseOn (s : EchoService) (r : HttpRequest) (route : Route)
    (rawValues : List (String × String)) : Course :=
  match s.handler r.method route.template with
  | .alive => .handled .alive none
  | handler =>
    match s.table.get? r.method route.template with
    | none => .handled handler none
    | some o =>
      match bind o r (decodePathValues rawValues) with
      | .error e => .refused e
      | .ok bound => .handled handler (some bound)

/-- The way of a request. -/
def course (s : EchoService) (r : HttpRequest) : Course :=
  match Route.find? s.routes r.path with
  | none => .lost
  | some (route, rawValues) => s.courseOn r route rawValues

variable {tools : Toolkit} {d : Document} {t : OperationTable} {s : EchoService}
  {method template : String} {o : Operation} {r : HttpRequest} {route : Route}
  {values : List (String × String)}

/-- The response is that of the way which the request goes. -/
theorem respondOn_eq : s.respondOn r route values = (s.courseOn r route values).response := by
  rw [respondOn, courseOn]
  cases s.handler r.method route.template with
  | alive => rfl
  | echo | notAllowed =>
      cases s.table.get? r.method route.template with
      | none => rfl
      | some o =>
          dsimp only
          cases bind o r (decodePathValues values) <;> rfl

/-- A response is that of the way that the request has gone. -/
theorem respond_eq : s.respond r = .answering r.method (s.course r).response := by
  rw [respond, course]
  cases Route.find? s.routes r.path with
  | none => rfl
  | some found => exact congrArg (HttpResponse.answering r.method) respondOn_eq

/-! ## Requests that have an operation -/

/-- The operation is found whatever the case of the method is, its handler in upper case only. -/
theorem handler_of_get? (ht : OperationTable.compile tools d = .ok s.table)
    (ho : s.table.get? method template = some o) (hhead : method ≠ "HEAD") :
    s.handler method template = if method.toUpper = method then .echo else .notAllowed := by
  obtain ⟨hmem, hpath, hmethod⟩ := OperationTable.of_get?_eq_some ho
  have href := (OperationTable.compile_of_mem ht hmem).1
  split
  · -- the operation that is found is the one that is routed
    rename_i hupper
    refine handler_eq_echo_iff.mpr (.inl ((declares_iff ht).mpr ?_))
    refine ⟨o.method, Document.method_mem_httpMethods href, ?_, hpath ▸ href⟩
    rw [hmethod, Text.toUpper_toLower, hupper]
  · -- nothing is routed, not even the service's own route
    rename_i hupper
    have hdeclared : s.declares method template = false := by
      refine Bool.eq_false_iff.mpr fun hdeclared => ?_
      obtain ⟨m, hm, rfl, -⟩ := (declares_iff ht).mp hdeclared
      refine hupper ?_
      rw [← Text.toUpper_toLower m.toUpper, toLower_toUpper_httpMethod m hm]
    have hget : method ≠ "GET" := by
      rintro rfl
      exact hupper (by decide +kernel)
    simp [handler, hdeclared, hget, hhead]

/-- A request goes where binding sends it. -/
theorem course_of_get? (ht : OperationTable.compile tools d = .ok s.table)
    (hroute : Route.find? s.routes r.path = some (route, values))
    (ho : s.table.get? r.method route.template = some o) (hhead : r.method ≠ "HEAD")
    (hbody : r.body.length ≤ maxBodyOctets) :
    s.course r =
      match o.bind (r.surface (decodePathValues values)) with
      | .error failure => .refused (.ofBindError failure)
      | .ok bound =>
        .handled (if r.method.toUpper = r.method then .echo else .notAllowed) (some bound) := by
  have hbind : bind o r (decodePathValues values) =
      (o.bind (r.surface (decodePathValues values))).mapError .ofBindError :=
    if_neg (Nat.not_lt.mpr hbody)
  rw [course, hroute]
  simp only [courseOn, handler_of_get? ht ho hhead, ho, hbind]
  -- neither handler is the one that does without binding
  by_cases hupper : r.method.toUpper = r.method
  · simp only [if_pos hupper]
    cases o.bind (r.surface (decodePathValues values)) <;> rfl
  · simp only [if_neg hupper]
    cases o.bind (r.surface (decodePathValues values)) <;> rfl

/-! ## Answers -/

/-- The answer to a request is decided by what binding makes of it. -/
structure DecidedBy (s : EchoService) (r : HttpRequest) (outcome : Except BindError Bound) :
    Prop where
  status : (s.respond r).status = 200 ↔
    (∃ bound, outcome = .ok bound) ∧ r.method.toUpper = r.method
  echoed : ∀ bound, outcome = .ok bound → r.method.toUpper = r.method →
    s.respond r = .json 200 bound.dataJson
  notAllowed : ∀ bound, outcome = .ok bound → r.method.toUpper ≠ r.method →
    s.respond r = .bare 405
  invalid : ∀ errors, outcome = .error (.invalid errors) →
    s.respond r = .json 400 (ErrorTree.toJson (.nested errors))
  unsupported : ∀ mediaType, outcome = .error (.unsupportedMediaType mediaType) →
    s.respond r = .json 415 (ServiceError.envelope "UNSUPPORTED_MEDIA_TYPE"
      ("unsupported media type: " ++ mediaType))
  /-- The echo gets the values of this very binding, and runs in no other case. -/
  handled : ∀ passed, s.course r = .handled .echo passed ↔
    ∃ bound, outcome = .ok bound ∧ r.method.toUpper = r.method ∧ passed = some bound

/-- A request that is refused by binding is answered by its failure. -/
theorem decidedBy_of_refused {failure : BindError}
    (hcourse : s.course r = .refused (.ofBindError failure)) (hhead : r.method ≠ "HEAD") :
    s.DecidedBy r (.error failure) := by
  have hanswer : s.respond r = .ofError (.ofBindError failure) := by
    rw [respond_eq, HttpResponse.answering, if_neg hhead, hcourse]
    rfl
  have hstatus : (s.respond r).status ≠ 200 := by
    rw [hanswer]
    show (ServiceError.ofBindError failure).status ≠ 200
    have hstatus := status_ofBindError failure
    omega
  constructor
  case status =>
    refine iff_of_false hstatus ?_
    rintro ⟨⟨_, ⟨⟩⟩, _⟩
  case echoed | notAllowed => rintro _ ⟨⟩
  case invalid | unsupported =>
    rintro _ ⟨⟩
    exact hanswer
  case handled => simp [hcourse]

/-- A request that is bound is answered by the handler of its route, or told that the method is not
allowed. -/
theorem decidedBy_of_handled {bound : Bound}
    (hcourse : s.course r =
      .handled (if r.method.toUpper = r.method then .echo else .notAllowed) (some bound))
    (hhead : r.method ≠ "HEAD") : s.DecidedBy r (.ok bound) := by
  have hrespond : s.respond r = (s.course r).response := by
    rw [respond_eq, HttpResponse.answering, if_neg hhead]
  by_cases hupper : r.method.toUpper = r.method
  · rw [if_pos hupper] at hcourse
    rw [hcourse] at hrespond
    constructor
    case status => simp [hrespond, Course.response, run, HttpResponse.json, hupper]
    case echoed =>
      rintro _ ⟨⟩ -
      exact hrespond
    case notAllowed => exact fun _ _ hother => absurd hupper hother
    case invalid | unsupported => rintro _ ⟨⟩
    case handled => simp [hcourse, hupper, eq_comm]
  · rw [if_neg hupper] at hcourse
    rw [hcourse] at hrespond
    constructor
    case status => simp [hrespond, Course.response, run, HttpResponse.bare, hupper]
    case echoed => exact fun _ _ h => absurd h hupper
    case notAllowed => exact fun _ _ _ => hrespond
    case invalid | unsupported => rintro _ ⟨⟩
    case handled => simp [hcourse, hupper]

/-- Binding decides about every request that has an operation. -/
theorem decidedBy_bind (ht : OperationTable.compile tools d = .ok t) (hs : ofTable? t = some s)
    (hroute : Route.find? s.routes r.path = some (route, values))
    (ho : t.get? r.method route.template = some o) (hhead : r.method ≠ "HEAD")
    (hbody : r.body.length ≤ maxBodyOctets) :
    s.DecidedBy r (o.bind (r.surface (decodePathValues values))) := by
  obtain ⟨rfl, -⟩ := of_ofTable?_eq_some hs
  have hcourse := course_of_get? ht hroute ho hhead hbody
  generalize o.bind (r.surface (decodePathValues values)) = outcome at hcourse ⊢
  cases outcome with
  | error failure => exact decidedBy_of_refused hcourse hhead
  | ok bound => exact decidedBy_of_handled hcourse hhead

/-! ## A document with a parameter -/

/-- How to get an order by its number. -/
def orderPath : Json :=
  .object [("get", .object [("parameters", .array [.object [("name", .string "id"),
    ("in", .string "path"), ("schema", .object [("type", .string "integer")])]])])]

/-- A document that declares that. -/
def orderDocument : Document where
  root := [("paths", .object [("/orders/\x7bid\x7d", orderPath)])]
  paths := [("/orders/\x7bid\x7d", orderPath)]
  components := none

/-- The operation of the document. -/
def order : Operation :=
  ⟨"/orders/\x7bid\x7d", "get", [⟨"id", .path, .integer {}, true⟩], none, none, {}⟩

/-- A request for an order. -/
def orderRequest (id : String) : HttpRequest := ⟨"GET", "/orders/" ++ id, [], []⟩

/-- The number of an order. -/
def orderNumber : Json := .number (.int ⟨58, by decide, by decide⟩)

theorem compile_orderDocument (formats : FormatRegistry) (decoders : DecoderRegistry) :
    OperationTable.compile ⟨formats, decoders, {}⟩ orderDocument = .ok ⟨[order]⟩ := by
  cbv

/-- A request with a number is answered with the number, and one with a word is refused. -/
theorem orderRequest_answers :
    ∃ t s, OperationTable.compile .standard orderDocument = .ok t ∧ ofTable? t = some s ∧
      s.respond (orderRequest "58") = .json 200 (.object [("id", orderNumber)]) ∧
      s.respond (orderRequest "x") =
        .json 400 (ErrorTree.toJson (.nested [("id", typeError "int")])) := by
  have ht : OperationTable.compile .standard orderDocument = .ok ⟨[order]⟩ :=
    compile_orderDocument _ _
  obtain ⟨s, hs⟩ : ∃ s, ofTable? ⟨[order]⟩ = some s :=
    Option.isSome_iff_exists.mp (by decide +kernel)
  have hfound : ∀ id ∈ ["58", "x"], ((ofTable? ⟨[order]⟩).bind fun s =>
      (Route.find? s.routes (orderRequest id).path).map fun found =>
        (found.1.template, found.2)) = some (order.path, [("id", id)]) := by
    decide +kernel
  have hdecided : ∀ id ∈ ["58", "x"], s.DecidedBy (orderRequest id)
      (order.bind ((orderRequest id).surface (decodePathValues [("id", id)]))) := by
    intro id hid
    have hroute := hfound id hid
    rw [hs] at hroute
    obtain ⟨⟨route, values⟩, hroute, hpair⟩ := Option.map_eq_some_iff.mp hroute
    obtain ⟨htemplate, rfl⟩ := Prod.mk.inj hpair
    have ho : OperationTable.get? ⟨[order]⟩ "GET" route.template = some order := by
      rw [show route.template = order.path from htemplate]
      cbv
    exact decidedBy_bind ht hs hroute ho (by show "GET" ≠ "HEAD"; decide) (Nat.zero_le _)
  have hupper : (orderRequest "58").method.toUpper = (orderRequest "58").method := by decide +kernel
  have hnumber : order.bind ((orderRequest "58").surface (decodePathValues [("id", "58")])) =
      .ok ⟨[("id", .value orderNumber)], [("id", .value orderNumber)], []⟩ := by
    cbv
  have hword : order.bind ((orderRequest "x").surface (decodePathValues [("id", "x")])) =
      .error (.invalid [("id", typeError "int")]) := by
    cbv
  exact ⟨_, s, ht, hs, (hdecided "58" (by decide)).echoed _ hnumber hupper,
    (hdecided "x" (by decide)).invalid _ hword⟩

/-- Written in lower case, a request is bound and not answered: routes know upper case only. -/
theorem statusRequest_lowerCase :
    ∃ t s route values o, OperationTable.compile .standard statusDocument = .ok t ∧
      ofTable? t = some s ∧
      Route.find? s.routes (statusRequest "get").path = some (route, values) ∧
      t.get? (statusRequest "get").method route.template = some o ∧
      (statusRequest "get").method ≠ "HEAD" ∧
      (statusRequest "get").body.length ≤ maxBodyOctets ∧
      (∃ bound, o.bind ((statusRequest "get").surface (decodePathValues values)) = .ok bound) ∧
      (s.respond (statusRequest "get")).status ≠ 200 := by
  have hanswer : ((ofTable? statusTable).bind fun s =>
      (Route.find? s.routes (statusRequest "get").path).map fun found =>
        (found.1.template, found.2, (s.respond (statusRequest "get")).status)) =
          some ("/status", [], 405) := by
    decide +kernel
  obtain ⟨s, hs, hfound⟩ := Option.bind_eq_some_iff.mp hanswer
  obtain ⟨⟨route, values⟩, hroute, htriple⟩ := Option.map_eq_some_iff.mp hfound
  obtain ⟨htemplate, hpair⟩ := Prod.mk.inj htriple
  obtain ⟨rfl, hstatus⟩ := Prod.mk.inj hpair
  refine ⟨statusTable, s, route, [], ⟨"/status", "get", [], none, none, {}⟩,
    compile_statusDocument _ _, hs, hroute, ?_, by decide, Nat.zero_le _, ⟨{}, by cbv⟩, ?_⟩
  · rw [show route.template = "/status" from htemplate]
    cbv
  · rw [hstatus]
    decide

end EchoService

end SchemaGate
