import Mathlib
import SchemaGate.Proofs.Schema.Following
import SchemaGate.Proofs.Schema.KeywordOrder

/-!
# The order of keys of a schema does not matter

Two schemas that differ only in the order of members, against definitions that differ only so, are
compiled together or not at all (`Validator.compile_reorders`). Their trees are the same but for the
order of members in the values that they keep, which are defaults and members of enumerations
(`Validator.Reorders`).

The properties of an object are compiled in declared order, so the first fault of two orders need
not be the same; but the trees are sorted by name, so no order is left of them in the end
(`Validator.assembleProperties_reorders`).
-/

namespace SchemaGate

/-! ## Trees that differ in what they keep -/

/-- The same choice, with related schemas if there are any. -/
inductive Additional.Rel {α β : Type} (R : α → β → Prop) : Additional α → Additional β → Prop
  | allow : Rel R .allow .allow
  | deny : Rel R .deny .deny
  | schema {v : α} {w : β} : R v w → Rel R (.schema v) (.schema w)

namespace Validator

/-- The same tree but for the order of members in defaults and enumerations. -/
inductive Reorders : Validator → Validator → Prop
  | integer {r r' : IntegerRule} : r.Reorders r' → Reorders (integer r) (integer r')
  | number {r r' : NumberRule} : r.Reorders r' → Reorders (number r) (number r')
  | string {r r' : StringRule} : r.Reorders r' → Reorders (string r) (string r')
  | boolean {c c' : Common} : c.Reorders c' → Reorders (boolean c) (boolean c')
  | array {r r' : ArrayRule} {items items' : Validator} : r.Reorders r' → Reorders items items' →
      Reorders (array r items) (array r' items')
  | object {r r' : ObjectRule} {properties properties' : Entries Validator}
      {additional additional' : Additional Validator} : r.Reorders r' →
      Entries.keys properties = Entries.keys properties' →
      List.Forall₂ Reorders (properties.map Prod.snd) (properties'.map Prod.snd) →
      Additional.Rel Reorders additional additional' →
      Reorders (object r properties additional) (object r' properties' additional')
  | oneOf {c c' : Common} {branches branches' : List Validator} (d : Option Discriminator) :
      c.Reorders c' → List.Forall₂ Reorders branches branches' →
      Reorders (oneOf c branches d) (oneOf c' branches' d)
  | anyOf {c c' : Common} {branches branches' : List Validator} (d : Option Discriminator) :
      c.Reorders c' → List.Forall₂ Reorders branches branches' →
      Reorders (anyOf c branches d) (anyOf c' branches' d)
  | allOf {c c' : Common} {branches branches' : List Validator} :
      c.Reorders c' → List.Forall₂ Reorders branches branches' →
      Reorders (allOf c branches) (allOf c' branches')

end Validator

/-! ## Forms -/

namespace Form

/-- The same form, with values that differ only in the order of members. -/
inductive Reorders : Form → Form → Prop
  | oneOf {v v' : Json} : Json.Reorders v v' → Reorders (oneOf v) (oneOf v')
  | anyOf {v v' : Json} : Json.Reorders v v' → Reorders (anyOf v) (anyOf v')
  | allOf {v v' : Json} : Json.Reorders v v' → Reorders (allOf v) (allOf v')
  | typed {v v' : Json} : Json.Reorders v v' → Reorders (typed v) (typed v')
  | untyped : Reorders untyped untyped

theorem ofMembers_reorders {members others : Entries Json}
    (h : Entries.Matches Json.Reorders members others) :
    Reorders (ofMembers members) (ofMembers others) := by
  unfold ofMembers
  refine h.elim "oneOf" ?_ fun v w hvw => .oneOf hvw
  refine h.elim "anyOf" ?_ fun v w hvw => .anyOf hvw
  refine h.elim "allOf" ?_ fun v w hvw => .allOf hvw
  exact h.elim "type" .untyped fun v w hvw => .typed hvw

end Form

/-! ## Assembly -/

namespace Validator

section

variable {formats : FormatRegistry} {f g : Json → Except CompileError Validator}
  {members others : Entries Json} {c c' : Common}

/-- Schemas that differ only in the order of members are compiled together, to trees that differ
in what they keep. -/
def CompileTogether (f g : Json → Except CompileError Validator) (ss ts : List Json) : Prop :=
  ∀ s ∈ ss, ∀ t ∈ ts, Json.Reorders s t → SucceedTogether Reorders (f s) (g t)

theorem assembleBranches_reorders {keyword : String} {v v' : Json} (h : Json.Reorders v v')
    (hfg : CompileTogether f g (v.array?.getD []) (v'.array?.getD [])) :
    SucceedTogether (List.Forall₂ Reorders) (assembleBranches f keyword v)
      (assembleBranches g keyword v') := by
  cases h with
  | array hitems =>
      cases hitems with
      | nil => exact .error _ _
      | cons hb hbs => exact .mapM (.cons hb hbs) hfg
  | _ => exact .error _ _

/-- A choice is assembled alike: the branches one by one, and the discriminator from branches with
the same names. -/
theorem assembleChoice_reorders
    {node node' : List Validator → Option Discriminator → Validator} {keyword : String}
    {v v' : Json} (hm : Entries.Matches Json.Reorders members others)
    (hwf : (Json.object members).WellFormed) (h : Json.Reorders v v') (hv : v.WellFormed)
    (hfg : CompileTogether f g (v.array?.getD []) (v'.array?.getD []))
    (hnode : ∀ bs bs' d, List.Forall₂ Reorders bs bs' → Reorders (node bs d) (node' bs' d)) :
    SucceedTogether Reorders (assembleChoice f node keyword members v)
      (assembleChoice g node' keyword others v') := by
  refine (assembleBranches_reorders h hfg).bind fun bs bs' hbs => ?_
  have hitems : List.Forall₂ Json.Reorders (v.array?.getD []) (v'.array?.getD []) := by
    cases h with
    | array hitems => exact hitems
    | _ => exact .nil
  have hitemsWf : ∀ b ∈ v.array?.getD [], b.WellFormed := by
    cases v with
    | array items => exact Json.wellFormed_array.mp hv
    | _ => exact fun b hb => absurd hb List.not_mem_nil
  refine (Keyword.discriminator_of_matches hm hwf hitems hitemsWf).bind ?_
  rintro d _ rfl
  exact .ok (hnode bs bs' d hbs)

theorem assembleNamed_eq_ok_iff {schemas : Entries Json} {vs : Entries Validator} :
    assembleNamed f schemas = .ok vs ↔ Entries.Along (fun s v => f s = .ok v) schemas vs := by
  refine mapM_eq_ok_iff.trans ⟨fun h => h.imp fun m v hv => ?_, fun h => h.imp fun m v hv => ?_⟩
  · obtain ⟨w, hw, heq⟩ := bind_eq_ok_iff.mp hv
    cases heq
    exact ⟨rfl, hw⟩
  · obtain ⟨hname, hv⟩ := hv
    exact bind_eq_ok_iff.mpr ⟨v.2, hv, by rw [hname]; rfl⟩

/-- In whatever order properties are declared, the trees are the same name by name. -/
theorem assembleNamed_reorders {schemas others : Entries Json}
    (h : Json.Reorders (.object schemas) (.object others))
    (hwf : (Json.object schemas).WellFormed)
    (hfg : CompileTogether f g (schemas.map Prod.snd) (others.map Prod.snd)) :
    SucceedTogether (fun vs ws => Entries.Along Reorders (Entries.sorted vs) (Entries.sorted ws))
      (assembleNamed f schemas) (assembleNamed g others) := by
  have hm := h.matches hwf
  have hd := (Json.wellFormed_object.mp hwf).1
  have hd' := (Json.wellFormed_object.mp (h.wellFormed hwf)).1
  have hboth : ∀ m ∈ schemas, ∀ n ∈ others, Json.Reorders m.2 n.2 →
      SucceedTogether Reorders (f m.2) (g n.2) := fun m hm n hn =>
    hfg m.2 (List.mem_map_of_mem hm) n.2 (List.mem_map_of_mem hn)
  apply SucceedTogether.of_iff
  · simp only [assembleNamed_eq_ok_iff]
    exact hm.exists_along_iff hd hd' fun m hm n hn hmn => (hboth m hm n hn hmn).exists_iff
  · intro vs ws hvs hws
    rw [assembleNamed_eq_ok_iff] at hvs hws
    have hresults : Entries.Matches Reorders vs ws := by
      refine hm.of_along hvs hws fun m hm n hn hmn v w hv hw => ?_
      have hvw := hboth m hm n hn hmn
      rw [hv, hw] at hvw
      exact hvw.rel
    exact hresults.sorted (hvs.keys_eq ▸ hd) (hws.keys_eq ▸ hd')

/-- Declared properties are sorted by name, and so the order in which the source has them does not
matter. -/
theorem assembleProperties_reorders (hm : Entries.Matches Json.Reorders members others)
    (hwf : (Json.object members).WellFormed)
    (hfg : CompileTogether f g ((Form.declared members).map Prod.snd)
      ((Form.declared others).map Prod.snd)) :
    SucceedTogether (Entries.Along Reorders) (assembleProperties f members)
      (assembleProperties g others) := by
  have hvalueWf : ∀ v ∈ Entries.get? "properties" members, v.WellFormed :=
    fun v hv => Json.wellFormed_of_get? hwf hv
  unfold assembleProperties
  unfold Form.declared at hfg
  revert hfg hvalueWf
  refine hm.elim "properties" (fun _ _ => .ok .nil) fun v w hvw hfg hvalueWf => ?_
  have hv := hvalueWf v rfl
  cases hvw with
  | object hkeys hvalues =>
      have hnamed := assembleNamed_reorders (.object hkeys hvalues) hv hfg
      exact hnamed.bind fun vs ws hvw => .ok hvw
  | _ => exact .error _ _

theorem assembleAdditional_reorders (hm : Entries.Matches Json.Reorders members others)
    (hfg : CompileTogether f g (Form.additional members) (Form.additional others)) :
    SucceedTogether (Additional.Rel Reorders) (assembleAdditional f members)
      (assembleAdditional g others) := by
  unfold assembleAdditional
  unfold Form.additional at hfg
  revert hfg
  refine hm.elim "additionalProperties" (fun _ => .ok .allow) fun v w hvw hfg => ?_
  cases hvw with
  | bool b =>
      cases b with
      | true => exact .ok .allow
      | false => exact .ok .deny
  | object hkeys hvalues =>
      have hschema := hfg _ (List.mem_singleton_self _) _ (List.mem_singleton_self _)
        (.object hkeys hvalues)
      exact hschema.bind fun v w hvw => .ok (.schema hvw)
  | _ => exact .error _ _

theorem assembleArray_reorders (hm : Entries.Matches Json.Reorders members others)
    (hc : c.Reorders c')
    (hfg : CompileTogether f g (Entries.get? "items" members).toList
      (Entries.get? "items" others).toList) :
    SucceedTogether Reorders (assembleArray f c members) (assembleArray g c' others) := by
  unfold assembleArray
  revert hfg
  refine hm.elim "items" (fun _ => .error _ _) fun v w hvw hfg => ?_
  have hitems := hfg v (List.mem_singleton_self v) w (List.mem_singleton_self w) hvw
  refine hitems.bind fun items items' hitems => ?_
  exact (Keyword.arrayRule_of_matches hm hc).bind fun r r' hr => .ok (.array hr hitems)

theorem assembleObject_reorders (hm : Entries.Matches Json.Reorders members others)
    (hwf : (Json.object members).WellFormed) (hc : c.Reorders c')
    (hdeclared : CompileTogether f g ((Form.declared members).map Prod.snd)
      ((Form.declared others).map Prod.snd))
    (hother : CompileTogether f g (Form.additional members) (Form.additional others)) :
    SucceedTogether Reorders (assembleObject f c members) (assembleObject g c' others) := by
  refine (assembleProperties_reorders hm hwf hdeclared).bind fun ps ps' hps => ?_
  refine .bind_eq (Keyword.required_of_matches hm) fun required => ?_
  refine (assembleAdditional_reorders hm hother).bind fun a a' ha => ?_
  refine (Keyword.objectRule_of_matches hm hc required).bind fun r r' hr => ?_
  exact .ok (.object hr hps.keys_eq hps.values ha)

/-- A node with a type is assembled alike from matching members. -/
theorem assembleTyped_reorders {type : String}
    (hm : Entries.Matches Json.Reorders members others)
    (hwf : (Json.object members).WellFormed) (hc : c.Reorders c')
    (hform : Form.ofMembers members = .typed (.string type))
    (hform' : Form.ofMembers others = .typed (.string type))
    (hfg : CompileTogether f g (Form.subschemas members) (Form.subschemas others)) :
    SucceedTogether Reorders (assembleTyped formats f c members type)
      (assembleTyped formats g c' others type) := by
  simp only [Form.subschemas, hform, hform'] at hfg
  unfold assembleTyped
  split
  · exact (Keyword.integerRule_of_matches hm hc).bind fun r r' hr => .ok (.integer hr)
  · exact (Keyword.numberRule_of_matches hm hc).bind fun r r' hr => .ok (.number hr)
  · exact (Keyword.stringRule_of_matches hm hc formats).bind fun r r' hr => .ok (.string hr)
  · exact .ok (.boolean hc)
  · exact assembleArray_reorders hm hc hfg
  · refine assembleObject_reorders hm hwf hc (fun s hs t ht => ?_) fun s hs t ht => ?_
    · exact hfg s (List.mem_append_left _ hs) t (List.mem_append_left _ ht)
    · exact hfg s (List.mem_append_right _ hs) t (List.mem_append_right _ ht)
  · exact .error _ _

/-- Nodes of schemas that differ only in the order of members, put together from trees that differ
in what they keep, differ in what they keep. -/
theorem assemble_reorders (hm : Entries.Matches Json.Reorders members others)
    (hwf : (Json.object members).WellFormed)
    (hfg : CompileTogether f g (Form.subschemas members) (Form.subschemas others)) :
    SucceedTogether Reorders (assemble formats f members) (assemble formats g others) := by
  refine (Keyword.common_of_matches hm).bind fun c c' hc => ?_
  have hform := Form.ofMembers_reorders hm
  unfold assembleBody
  generalize hF : Form.ofMembers members = F at hform ⊢
  generalize hG : Form.ofMembers others = G at hform ⊢
  cases hform with
  | oneOf h =>
      have hv := Json.wellFormed_of_get? hwf (Form.get?_of_oneOf hF)
      simp only [Form.subschemas, hF, hG] at hfg
      exact assembleChoice_reorders hm hwf h hv hfg fun _ _ d hbs => .oneOf d hc hbs
  | anyOf h =>
      have hv := Json.wellFormed_of_get? hwf (Form.get?_of_anyOf hF).2
      simp only [Form.subschemas, hF, hG] at hfg
      exact assembleChoice_reorders hm hwf h hv hfg fun _ _ d hbs => .anyOf d hc hbs
  | allOf h =>
      simp only [Form.subschemas, hF, hG] at hfg
      exact (assembleBranches_reorders h hfg).bind fun _ _ hbs => .ok (.allOf hc hbs)
  | typed h =>
      cases h with
      | string type => exact assembleTyped_reorders hm hwf hc hF hG hfg
      | _ => exact .error _ _
  | untyped => exact .error _ _

end

/-! ## Compilation -/

end Validator

/-- Definitions that repeat no key, and others that differ from them only in the order of members,
those of the tables included. -/
structure Components.Reorders (c c' : Components) : Prop where
  wellFormed : (Json.object c.sections).WellFormed
  sections : Json.Reorders (.object c.sections) (.object c'.sections)

theorem Components.get?_eq_member? (c : Components) (sectionName name : String) :
    c.get? sectionName name =
      ((Json.object c.sections).member? sectionName).bind (Json.member? name) := by
  show ((Entries.get? sectionName c.sections).bind Json.object?).bind (Entries.get? name) =
    (Entries.get? sectionName c.sections).bind fun v => v.object?.bind (Entries.get? name)
  rw [Option.bind_assoc]

/-- A reference leads to definitions that differ only in the order of members. -/
theorem Components.Reorders.resolve {c c' : Components} (h : c.Reorders c') (reference : String) :
    SucceedTogether (fun t t' => t.WellFormed ∧ Json.Reorders t t') (c.resolve reference)
      (c'.resolve reference) := by
  unfold Components.resolve
  cases Reference.split reference with
  | error e => exact .error e e
  | ok parts =>
      obtain ⟨sectionName, name⟩ := parts
      have hsection := h.sections.member? h.wellFormed sectionName
      simp only [Components.get?_eq_member?]
      generalize (Json.object c.sections).member? sectionName = v at hsection ⊢
      generalize (Json.object c'.sections).member? sectionName = w at hsection ⊢
      cases hsection with
      | none => exact .error _ _
      | @some v w hvw =>
          have hname := hvw.2.member? hvw.1 name
          simp only [Option.bind_some]
          generalize v.member? name = t at hname ⊢
          generalize w.member? name = t' at hname ⊢
          cases hname with
          | none => exact .error _ _
          | some htt => exact .ok htt

namespace Validator

/-- The same formats, and definitions that differ only in the order of members. -/
structure Context.Reorders (ctx ctx' : Context) : Prop where
  components : Option.Rel Components.Reorders ctx.components ctx'.components
  formats : ctx'.formats = ctx.formats

/-- The same turn, with values that differ only in the order of members. -/
inductive Turn.Reorders : Turn → Turn → Prop
  | fault (e e' : CompileError) : Reorders (fault e) (fault e')
  | follow (r : String) {t t' : Json} : t.WellFormed → Json.Reorders t t' →
      Reorders (follow r t) (follow r t')
  | node {members others : Entries Json} : (Json.object members).WellFormed →
      Entries.Matches Json.Reorders members others → Reorders (node members) (node others)

/-- Compilation takes the same way at schemas that differ in the order of members, and comes to such
schemas. -/
theorem turn_reorders {ctx ctx' : Context} (hctx : ctx.Reorders ctx') (followed : List String)
    {schema schema' : Json} (h : Json.Reorders schema schema') (hwf : schema.WellFormed) :
    Turn.Reorders (turn ctx followed schema) (turn ctx' followed schema') := by
  cases h with
  | @object members others hkeys hvalues =>
      have hm := (Json.Reorders.object hkeys hvalues).matches hwf
      unfold turn
      dsimp only
      refine hm.elim "$ref" (.node hwf hm) fun v w hvw => ?_
      cases hvw with
      | string r =>
          have hcomponents := hctx.components
          generalize ctx.components = c at hcomponents ⊢
          generalize ctx'.components = c' at hcomponents ⊢
          cases hcomponents with
          | none => exact .fault _ _
          | @some c c' hc =>
              dsimp only
              split
              · exact .fault _ _
              · have hresolve := hc.resolve r
                generalize c.resolve r = x at hresolve ⊢
                generalize c'.resolve r = y at hresolve ⊢
                cases hresolve with
                | error e e' => exact .fault e e'
                | ok ht => exact .follow r ht.1 ht.2
      | _ => exact .fault _ _
  | _ => exact .fault _ _

/-- Schemas that differ only in the order of members have results that do so too. -/
theorem returns_reorders {ctx ctx' : Context} (hctx : ctx.Reorders ctx') {followed : List String}
    {schema schema' : Json} {x y : Except CompileError Validator}
    (hx : Returns ctx followed schema x) (hy : Returns ctx' followed schema' y)
    (h : Json.Reorders schema schema') (hwf : schema.WellFormed) :
    SucceedTogether Reorders x y := by
  induction hx generalizing schema' y with
  | @fault followed schema e ht =>
      have hturn := turn_reorders hctx followed h hwf
      rw [ht] at hturn
      generalize ht' : turn ctx' followed schema' = t' at hturn
      cases hturn with
      | fault _ e' =>
          rw [hy.of_fault ht']
          exact .error e e'
  | @follow followed schema target r result ht _ ih =>
      have hturn := turn_reorders hctx followed h hwf
      rw [ht] at hturn
      generalize ht' : turn ctx' followed schema' = t' at hturn
      cases hturn with
      | follow _ htwf htarget => exact ih (hy.of_follow ht') htarget htwf
  | @node followed schema members results ht _ ih =>
      have hturn := turn_reorders hctx followed h hwf
      rw [ht] at hturn
      generalize ht' : turn ctx' followed schema' = t' at hturn
      cases hturn with
      | node hmwf hm =>
          obtain ⟨results', hresults', rfl⟩ := hy.of_node ht'
          rw [hctx.formats]
          refine assemble_reorders hm hmwf fun s hs t ht hst => ?_
          exact ih s hs (hresults' t ht) hst ((Form.partOf_of_mem_subschemas hs).wellFormed hmwf)

/-- Compiling does not depend on the order of keys, neither in the schema nor in the definitions. -/
theorem compile_reorders {components components' : Option Components} (formats : FormatRegistry)
    {schema schema' : Json} (hwf : schema.WellFormed) (h : Json.Reorders schema schema')
    (hcomponents : Option.Rel Components.Reorders components components') :
    SucceedTogether Reorders (compile ⟨components, formats⟩ schema)
      (compile ⟨components', formats⟩ schema') := by
  have hctx : Context.Reorders ⟨components, formats⟩ ⟨components', formats⟩ := ⟨hcomponents, rfl⟩
  exact returns_reorders hctx (returns_compile _ schema) (returns_compile _ schema') h hwf

/-! ## Admission to a hall -/

/-- A row must be given for a seat. -/
def seatSchema : Json := .object [("type", .string "object"), ("required", .array [.string "row"])]

/-- Nothing is known about a standing place. -/
def standSchema : Json := .object [("type", .string "object")]

/-- The definitions of both. -/
def hall : Components := ⟨[("schemas", .object [("Seat", seatSchema), ("Stand", standSchema)])]⟩

/-- The same definitions in another order. -/
def hallTurned : Components :=
  ⟨[("schemas", .object [("Stand", standSchema), ("Seat", seatSchema)])]⟩

/-- A seat or a standing place. -/
def admissionBranches : List Json :=
  [.object [("$ref", .string "#/components/schemas/Seat")],
    .object [("$ref", .string "#/components/schemas/Stand")]]

/-- They are told apart by their kind. A box is a seat and the lawn is a standing place. -/
def admissionMembers : Entries Json :=
  [("oneOf", .array admissionBranches),
    ("discriminator", .object [("propertyName", .string "kind"), ("mapping", .object [
      ("box", .string "#/components/schemas/Seat"),
      ("lawn", .string "#/components/schemas/Stand")])]),
    ("default", .object [("kind", .string "box"), ("row", .string "a")])]

/-- The same with all its keys in another order. -/
def admissionTurned : Entries Json :=
  [("default", .object [("row", .string "a"), ("kind", .string "box")]),
    ("discriminator", .object [("mapping", .object [
      ("lawn", .string "#/components/schemas/Stand"),
      ("box", .string "#/components/schemas/Seat")]), ("propertyName", .string "kind")]),
    ("oneOf", .array admissionBranches)]

theorem compile_admissionBranches :
    admissionBranches.mapM (compile ⟨some hall, .empty⟩) =
      .ok [.object { required := ["row"] } [] .allow, .object {} [] .allow] := by
  have hseat : ∀ pending, compileWith ⟨some hall, .empty⟩ pending seatSchema =
      .ok (.object { required := ["row"] } [] .allow) := by
    intro pending
    rw [seatSchema, compileWith_object_eq _ _ rfl]
    cbv
  have hstand : ∀ pending, compileWith ⟨some hall, .empty⟩ pending standSchema =
      .ok (.object {} [] .allow) := by
    intro pending
    rw [standSchema, compileWith_object_eq _ _ rfl]
    cbv
  have hseatRef : hall.resolve "#/components/schemas/Seat" = .ok seatSchema := by cbv
  have hstandRef : hall.resolve "#/components/schemas/Stand" = .ok standSchema := by cbv
  refine mapM_eq_ok_iff.mpr (.cons ?_ (.cons ?_ .nil))
  · rw [compile_ref_eq rfl rfl hseatRef, hseat]
  · rw [compile_ref_eq rfl rfl hstandRef, hstand]

/-- What an admission is compiled to. -/
def admission : Validator :=
  .oneOf { default? := some (.object [("kind", .string "box"), ("row", .string "a")]) }
    [.object { required := ["row"] } [] .allow, .object {} [] .allow]
    (some ⟨"kind", [("Seat", 0), ("Stand", 1), ("box", 0), ("lawn", 1)]⟩)

theorem compile_admissionMembers :
    compile ⟨some hall, .empty⟩ (.object admissionMembers) = .ok admission := by
  have hkinds : Keyword.discriminator admissionMembers admissionBranches =
      .ok (some ⟨"kind", [("Seat", 0), ("Stand", 1), ("box", 0), ("lawn", 1)]⟩) := by
    decide +kernel
  rw [compile_object_eq rfl]
  show assembleChoice (compile ⟨some hall, .empty⟩) (.oneOf admission.common) "oneOf"
    admissionMembers (.array admissionBranches) = _
  show (admissionBranches.mapM (compile ⟨some hall, .empty⟩) >>= fun branches => _) = _
  rw [compile_admissionBranches]
  show (Keyword.discriminator admissionMembers admissionBranches >>= fun d => _) = _
  rw [hkinds]
  rfl

theorem wellFormed_admissionMembers : (Json.object admissionMembers).WellFormed := by
  simp [admissionMembers, admissionBranches, Json.WellFormed, Json.WellFormedMembers,
    Json.WellFormedItems, Entries.keys]

theorem wellFormed_hall : (Json.object hall.sections).WellFormed := by
  simp [hall, seatSchema, standSchema, Json.WellFormed, Json.WellFormedMembers,
    Json.WellFormedItems, Entries.keys]

theorem admissionMembers_reorders :
    Json.Reorders (.object admissionMembers) (.object admissionTurned) := by
  refine .of_along (List.reverse_perm _)
    (.cons ⟨rfl, .refl _⟩ (.cons ⟨rfl, ?_⟩ (.cons ⟨rfl, ?_⟩ .nil))) (by decide)
  · exact .of_along (.swap _ _ [])
      (.cons ⟨rfl, .refl _⟩ (.cons ⟨rfl, .of_perm (.swap _ _ []) (by decide)⟩ .nil)) (by decide)
  · exact .of_perm (.swap _ _ []) (by decide)

theorem hall_reorders : hall.Reorders hallTurned where
  wellFormed := wellFormed_hall
  sections := .of_along (.refl _) (.cons ⟨rfl, .of_perm (.swap _ _ []) (by decide)⟩ .nil)
    (List.nodup_singleton _)

/-- Either way an admission is compiled, and what it is compiled to differs in the default only. -/
theorem admission_reorders :
    compile ⟨some hall, .empty⟩ (.object admissionMembers) = .ok admission ∧
      ∃ turned, compile ⟨some hallTurned, .empty⟩ (.object admissionTurned) = .ok turned ∧
        admission.Reorders turned := by
  have hboth := compile_reorders .empty wellFormed_admissionMembers admissionMembers_reorders
    (.some hall_reorders)
  rw [compile_admissionMembers] at hboth
  refine ⟨compile_admissionMembers, ?_⟩
  generalize compile ⟨some hallTurned, .empty⟩ (.object admissionTurned) = result at hboth ⊢
  cases hboth with
  | ok h => exact ⟨_, rfl, h⟩

end Validator

end SchemaGate
