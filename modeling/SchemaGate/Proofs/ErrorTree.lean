import Mathlib
import SchemaGate.ErrorTree
import SchemaGate.Proofs.Json.Reordering

/-!
# Error trees and the values they look like

A tree is written without a word on whether it is a message or errors by key. That can be seen from
the value: a text is the one and an object the other, also if it has no members.

* `ErrorTree.ofJson?_toJson`: a well-formed tree is read back from the value that it looks like;
* `ErrorTree.serialize_value` and `ErrorTree.serialize_compact`: to be written is to look like that
  value, and to be written as text is to be its text;
* `ErrorTree.exists_ofJson?_iff`: a value is read as a tree if nothing stands in it but texts and
  objects. The tree then looks like the value with sorted keys (`ErrorTree.reorders_of_ofJson?`).
-/

namespace SchemaGate

namespace ErrorTree

/-- Induction over the errors under keys. -/
theorem induct {P : ErrorTree → Prop} (message : ∀ text, P (.message text))
    (nested : ∀ errors : ErrorMap, (∀ e ∈ errors, P e.2) → P (.nested errors)) (e : ErrorTree) :
    P e := by
  refine @ErrorTree.rec P (fun errors => ∀ e ∈ errors, P e.2) (fun e => P e.2)
    message nested ?_ ?_ (fun _ _ h => h) e
  · exact fun e he => absurd he List.not_mem_nil
  · intro e errors he herrors d hd
    rcases List.mem_cons.mp hd with rfl | hd
    · exact he
    · exact herrors d hd

/-! ## Well-formed trees -/

theorem wellFormedErrors_iff {errors : ErrorMap} :
    WellFormedErrors errors ↔ ∀ e ∈ errors, e.2.WellFormed := by
  induction errors with
  | nil => simp [WellFormedErrors]
  | cons e rest ih => simp [WellFormedErrors, ih]

theorem wellFormed_nested {errors : ErrorMap} :
    (nested errors).WellFormed ↔ Entries.Ascending errors ∧ ∀ e ∈ errors, e.2.WellFormed := by
  rw [WellFormed, wellFormedErrors_iff]
  rfl

/-! ## What a tree looks like -/

theorem toMembers_eq (errors : ErrorMap) :
    toMembers errors = errors.map fun e => (e.1, e.2.toJson) := by
  induction errors with
  | nil => rfl
  | cons e rest ih => rw [toMembers, ih, List.map_cons]

theorem toJson_nested (errors : ErrorMap) :
    (nested errors).toJson = .object (errors.map fun e => (e.1, e.2.toJson)) := by
  rw [toJson, toMembers_eq]

theorem keys_toMembers (errors : ErrorMap) :
    Entries.keys (errors.map fun e => (e.1, e.2.toJson)) = Entries.keys errors :=
  Entries.keys_map (fun _ => toJson) errors

/-! ## Reading a tree -/

/-- A value is read as this tree. -/
def ReadsAs (v : Json) (e : ErrorTree) : Prop := ofJson? v = some e

/-- The members of an object are read as trees if each of them is, and filed by their names. -/
theorem ofMembers?_eq_some_iff {members : Entries Json} {seen errors : ErrorMap} :
    ofMembers? members seen = some errors ↔
      ∃ es, Entries.Along ReadsAs members es ∧ Entries.fileAll es seen = errors := by
  induction members generalizing seen with
  | nil => simp [ofMembers?, Entries.Along, Entries.fileAll]
  | cons m rest ih =>
      obtain ⟨k, v⟩ := m
      rw [ofMembers?]
      cases hv : ofJson? v with
      | none =>
          constructor
          · rintro ⟨⟩
          · rintro ⟨es, hes, -⟩
            obtain ⟨e, -, ⟨-, he⟩, -, -⟩ := List.forall₂_cons_left_iff.mp hes
            rw [ReadsAs, hv] at he
            cases he
      | some tree =>
          rw [ih]
          constructor
          · rintro ⟨es, hes, rfl⟩
            exact ⟨(k, tree) :: es, .cons ⟨rfl, hv⟩ hes, rfl⟩
          · rintro ⟨es, hes, rfl⟩
            obtain ⟨⟨k', tree'⟩, es', ⟨rfl, he⟩, hes', rfl⟩ := List.forall₂_cons_left_iff.mp hes
            rw [ReadsAs, hv] at he
            cases he
            exact ⟨es', hes', rfl⟩

/-- An object is read member by member, and the errors are sorted. -/
theorem ofJson?_object_iff {members : Entries Json} {e : ErrorTree} :
    ofJson? (.object members) = some e ↔
      ∃ es, Entries.Along ReadsAs members es ∧ nested (Entries.sorted es) = e := by
  rw [ofJson?, Option.map_eq_some_iff]
  constructor
  · rintro ⟨errors, h, rfl⟩
    obtain ⟨es, hes, rfl⟩ := ofMembers?_eq_some_iff.mp h
    exact ⟨es, hes, rfl⟩
  · rintro ⟨es, hes, rfl⟩
    exact ⟨_, ofMembers?_eq_some_iff.mpr ⟨es, hes, rfl⟩, rfl⟩

/-- An object is a tree if each of its members is. -/
theorem exists_ofJson?_object_iff {members : Entries Json} :
    (∃ e, ofJson? (.object members) = some e) ↔ ∀ m ∈ members, ∃ e, ofJson? m.2 = some e := by
  refine Iff.trans ?_ (Entries.exists_along_iff (R := ReadsAs))
  constructor
  · rintro ⟨e, he⟩
    obtain ⟨es, hes, -⟩ := ofJson?_object_iff.mp he
    exact ⟨es, hes⟩
  · rintro ⟨es, hes⟩
    exact ⟨_, ofJson?_object_iff.mpr ⟨es, hes, rfl⟩⟩

/-- A tree is read back from what it looks like. -/
theorem ofJson?_toJson {e : ErrorTree} (h : e.WellFormed) : ofJson? e.toJson = some e := by
  induction e using induct with
  | message text => rfl
  | nested errors ih =>
      obtain ⟨hkeys, hwf⟩ := wellFormed_nested.mp h
      rw [toJson_nested, ofJson?_object_iff]
      refine ⟨errors, ?_, by rw [hkeys.sorted_eq]⟩
      rw [Entries.Along, List.forall₂_map_left_iff, List.forall₂_same]
      exact fun e he => ⟨rfl, ih e he (hwf e he)⟩

/-! ## Writing a tree -/

/-- Errors that are serialized to a value are put into an object one after the other. -/
theorem serializeErrors_value {errors : ErrorMap}
    (h : ∀ e ∈ errors, e.2.serialize .value = e.2.toJson) (members : Entries Json) :
    serializeErrors .value members errors =
      Entries.putAll (errors.map fun e => (e.1, e.2.toJson)) members := by
  induction errors generalizing members with
  | nil => rfl
  | cons e rest ih =>
      rw [List.forall_mem_cons] at h
      rw [serializeErrors, h.1, ih h.2]
      rfl

/-- Written as a value, a tree is what it looks like. -/
theorem serialize_value {e : ErrorTree} (h : e.WellFormed) : e.serialize .value = e.toJson := by
  induction e using induct with
  | message text => rfl
  | nested errors ih =>
      obtain ⟨hkeys, hwf⟩ := wellFormed_nested.mp h
      rw [serialize, serializeErrors_value fun e he => ih e he (hwf e he), toJson_nested]
      -- the keys are all new, so each entry is appended
      have hnew : (Entries.keys ([] ++ errors.map fun e => (e.1, e.2.toJson))).Nodup := by
        rw [List.nil_append, keys_toMembers]
        exact hkeys.nodup
      exact congrArg Json.object (Entries.putAll_eq_append hnew)

/-- So many parts with commas between them, if there are any. -/
def commas : List String → Option String
  | [] => none
  | part :: parts => some (String.intercalate "," (part :: parts))

theorem getD_commas (parts : List String) :
    (commas parts).getD "" = String.intercalate "," parts := by
  cases parts with
  | nil => rfl
  | cons part rest => rfl

theorem compact_entry (parts : List String) (key text : String) :
    Target.compact.entry (commas parts) key text =
      commas (parts ++ [Json.quote key ++ ":" ++ text]) := by
  cases parts with
  | nil => exact congrArg some String.intercalate_singleton.symm
  | cons part rest =>
      rw [List.cons_append, commas, commas, ← List.cons_append,
        String.intercalate_append_of_ne_nil (List.cons_ne_nil _ _) (List.cons_ne_nil _ _),
        String.intercalate_singleton]
      rfl

/-- Errors that are serialized to a text are separated by commas. -/
theorem serializeErrors_compact {errors : ErrorMap}
    (h : ∀ e ∈ errors, e.2.serialize .compact = e.2.toJson.render) (parts : List String) :
    serializeErrors .compact (commas parts) errors =
      commas (parts ++ Json.renderMembers (toMembers errors)) := by
  induction errors generalizing parts with
  | nil => rw [toMembers, Json.renderMembers, List.append_nil, serializeErrors]
  | cons e rest ih =>
      rw [List.forall_mem_cons] at h
      rw [serializeErrors, h.1, compact_entry, ih h.2, toMembers, Json.renderMembers,
        List.append_assoc, List.singleton_append]

/-- Written as text, a tree is the text of what it looks like. -/
theorem serialize_compact (e : ErrorTree) : e.serialize .compact = e.toJson.render := by
  induction e using induct with
  | message text => rfl
  | nested errors ih =>
      rw [serialize, toJson, Json.render]
      have hparts := serializeErrors_compact ih []
      rw [List.nil_append] at hparts
      rw [← getD_commas, ← hparts]
      rfl

end ErrorTree

/-! ## What stands in a value -/

namespace Json

/-- A value stands in another: it is that value, or stands in an item or a member of it. -/
inductive Within : Json → Json → Prop
  | here (v : Json) : Within v v
  | item {v x : Json} {items : List Json} : x ∈ items → Within v x → Within v (array items)
  | member {v : Json} {m : String × Json} {members : Entries Json} :
      m ∈ members → Within v m.2 → Within v (object members)

theorem within_string {v : Json} {s : String} (h : Within v (string s)) : v = string s := by
  cases h
  rfl

/-- What is within an object is the object or within one of its members. -/
theorem within_object_iff {v : Json} {members : Entries Json} :
    Within v (object members) ↔ v = object members ∨ ∃ m ∈ members, Within v m.2 := by
  constructor
  · intro h
    cases h with
    | here => exact .inl rfl
    | member hm hv => exact .inr ⟨_, hm, hv⟩
  · rintro (rfl | ⟨m, hm, hv⟩)
    · exact .here _
    · exact .member hm hv

end Json

namespace ErrorTree

/-- A value is read if nothing stands in it but texts and objects. -/
theorem exists_ofJson?_iff {j : Json} :
    (∃ e, ofJson? j = some e) ↔
      ∀ v, Json.Within v j → v.kind = "string" ∨ v.kind = "object" := by
  -- a value of another kind is not read, and stands in itself
  have hother : ∀ x : Json, ofJson? x = none → ¬ (x.kind = "string" ∨ x.kind = "object") →
      ((∃ e, ofJson? x = some e) ↔
        ∀ v, Json.Within v x → v.kind = "string" ∨ v.kind = "object") := by
    intro x hnone hkind
    constructor
    · rintro ⟨e, he⟩
      rw [hnone] at he
      cases he
    · intro h
      exact absurd (h x (.here x)) hkind
  induction j using Json.induct with
  | null => exact hother _ rfl (by decide)
  | bool b => exact hother _ rfl (by simp [Json.kind])
  | number n => exact hother _ rfl (by simp [Json.kind])
  | array xs => exact hother _ rfl (by simp [Json.kind])
  | string s =>
      refine ⟨fun _ v hv => ?_, fun _ => ⟨message s, rfl⟩⟩
      rw [Json.within_string hv]
      exact .inl rfl
  | object members ih =>
      rw [exists_ofJson?_object_iff]
      constructor
      · intro h v hv
        rcases Json.within_object_iff.mp hv with rfl | ⟨m, hm, hvm⟩
        · exact .inr rfl
        · exact (ih m hm).mp (h m hm) v hvm
      · intro h m hm
        exact (ih m hm).mpr fun v hv => h v (.member hm hv)

/-- What is read is well-formed. -/
theorem wellFormed_of_ofJson? {j : Json} {e : ErrorTree} (h : ofJson? j = some e) :
    e.WellFormed := by
  induction j using Json.induct generalizing e with
  | null => cases h
  | bool b => cases h
  | number n => cases h
  | array xs => cases h
  | string s =>
      cases h
      trivial
  | object members ih =>
      obtain ⟨es, hes, rfl⟩ := ofJson?_object_iff.mp h
      rw [wellFormed_nested]
      refine ⟨Entries.ascending_sorted es, ?_⟩
      intro e he
      obtain ⟨m, hm, -, hme⟩ := exists_mem_of_forall₂ hes (Entries.mem_of_mem_sorted he)
      exact ih m hm hme

/-- What is read looks like the value but for the order of members. -/
theorem reorders_of_ofJson? {j : Json} {e : ErrorTree} (hj : j.WellFormed)
    (h : ofJson? j = some e) : Json.Reorders j e.toJson := by
  induction j using Json.induct generalizing e with
  | null => cases h
  | bool b => cases h
  | number n => cases h
  | array xs => cases h
  | string s =>
      cases h
      exact .string s
  | object members ih =>
      obtain ⟨hd, hwf⟩ := Json.wellFormed_object.mp hj
      obtain ⟨es, hes, rfl⟩ := ofJson?_object_iff.mp h
      have hdes : (Entries.keys es).Nodup := hes.keys_eq ▸ hd
      rw [toJson_nested, Json.reorders_object_iff hd
        (keys_toMembers (Entries.sorted es) ▸ (Entries.ascending_sorted es).nodup)]
      intro key
      rw [Entries.get?_map (fun _ => toJson), Entries.get?_sorted,
        ← Entries.get?_eq_of_perm es.reverse_perm.symm hdes]
      have hkey := hes.get? key
      have hmember : ∀ v ∈ Entries.get? key members, ∀ e, ReadsAs v e →
          Json.Reorders v e.toJson := by
        intro v hv e he
        have hm := Entries.mem_of_get? hv
        exact ih _ hm (hwf _ hm) he
      generalize Entries.get? key members = found at hkey hmember ⊢
      generalize Entries.get? key es = error at hkey ⊢
      cases hkey with
      | none => exact .none
      | some he => exact .some (hmember _ rfl _ he)

/-- The keys of a tree ascend in what it looks like. -/
theorem ascending_of_within_toJson {e : ErrorTree} (h : e.WellFormed) {members : Entries Json}
    (hin : Json.Within (.object members) e.toJson) : Entries.Ascending members := by
  induction e using induct with
  | message text => cases hin
  | nested errors ih =>
      obtain ⟨hkeys, hwf⟩ := wellFormed_nested.mp h
      rw [toJson_nested, Json.within_object_iff] at hin
      rcases hin with hself | ⟨m, hm, hv⟩
      · cases hself
        rw [Entries.Ascending, keys_toMembers]
        exact hkeys
      · obtain ⟨e, he, rfl⟩ := List.mem_map.mp hm
        exact ih e he (hwf e he) hv

/-- A tree survives being written and read. A value that is read comes back with sorted keys. -/
theorem survives_json :
    (∀ e : ErrorTree, e.WellFormed →
      ofJson? (e.serialize .value) = some e ∧ e.serialize .value = e.toJson ∧
        e.serialize .compact = e.toJson.render) ∧
      ∀ j : Json,
        ((∃ e, ofJson? j = some e) ↔
          ∀ v, Json.Within v j → v.kind = "string" ∨ v.kind = "object") ∧
        ∀ e, j.WellFormed → ofJson? j = some e →
          e.WellFormed ∧ Json.Reorders j e.toJson ∧
            ∀ members, Json.Within (.object members) e.toJson → Entries.Ascending members := by
  constructor
  · intro e he
    have hvalue := serialize_value he
    exact ⟨by rw [hvalue, ofJson?_toJson he], hvalue, serialize_compact e⟩
  · intro j
    refine ⟨exists_ofJson?_iff, ?_⟩
    intro e hj he
    have hwf := wellFormed_of_ofJson? he
    exact ⟨hwf, reorders_of_ofJson? hj he, fun _ => ascending_of_within_toJson hwf⟩

/-- A body with two wrong members, one of them without a word on what is wrong. -/
def wrongBody : ErrorTree :=
  .nested [("body", .nested [("id", .message "required property"), ("tags", .nested [])])]

/-- The same as a value, with the members of the body the other way round. -/
def wrongBodyJson : Json :=
  .object [("body", .object [("tags", .object []), ("id", .string "required property")])]

theorem wrongBody_survives_json :
    (wrongBody.WellFormed ∧ ofJson? (wrongBody.serialize .value) = some wrongBody ∧
      wrongBody.serialize .compact = wrongBody.toJson.render) ∧
      wrongBodyJson.WellFormed ∧ ofJson? wrongBodyJson = some wrongBody ∧
        Json.Reorders wrongBodyJson wrongBody.toJson := by
  have hjson : wrongBodyJson.WellFormed := by
    simp [wrongBodyJson, Json.WellFormed, Json.WellFormedMembers, Entries.keys]
  have hread : ofJson? wrongBodyJson = some wrongBody := by cbv
  have hwf : wrongBody.WellFormed := wellFormed_of_ofJson? hread
  have htree := survives_json.1 wrongBody hwf
  exact ⟨⟨hwf, htree.1, htree.2.2⟩, hjson, hread,
    ((survives_json.2 wrongBodyJson).2 wrongBody hjson hread).2.1⟩

end ErrorTree

end SchemaGate
