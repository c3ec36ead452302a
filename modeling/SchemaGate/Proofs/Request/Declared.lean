import Mathlib.Data.List.Nodup
import SchemaGate.Proofs.Json.Equality
import SchemaGate.Proofs.Yaml.DistinctKeys
import SchemaGate.Request.Document

/-!
# Declared operations

What a document declares (`Document.Declares`) against the list of its operations: the list has
every declared operation, nothing else, and none twice (`Document.mem_operations_iff`), by path and
then by method (`Document.pairwise_operations`).

Both need paths and methods that no object repeats. The document of a text has no others
(`Document.distinct_of_ofText`).
-/

namespace SchemaGate

namespace OperationRef

/-- The path goes before, or is the same and the method goes before. -/
def Precedes (a b : OperationRef) : Prop :=
  a.path < b.path ∨ (a.path = b.path ∧ a.method < b.method)

theorem before_iff {a b : OperationRef} : before a b = true ↔ a.Precedes b ∨ a = b := by
  obtain ⟨path, method⟩ := a
  obtain ⟨path', method'⟩ := b
  simp only [before, Precedes, Bool.or_eq_true, Bool.and_eq_true, decide_eq_true_eq, beq_iff_eq,
    OperationRef.mk.injEq]
  tauto

theorem Precedes.trans {a b c : OperationRef} (h : a.Precedes b) (h' : b.Precedes c) :
    a.Precedes c := by
  rcases h with hpath | ⟨hpath, hmethod⟩
  · rcases h' with hpath' | ⟨hpath', -⟩
    · exact .inl (String.lt_trans hpath hpath')
    · exact .inl (hpath' ▸ hpath)
  · rcases h' with hpath' | ⟨hpath', hmethod'⟩
    · exact .inl (hpath ▸ hpath')
    · exact .inr ⟨hpath.trans hpath', String.lt_trans hmethod hmethod'⟩

/-- No operation goes before itself. -/
theorem Precedes.irrefl (a : OperationRef) : ¬ a.Precedes a := by
  rintro (hpath | ⟨-, hmethod⟩)
  · exact String.lt_irrefl _ hpath
  · exact String.lt_irrefl _ hmethod

theorem before_trans (a b c : OperationRef) (h : before a b = true) (h' : before b c = true) :
    before a c = true := by
  rw [before_iff] at h h' ⊢
  rcases h with h | rfl
  · rcases h' with h' | rfl
    · exact .inl (h.trans h')
    · exact .inl h
  · exact h'

/-- Two operations can always be put in order. -/
theorem before_total (a b : OperationRef) : (before a b || before b a) = true := by
  have hcompare : ∀ s t : String, s < t ∨ s = t ∨ t < s := by
    intro s t
    by_cases hlt : s < t
    · exact .inl hlt
    · by_cases hgt : t < s
      · exact .inr (.inr hgt)
      · exact .inr (.inl (String.le_antisymm (String.not_lt.mp hgt) (String.not_lt.mp hlt)))
  rw [Bool.or_eq_true, before_iff, before_iff]
  obtain ⟨path, method⟩ := a
  obtain ⟨path', method'⟩ := b
  rcases hcompare path path' with hpath | rfl | hpath
  · exact .inl (.inl (.inl hpath))
  · rcases hcompare method method' with hmethod | rfl | hmethod
    · exact .inl (.inl (.inr ⟨rfl, hmethod⟩))
    · exact .inl (.inr rfl)
    · exact .inr (.inl (.inr ⟨rfl, hmethod⟩))
  · exact .inr (.inl (.inl hpath))

end OperationRef

namespace Document

/-- A path of the document has an object that has a member under the name of the method. -/
def Declares (d : Document) (ref : OperationRef) : Prop :=
  ref.method ∈ httpMethods ∧
    ∃ members, d.pathItem? ref.path = some members ∧ ref.method ∈ Entries.keys members

/-- No path of the document repeats, and neither does a key below the paths. -/
def Distinct (d : Document) : Prop := (Json.object d.paths).WellFormed

variable {d : Document} {ref : OperationRef}

/-- The operations of a path are those of its methods, and it has some only if it is an object. -/
theorem mem_methodsOf_iff {path : String} {item : Json} :
    ref ∈ methodsOf path item ↔ ref.path = path ∧ ref.method ∈ httpMethods ∧
      ∃ members, item = .object members ∧ ref.method ∈ Entries.keys members := by
  cases item with
  | object members =>
      rw [methodsOf, List.mem_map]
      simp only [List.mem_filter, List.contains_iff_mem]
      constructor
      · rintro ⟨method, ⟨hkey, hmethod⟩, rfl⟩
        exact ⟨rfl, hmethod, members, rfl, hkey⟩
      · rintro ⟨rfl, hmethod, members', hmembers, hkey⟩
        cases hmembers
        exact ⟨ref.method, ⟨hkey, hmethod⟩, rfl⟩
  | _ =>
      simp [methodsOf]

/-- The operations are those that are declared. -/
theorem mem_operations_iff (hd : d.Distinct) : ref ∈ d.operations ↔ d.Declares ref := by
  obtain ⟨hpaths, -⟩ := Json.wellFormed_object.mp hd
  rw [operations, List.mem_mergeSort, List.mem_flatMap]
  constructor
  · rintro ⟨⟨path, item⟩, hitem, href⟩
    obtain ⟨rfl, hmethod, members, rfl, hkey⟩ := mem_methodsOf_iff.mp href
    have hget := (Entries.get?_eq_some_iff hpaths).mpr hitem
    exact ⟨hmethod, members, by simp [pathItem?, hget, Json.object?], hkey⟩
  · rintro ⟨hmethod, members, hmembers, hkey⟩
    obtain ⟨item, hget, hobject⟩ := Option.bind_eq_some_iff.mp hmembers
    cases item with
    | object ms =>
        cases hobject
        exact ⟨_, Entries.mem_of_get? hget, mem_methodsOf_iff.mpr ⟨rfl, hmethod, _, rfl, hkey⟩⟩
    | _ => cases hobject

/-- No method of a path is listed twice. -/
theorem nodup_methodsOf {path : String} {item : Json} (h : item.WellFormed) :
    (methodsOf path item).Nodup := by
  cases item with
  | object members =>
      have hkeys := (Json.wellFormed_object.mp h).1
      refine (hkeys.filter _).map ?_
      intro method method' heq
      cases heq
      rfl
  | _ => exact List.nodup_nil

/-- No operation is listed twice. -/
theorem nodup_operations (hd : d.Distinct) : d.operations.Nodup := by
  obtain ⟨hpaths, hitems⟩ := Json.wellFormed_object.mp hd
  rw [operations, (List.mergeSort_perm _ _).nodup_iff, List.nodup_flatMap]
  refine ⟨fun e he => nodup_methodsOf (hitems e he), ?_⟩
  -- what two paths declare differs in the path
  refine (List.pairwise_map.mp hpaths).imp ?_
  intro e e' hne ref href href'
  exact hne ((mem_methodsOf_iff.mp href).1.symm.trans (mem_methodsOf_iff.mp href').1)

/-- The operations are listed by path and then by method, none of them twice. -/
theorem pairwise_operations (hd : d.Distinct) :
    d.operations.Pairwise OperationRef.Precedes := by
  have hsorted : d.operations.Pairwise fun a b => OperationRef.before a b = true :=
    List.pairwise_mergeSort OperationRef.before_trans OperationRef.before_total _
  refine (hsorted.and (nodup_operations hd)).imp ?_
  rintro a b ⟨hbefore, hne⟩
  exact (OperationRef.before_iff.mp hbefore).resolve_right hne

/-! ## Documents of texts -/

/-- A value in which no key repeats is a document whose paths and methods do not. -/
theorem distinct_of_ofJson {v : Json} (hv : v.WellFormed) (h : ofJson v = .ok d) :
    d.Distinct := by
  unfold ofJson at h
  split at h
  · rename_i root
    obtain ⟨-, hvalues⟩ := Json.wellFormed_object.mp hv
    split at h
    · cases h
    · rename_i paths hpaths
      obtain ⟨item, hget, hobject⟩ := Option.bind_eq_some_iff.mp hpaths
      have hitem : item.WellFormed := hvalues _ (Entries.mem_of_get? hget)
      have hdistinct : (Json.object paths).WellFormed := by
        cases item with
        | object ms =>
            cases hobject
            exact hitem
        | _ => cases hobject
      split at h
      · cases h
        exact hdistinct
      · rename_i c _
        cases hc : Components.ofJson c with
        | error e =>
            rw [hc] at h
            cases h
        | ok components =>
            rw [hc] at h
            cases h
            exact hdistinct
  · cases h

theorem distinct_of_ofText {text : String} (h : ofText text = .ok d) : d.Distinct := by
  unfold ofText at h
  split at h
  · rename_i v hv
    exact distinct_of_ofJson (Json.wellFormed_of_ofYaml? hv) h
  · cases h

end Document

end SchemaGate
