import Mathlib.Data.List.Forall2
import Mathlib.Data.List.Perm.Subperm
import SchemaGate.Field
import SchemaGate.Proofs.Entries

/-!
# Equality of values

`Json.same` looks past the order of members. On values in which no object repeats a key it is an
equivalence:

* `Json.same_iff` says what is equal to a value of each kind, and the other proofs go by that;
* `Json.same_iff_equals` says what equality is without the comparison (`Json.Equals`);
* `Json.same_refl` and `Json.same_symm` need distinct keys, `Json.same_trans` does not;
* `Json.same_object` builds the equality of two objects from look-up alone;
* `Field.Same` carries it over to inputs and outputs of validators.

`Json.induct` is induction over a value through its items and members.
-/

namespace SchemaGate

namespace Json

/-- Induction over the items of arrays and the members of objects. -/
theorem induct {P : Json → Prop} (null : P .null) (bool : ∀ b, P (.bool b))
    (number : ∀ n, P (.number n)) (string : ∀ s, P (.string s))
    (array : ∀ xs : List Json, (∀ x ∈ xs, P x) → P (.array xs))
    (object : ∀ ms : Entries Json, (∀ m ∈ ms, P m.2) → P (.object ms)) (v : Json) : P v := by
  refine @Json.rec P (fun xs => ∀ x ∈ xs, P x) (fun ms => ∀ m ∈ ms, P m.2) (fun m => P m.2)
    null bool number string array object ?_ ?_ ?_ ?_ (fun _ _ h => h) v
  · exact fun x hx => absurd hx List.not_mem_nil
  · intro x xs hx hxs y hy
    rcases List.mem_cons.mp hy with rfl | hy
    · exact hx
    · exact hxs y hy
  · exact fun m hm => absurd hm List.not_mem_nil
  · intro m ms hm hms n hn
    rcases List.mem_cons.mp hn with rfl | hn
    · exact hm
    · exact hms n hn

/-! ## Well-formed values -/

theorem wellFormedItems_iff {xs : List Json} :
    WellFormedItems xs ↔ ∀ x ∈ xs, x.WellFormed := by
  induction xs with
  | nil => simp [WellFormedItems]
  | cons x rest ih => simp [WellFormedItems, ih]

theorem wellFormedMembers_iff {ms : Entries Json} :
    WellFormedMembers ms ↔ ∀ m ∈ ms, m.2.WellFormed := by
  induction ms with
  | nil => simp [WellFormedMembers]
  | cons m rest ih =>
      obtain ⟨k, x⟩ := m
      simp [WellFormedMembers, ih]

theorem wellFormed_array {xs : List Json} :
    (array xs).WellFormed ↔ ∀ x ∈ xs, x.WellFormed := by
  rw [WellFormed, wellFormedItems_iff]

theorem wellFormed_object {ms : Entries Json} :
    (object ms).WellFormed ↔ (Entries.keys ms).Nodup ∧ ∀ m ∈ ms, m.2.WellFormed := by
  rw [WellFormed, wellFormedMembers_iff]

theorem wellFormed_of_get? {members : Entries Json} (h : (object members).WellFormed)
    {key : String} {v : Json} (hv : Entries.get? key members = some v) : v.WellFormed :=
  (wellFormed_object.mp h).2 _ (Entries.mem_of_get? hv)

theorem wellFormed_of_member? {x v : Json} (hx : x.WellFormed) {key : String}
    (hv : x.member? key = some v) : v.WellFormed := by
  obtain ⟨members, hmembers, hget⟩ := Option.bind_eq_some_iff.mp hv
  cases x with
  | object ms =>
      cases hmembers
      exact wellFormed_of_get? hx hget
  | _ => cases hmembers

/-! ## Comparison of items and of members -/

theorem sameItems_iff {xs ys : List Json} :
    sameItems xs ys = true ↔ List.Forall₂ (fun x y => same x y = true) xs ys := by
  induction xs generalizing ys with
  | nil => cases ys <;> simp [sameItems]
  | cons x xs ih =>
      cases ys with
      | nil => simp [sameItems]
      | cons y ys => simp [sameItems, ih]

/-- Each member has one that is the same under its name. -/
theorem sameMembers_iff {xs ys : Entries Json} :
    sameMembers xs ys = true ↔
      ∀ m ∈ xs, ∃ y, Entries.get? m.1 ys = some y ∧ same m.2 y = true := by
  induction xs with
  | nil => simp [sameMembers]
  | cons m rest ih =>
      obtain ⟨k, x⟩ := m
      simp only [sameMembers, Bool.and_eq_true, ih, List.forall_mem_cons]
      cases Entries.get? k ys <;> simp

/-! ## What is equal -/

/-- Two values are of one kind, and equal in what they are made of. -/
inductive Alike : Json → Json → Prop
  | null : Alike null null
  | bool (b : Bool) : Alike (bool b) (bool b)
  | number {n k : Number} : n.same k = true → Alike (number n) (number k)
  | string (s : String) : Alike (string s) (string s)
  | array {xs ys : List Json} : List.Forall₂ (fun x y => same x y = true) xs ys →
      Alike (array xs) (array ys)
  | object {xs ys : Entries Json} : xs.length = ys.length →
      (∀ m ∈ xs, ∃ y, Entries.get? m.1 ys = some y ∧ same m.2 y = true) →
      Alike (object xs) (object ys)

/-- The comparison finds out whether two values are alike. -/
theorem same_iff {x y : Json} : same x y = true ↔ Alike x y := by
  constructor
  · intro h
    cases x <;> cases y <;> simp [same, sameItems_iff, sameMembers_iff] at h
    case null.null => exact .null
    case bool.bool b c => exact h ▸ .bool b
    case number.number n k => exact .number h
    case string.string s t => exact h ▸ .string s
    case array.array xs ys => exact .array h
    case object.object xs ys => exact .object h.1 fun m hm => h.2 m.1 m.2 hm
  · intro h
    cases h with
    | null => rfl
    | bool b => simp [same]
    | number h => simp [same, h]
    | string s => simp [same]
    | array h => simpa [same, sameItems_iff] using h
    | object hlen hys => simpa [same, sameMembers_iff, hlen] using fun k x => hys (k, x)

/-- Two values are equal: items by their places and members by their keys. An integer is no
floating-point number, and the two floating-point zeros are one. -/
inductive Equals : Json → Json → Prop
  | null : Equals null null
  | bool (b : Bool) : Equals (bool b) (bool b)
  | int (n : WideInt) : Equals (number (.int n)) (number (.int n))
  | float {x y : Binary64} : x.key = y.key → Equals (number (.float x)) (number (.float y))
  | string (s : String) : Equals (string s) (string s)
  | array {xs ys : List Json} : List.Forall₂ Equals xs ys → Equals (array xs) (array ys)
  | object {xs ys : Entries Json} : xs.length = ys.length →
      (∀ key ∈ Entries.keys xs, key ∈ Entries.keys ys) →
      (∀ key x y, (key, x) ∈ xs → Entries.get? key ys = some y → Equals x y) →
      Equals (object xs) (object ys)

/-- Numbers are equal if the comparison says so. -/
theorem number_equals_iff {n k : Number} : Equals (number n) (number k) ↔ n.same k = true := by
  constructor
  · intro h
    cases h with
    | int n => simp [Number.same]
    | float h => simp [Number.same, Binary64.same, h]
  · intro h
    cases n <;> cases k <;> simp [Number.same, Binary64.same] at h
    case int.int n k =>
      obtain ⟨n, hl, hu⟩ := n
      cases h
      exact .int _
    case float.float x y => exact .float h

/-- The comparison decides equality. -/
theorem same_iff_equals {x y : Json} : same x y = true ↔ Equals x y := by
  induction x using induct generalizing y with
  | null =>
      constructor
      · intro h
        cases same_iff.mp h
        exact .null
      · intro h
        cases h
        rfl
  | bool b =>
      constructor
      · intro h
        cases same_iff.mp h
        exact .bool b
      · intro h
        cases h
        exact same_iff.mpr (.bool b)
  | string s =>
      constructor
      · intro h
        cases same_iff.mp h
        exact .string s
      · intro h
        cases h
        exact same_iff.mpr (.string s)
  | number n =>
      constructor
      · intro h
        cases same_iff.mp h with
        | number hsame => exact number_equals_iff.mpr hsame
      · intro h
        cases h with
        | int n => exact same_iff.mpr (.number (number_equals_iff.mp (.int n)))
        | float hkey => exact same_iff.mpr (.number (number_equals_iff.mp (.float hkey)))
  | array xs ih =>
      have hitems : ∀ x ∈ xs, ∀ y, same x y = true ↔ Equals x y := fun x hx y => ih x hx
      constructor
      · intro h
        cases same_iff.mp h with
        | @array _ ys hys =>
          have hcarried := (List.forall₂_and_left xs ys).mpr ⟨hitems, hys⟩
          exact .array (hcarried.imp fun x y hxy => (hxy.1 y).mp hxy.2)
      · intro h
        cases h with
        | @array _ ys hys =>
          have hcarried := (List.forall₂_and_left xs ys).mpr ⟨hitems, hys⟩
          exact same_iff.mpr (.array (hcarried.imp fun x y hxy => (hxy.1 y).mpr hxy.2))
  | object xs ih =>
      constructor
      · intro h
        cases same_iff.mp h with
        | object hlen hys =>
          refine .object hlen (fun key hkey => ?_) fun key x y hx hy => ?_
          · obtain ⟨x, hx⟩ := Entries.exists_of_mem_keys hkey
            obtain ⟨y, hy, -⟩ := hys _ hx
            exact Entries.mem_keys_of_mem (Entries.mem_of_get? hy)
          · obtain ⟨y', hy', hsame⟩ := hys _ hx
            cases hy.symm.trans hy'
            exact (ih _ hx).mp hsame
      · intro h
        cases h with
        | object hlen hkeys hvalues =>
          refine same_iff.mpr (.object hlen fun m hm => ?_)
          obtain ⟨y, hy⟩ := Entries.exists_get?_of_mem_keys
            (hkeys _ (Entries.mem_keys_of_mem (v := m.2) hm))
          exact ⟨y, hy, (ih m hm).mpr (hvalues _ _ y hm hy)⟩

end Json

namespace Number

theorem same_refl (n : Number) : n.same n = true := by
  cases n <;> simp [same, Binary64.same]

theorem same_symm {n k : Number} (h : n.same k = true) : k.same n = true := by
  cases n <;> cases k <;> simp_all [same, Binary64.same]

theorem same_trans {n k m : Number} (h : n.same k = true) (h' : k.same m = true) :
    n.same m = true := by
  cases n <;> cases k <;> cases m <;> simp_all [same, Binary64.same]

end Number

namespace Json

/-! ## An equivalence -/

/-- A value in which no key repeats is the same as itself. -/
theorem same_refl {x : Json} (hx : x.WellFormed) : same x x = true := by
  rw [same_iff]
  induction x using induct with
  | null => exact .null
  | bool b => exact .bool b
  | number n => exact .number n.same_refl
  | string s => exact .string s
  | array xs ih =>
      rw [wellFormed_array] at hx
      refine .array (List.forall₂_same.mpr fun x hm => ?_)
      exact same_iff.mpr (ih x hm (hx x hm))
  | object ms ih =>
      rw [wellFormed_object] at hx
      refine .object rfl fun m hm => ?_
      exact ⟨m.2, (Entries.get?_eq_some_iff hx.1).mpr hm, same_iff.mpr (ih m hm (hx.2 m hm))⟩

/-- What is the same as the same value is the same. Keys may repeat in all three. -/
theorem same_trans {x y z : Json} (hxy : same x y = true) (hyz : same y z = true) :
    same x z = true := by
  induction x using induct generalizing y z with
  | null =>
      cases same_iff.mp hxy
      exact hyz
  | bool b =>
      cases same_iff.mp hxy
      exact hyz
  | string s =>
      cases same_iff.mp hxy
      exact hyz
  | number n =>
      cases same_iff.mp hxy with
      | number hk =>
        cases same_iff.mp hyz with
        | number hm => exact same_iff.mpr (.number (Number.same_trans hk hm))
  | array xs ih =>
      cases same_iff.mp hxy with
      | @array _ ys hys =>
        cases same_iff.mp hyz with
        | @array _ zs hzs =>
          refine same_iff.mpr (.array ?_)
          -- along the pairs of items; the induction on values stays for the items themselves
          clear hxy hyz
          induction hys generalizing zs with
          | nil => exact hzs
          | cons h hs ihs =>
              obtain ⟨z, zs', hz, hzs', rfl⟩ := List.forall₂_cons_left_iff.mp hzs
              refine .cons (ih _ List.mem_cons_self h hz) (ihs ?_ hzs')
              exact fun x hx => ih x (List.mem_cons_of_mem _ hx)
  | object xs ih =>
      cases same_iff.mp hxy with
      | object hlen hys =>
        cases same_iff.mp hyz with
        | object hlen' hzs =>
          refine same_iff.mpr (.object (hlen.trans hlen') fun m hm => ?_)
          obtain ⟨y, hy, hsame⟩ := hys m hm
          obtain ⟨z, hz, hsame'⟩ := hzs _ (Entries.mem_of_get? hy)
          exact ⟨z, hz, ih m hm hsame hsame'⟩

/-- The keys of an object are those of each object that it equals. -/
theorem keys_perm_of_same {xs ys : Entries Json} (hd : (Entries.keys xs).Nodup)
    (h : same (object xs) (object ys) = true) : (Entries.keys xs).Perm (Entries.keys ys) := by
  cases same_iff.mp h with
  | object hlen hys =>
    have hsub : Entries.keys xs ⊆ Entries.keys ys := by
      intro k hk
      obtain ⟨x, hx⟩ := Entries.exists_of_mem_keys hk
      obtain ⟨y, hy, -⟩ := hys _ hx
      exact Entries.mem_keys_of_mem (Entries.mem_of_get? hy)
    refine (List.subperm_of_subset hd hsub).perm_of_length_le ?_
    simp [Entries.keys, hlen]

/-- Sameness goes both ways where no key repeats: then the members are as many on both sides. -/
theorem same_symm {x y : Json} (hx : x.WellFormed) (h : same x y = true) :
    same y x = true := by
  induction x using induct generalizing y with
  | null =>
      cases same_iff.mp h
      exact h
  | bool b =>
      cases same_iff.mp h
      exact h
  | string s =>
      cases same_iff.mp h
      exact h
  | number n =>
      cases same_iff.mp h with
      | number hk => exact same_iff.mpr (.number (Number.same_symm hk))
  | array xs ih =>
      rw [wellFormed_array] at hx
      cases same_iff.mp h with
      | @array _ ys hys =>
        have hitems : ∀ x ∈ xs, ∀ y, same x y = true → same y x = true :=
          fun x hm y => ih x hm (hx x hm)
        have hcarried := (List.forall₂_and_left xs ys).mpr ⟨hitems, hys⟩
        refine same_iff.mpr (.array (List.Forall₂.flip (hcarried.imp ?_)))
        exact fun x y hxy => hxy.1 y hxy.2
  | object xs ih =>
      rw [wellFormed_object] at hx
      cases same_iff.mp h with
      | @object _ ys hlen hys =>
        have hperm := keys_perm_of_same hx.1 h
        have hd : (Entries.keys ys).Nodup := hperm.nodup_iff.mp hx.1
        refine same_iff.mpr (.object hlen.symm fun m hm => ?_)
        obtain ⟨x, hxm⟩ := Entries.exists_of_mem_keys
          (hperm.mem_iff.mpr (Entries.mem_keys_of_mem (v := m.2) hm))
        -- the partner of this member is the member that we started from
        obtain ⟨y, hy, hsame⟩ := hys _ hxm
        rw [(Entries.get?_eq_some_iff hd).mpr hm] at hy
        cases hy
        exact ⟨x, (Entries.get?_eq_some_iff hx.1).mpr hxm, ih _ hxm (hx.2 _ hxm) hsame⟩

/-- Objects without repeated keys are equal as soon as look-up finds equal values in both. -/
theorem same_object {xs ys : Entries Json} (hx : (Entries.keys xs).Nodup)
    (hy : (Entries.keys ys).Nodup)
    (h : ∀ k, Option.Rel (fun x y => same x y = true) (Entries.get? k xs) (Entries.get? k ys)) :
    same (object xs) (object ys) = true := by
  have hkeys : ∀ k, (Entries.get? k xs).isSome = (Entries.get? k ys).isSome := by
    intro k
    have hk := h k
    revert hk
    cases Entries.get? k xs <;> cases Entries.get? k ys <;> simp
  -- equal objects must be equally long, which only the keys can tell
  have hlen := (Entries.keys_perm_of_isSome hx hy hkeys).length_eq
  refine same_iff.mpr (.object (by simpa [Entries.keys] using hlen) fun m hm => ?_)
  have hm' := h m.1
  rw [(Entries.get?_eq_some_iff hx).mpr hm] at hm'
  generalize Entries.get? m.1 ys = found at hm' ⊢
  cases hm' with
  | some hsame => exact ⟨_, rfl, hsame⟩

end Json

namespace Field

/-- The same state, with equal values. -/
inductive Same : Field → Field → Prop
  | absent : Same .absent .absent
  | null : Same .null .null
  | value {x y : Json} : Json.same x y = true → Same (.value x) (.value y)
  | binary (payload : Utf8.Octets) : Same (.binary payload) (.binary payload)

/-- No object in the input has two members under one key. -/
def WellFormed : Field → Prop
  | value v => v.WellFormed
  | _ => True

theorem wellFormed_ofJson {v : Json} (h : v.WellFormed) : (ofJson v).WellFormed := by
  cases v <;> exact h

theorem Same.refl {f : Field} (h : f.WellFormed) : Same f f := by
  cases f with
  | absent => exact .absent
  | null => exact .null
  | value v => exact .value (Json.same_refl h)
  | binary payload => exact .binary payload

/-- Inputs that are the same stand for equal values. -/
theorem Same.toJson? {f g : Field} (h : Same f g) :
    Option.Rel (fun x y => Json.same x y = true) f.toJson? g.toJson? := by
  cases h with
  | absent => exact .none
  | null => exact .some rfl
  | value hsame => exact .some hsame
  | binary payload => exact .some (by simp [Json.same])

end Field

end SchemaGate
