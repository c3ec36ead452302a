import SchemaGate.Proofs.Json.Equality
import SchemaGate.Proofs.Lists

/-!
# Reordering members

Two values that differ only in the order of members, at any depth (`Json.Reorders`). That is less
than equality, which besides takes the two floating-point zeros for one number
(`Json.Reorders.same`).

Tables are compared by look-up: they match if it finds related values under the same keys
(`Entries.Matches`). On tables without repeated keys this is the same as to have the keys in
another order and related values under each of them (`Json.reorders_object_iff`), and it can be
shown name by name.

`Field.Reorders` is the same relation for inputs and outputs of validators.
-/

namespace SchemaGate

/-! ## Tables -/

namespace Entries

variable {α β : Type} {R : α → β → Prop}

/-- Look-up finds related values in both tables, or nothing in either. -/
def Matches (R : α → β → Prop) (es : Entries α) (fs : Entries β) : Prop :=
  ∀ k, Option.Rel R (get? k es) (get? k fs)

/-- What holds of nothing in both tables, and of related values, holds of what look-up finds. -/
@[elab_as_elim]
theorem Matches.elim {motive : Option α → Option β → Prop} {es : Entries α} {fs : Entries β}
    (h : Matches R es fs) (key : String) (hnone : motive none none)
    (hsome : ∀ x y, R x y → motive (some x) (some y)) : motive (get? key es) (get? key fs) := by
  have hkey := h key
  generalize get? key es = x at hkey ⊢
  generalize get? key fs = y at hkey ⊢
  cases hkey with
  | none => exact hnone
  | some hxy => exact hsome _ _ hxy

theorem Matches.isSome_eq {es : Entries α} {fs : Entries β} (h : Matches R es fs) (k : String) :
    (get? k es).isSome = (get? k fs).isSome :=
  isSome_eq_of_rel (h k)

theorem Matches.has_eq {es : Entries α} {fs : Entries β} (h : Matches R es fs) (k : String) :
    has k es = has k fs := h.isSome_eq k

theorem Matches.length_eq {es : Entries α} {fs : Entries β} (h : Matches R es fs)
    (he : (keys es).Nodup) (hf : (keys fs).Nodup) : es.length = fs.length := by
  have hperm := keys_perm_of_isSome he hf h.isSome_eq
  simpa [keys] using hperm.length_eq

theorem Matches.symm {es : Entries α} {fs : Entries β} (h : Matches R es fs) :
    Matches (fun y x => R x y) fs es :=
  fun key => h.elim key .none fun _ _ hxy => .some hxy

/-- Every entry has a partner in the other table. -/
theorem Matches.exists_right {es : Entries α} {fs : Entries β} (h : Matches R es fs)
    (he : (keys es).Nodup) {e : String × α} (hmem : e ∈ es) : ∃ y, (e.1, y) ∈ fs ∧ R e.2 y := by
  have hkey := h e.1
  rw [(get?_eq_some_iff he).mpr hmem] at hkey
  generalize hfound : get? e.1 fs = found at hkey
  cases hkey with
  | some hxy => exact ⟨_, mem_of_get? hfound, hxy⟩

theorem Matches.exists_left {es : Entries α} {fs : Entries β} (h : Matches R es fs)
    (hf : (keys fs).Nodup) {f : String × β} (hmem : f ∈ fs) : ∃ x, (f.1, x) ∈ es ∧ R x f.2 :=
  h.symm.exists_right hf hmem

/-- Sorting tables that match makes them match entry by entry. -/
theorem Matches.sorted {es : Entries α} {fs : Entries β} (h : Matches R es fs)
    (he : (keys es).Nodup) (hf : (keys fs).Nodup) : Along R (sorted es) (sorted fs) := by
  refine (ascending_sorted es).along (ascending_sorted fs) fun key => ?_
  rw [get?_sorted, get?_sorted, ← get?_eq_of_perm es.reverse_perm.symm he,
    ← get?_eq_of_perm fs.reverse_perm.symm hf]
  exact h key

section

variable {γ δ : Type} {F : α → γ → Prop} {G : β → δ → Prop} {es : Entries α} {fs : Entries β}

/-- Every value of the one table has an answer if every value of the other has one. -/
theorem Matches.exists_along_iff (h : Matches R es fs) (he : (keys es).Nodup)
    (hf : (keys fs).Nodup)
    (hFG : ∀ e ∈ es, ∀ f ∈ fs, R e.2 f.2 → ((∃ v, F e.2 v) ↔ ∃ w, G f.2 w)) :
    (∃ vs, Along F es vs) ↔ ∃ ws, Along G fs ws := by
  rw [Entries.exists_along_iff, Entries.exists_along_iff]
  constructor
  · intro hes f hf'
    obtain ⟨x, hx, hxf⟩ := h.exists_left hf hf'
    exact (hFG _ hx f hf' hxf).mp (hes _ hx)
  · intro hfs e he'
    obtain ⟨y, hy, hey⟩ := h.exists_right he he'
    exact (hFG e he' _ hy hey).mpr (hfs _ hy)

/-- The answers match if they do value by value. -/
theorem Matches.of_along {S : γ → δ → Prop} {vs : Entries γ} {ws : Entries δ} (h : Matches R es fs)
    (hv : Along F es vs) (hw : Along G fs ws)
    (hS : ∀ e ∈ es, ∀ f ∈ fs, R e.2 f.2 → ∀ v w, F e.2 v → G f.2 w → S v w) :
    Matches S vs ws := by
  intro key
  have hkey := h key
  have hleft := hv.get? key
  have hright := hw.get? key
  have hvalue : ∀ x ∈ get? key es, ∀ y ∈ get? key fs, R x y → ∀ v w, F x v → G y w → S v w :=
    fun x hx y hy => hS (key, x) (mem_of_get? hx) (key, y) (mem_of_get? hy)
  generalize get? key es = x at hkey hleft hvalue
  generalize get? key fs = y at hkey hright hvalue
  generalize get? key vs = v at hleft ⊢
  generalize get? key ws = w at hright ⊢
  cases hkey with
  | none =>
      cases hleft
      cases hright
      exact .none
  | some hxy =>
      cases hleft with
      | some hxv =>
        cases hright with
        | some hyw => exact .some (hvalue _ rfl _ rfl hxy _ _ hxv hyw)

end

/-- Tables that are put over matching ones in turn match. -/
theorem Matches.putAll {news es : Entries α} {news' es' : Entries β} (hd : (keys news).Nodup)
    (hd' : (keys news').Nodup) (hnews : Matches R news news') (h : Matches R es es') :
    Matches R (putAll news es) (putAll news' es') := by
  intro k
  rw [get?_putAll_of_nodup hd, get?_putAll_of_nodup hd']
  have hnew := hnews k
  generalize get? k news = found at hnew ⊢
  generalize get? k news' = found' at hnew ⊢
  cases hnew with
  | some hr => exact .some hr
  | none => exact h k

end Entries

/-! ## Values -/

namespace Json

/-- The values differ only in the order of members, at any depth. -/
inductive Reorders : Json → Json → Prop
  | null : Reorders null null
  | bool (b : Bool) : Reorders (bool b) (bool b)
  | number (n : Number) : Reorders (number n) (number n)
  | string (s : String) : Reorders (string s) (string s)
  | array {xs ys : List Json} : List.Forall₂ Reorders xs ys → Reorders (array xs) (array ys)
  | object {xs ys : Entries Json} : (Entries.keys xs).Perm (Entries.keys ys) →
      (∀ k x y, Entries.get? k xs = some x → Entries.get? k ys = some y → Reorders x y) →
      Reorders (object xs) (object ys)

/-- Every value is a reordering of itself. -/
theorem Reorders.refl (x : Json) : Reorders x x := by
  induction x using induct with
  | null => exact .null
  | bool b => exact .bool b
  | number n => exact .number n
  | string s => exact .string s
  | array xs ih => exact .array (List.forall₂_same.mpr ih)
  | object ms ih =>
      refine .object (List.Perm.refl _) ?_
      intro k x y hx hy
      rw [hx] at hy
      cases hy
      exact ih _ (Entries.mem_of_get? hx)

/-- The members of the second object, put in another order, have values related to those of the
first. -/
theorem Reorders.of_along {xs zs ys : Entries Json} (hp : zs.Perm ys)
    (h : Entries.Along Reorders xs zs) (hd : (Entries.keys xs).Nodup) :
    Reorders (.object xs) (.object ys) := by
  have hdz : (Entries.keys zs).Nodup := h.keys_eq ▸ hd
  refine .object (h.keys_eq ▸ hp.map Prod.fst) ?_
  intro k x y hx hy
  have hk := h.get? k
  rw [hx, Entries.get?_eq_of_perm hp hdz, hy] at hk
  cases hk with
  | some hxy => exact hxy

/-- The same members in another order. -/
theorem Reorders.of_perm {xs ys : Entries Json} (h : xs.Perm ys)
    (hd : (Entries.keys xs).Nodup) : Reorders (.object xs) (.object ys) :=
  .of_along h (List.forall₂_same.mpr fun m _ => ⟨rfl, .refl m.2⟩) hd

/-- Objects without repeated keys differ in order only if look-up cannot tell. -/
theorem reorders_object_iff {xs ys : Entries Json} (hx : (Entries.keys xs).Nodup)
    (hy : (Entries.keys ys).Nodup) :
    Reorders (object xs) (object ys) ↔ Entries.Matches Reorders xs ys := by
  constructor
  · intro h k
    cases h with
    | object hkeys hvalues =>
      cases hfx : Entries.get? k xs with
      | none =>
          have hk : k ∉ Entries.keys ys := by
            rw [← hkeys.mem_iff]
            exact Entries.get?_eq_none_iff.mp hfx
          rw [Entries.get?_eq_none_iff.mpr hk]
          exact .none
      | some x =>
          have hk : k ∈ Entries.keys ys := by
            rw [← hkeys.mem_iff]
            exact Entries.mem_keys_of_mem (Entries.mem_of_get? hfx)
          obtain ⟨y, hfy⟩ := Entries.exists_get?_of_mem_keys hk
          rw [hfy]
          exact .some (hvalues k x y hfx hfy)
  · intro h
    refine .object (Entries.keys_perm_of_isSome hx hy h.isSome_eq) ?_
    intro k x y hfx hfy
    have hk := h k
    rw [hfx, hfy] at hk
    cases hk with
    | some hxy => exact hxy

theorem Reorders.string?_eq {x y : Json} (h : Reorders x y) : x.string? = y.string? := by
  cases h <;> rfl

theorem Reorders.isNull_eq {x y : Json} (h : Reorders x y) : x.isNull = y.isNull := by
  cases h <;> rfl

/-- No key repeats in what is reordered. -/
theorem Reorders.wellFormed {x y : Json} (h : Reorders x y) (hx : x.WellFormed) :
    y.WellFormed := by
  induction x using induct generalizing y with
  | null =>
      cases h
      trivial
  | bool b =>
      cases h
      trivial
  | number n =>
      cases h
      trivial
  | string s =>
      cases h
      trivial
  | array xs ih =>
      cases h with
      | array hitems =>
        rw [wellFormed_array] at hx ⊢
        intro y hy
        obtain ⟨x, hxm, hxy⟩ := exists_mem_of_forall₂ hitems hy
        exact ih x hxm hxy (hx x hxm)
  | object ms ih =>
      cases h with
      | @object _ ns hkeys hvalues =>
        rw [wellFormed_object] at hx ⊢
        have hd : (Entries.keys ns).Nodup := hkeys.nodup_iff.mp hx.1
        refine ⟨hd, ?_⟩
        intro n hn
        have hk : n.1 ∈ Entries.keys ms :=
          hkeys.mem_iff.mpr (Entries.mem_keys_of_mem (v := n.2) hn)
        obtain ⟨x, hfx⟩ := Entries.exists_get?_of_mem_keys hk
        have hfy := (Entries.get?_eq_some_iff hd).mpr hn
        have hm := Entries.mem_of_get? hfx
        exact ih _ hm (hvalues _ _ _ hfx hfy) (hx.2 _ hm)

theorem Reorders.matches {xs ys : Entries Json} (h : Reorders (.object xs) (.object ys))
    (hx : (Json.object xs).WellFormed) : Entries.Matches Reorders xs ys :=
  (reorders_object_iff (wellFormed_object.mp hx).1
    (wellFormed_object.mp (h.wellFormed hx)).1).mp h

/-- The member under a key repeats no key either. -/
theorem Reorders.member? {x y : Json} (h : Reorders x y) (hx : x.WellFormed) (key : String) :
    Option.Rel (fun v w => v.WellFormed ∧ Reorders v w) (x.member? key) (y.member? key) := by
  have hmember : ∀ v, x.member? key = some v → v.WellFormed := fun v => wellFormed_of_member? hx
  have hrel : Option.Rel Reorders (x.member? key) (y.member? key) := by
    cases h with
    | object hkeys hvalues => exact (Reorders.object hkeys hvalues).matches hx key
    | _ => exact .none
  generalize x.member? key = v at hmember hrel ⊢
  generalize y.member? key = w at hrel ⊢
  cases hrel with
  | none => exact .none
  | some hvw => exact .some ⟨hmember _ rfl, hvw⟩

/-- A text under a name is not touched by reordering. -/
theorem Reorders.member?_string?_eq {x y : Json} (h : Reorders x y) (hx : x.WellFormed)
    (key : String) : (y.member? key).bind Json.string? = (x.member? key).bind Json.string? := by
  have hmember := h.member? hx key
  generalize x.member? key = v at hmember ⊢
  generalize y.member? key = w at hmember ⊢
  cases hmember with
  | none => rfl
  | some hvw => exact hvw.2.string?_eq.symm

/-- What is reordered stays equal. -/
theorem Reorders.same {x y : Json} (h : Reorders x y) (hx : x.WellFormed) :
    x.same y = true := by
  induction x using induct generalizing y with
  | null =>
      cases h
      rfl
  | bool b =>
      cases h
      exact same_refl hx
  | number n =>
      cases h
      exact same_refl hx
  | string s =>
      cases h
      exact same_refl hx
  | array xs ih =>
      cases h with
      | array hitems =>
        rw [wellFormed_array] at hx
        refine same_iff.mpr (.array ?_)
        have hcarried := (List.forall₂_and_left xs _).mpr ⟨fun x hm => hm, hitems⟩
        apply hcarried.imp
        intro x y hxy
        exact ih x hxy.1 hxy.2 (hx x hxy.1)
  | object ms ih =>
      have hns := h.wellFormed hx
      cases h with
      | @object _ ns hkeys hvalues =>
        rw [wellFormed_object] at hx hns
        have hmatches : Entries.Matches Reorders ms ns :=
          (reorders_object_iff hx.1 hns.1).mp (.object hkeys hvalues)
        apply same_object hx.1 hns.1
        intro k
        have hk := hmatches k
        have hvalue : ∀ x ∈ Entries.get? k ms, ∀ y, Reorders x y → x.same y = true := by
          intro x hfx y hxy
          have hm := Entries.mem_of_get? hfx
          exact ih _ hm hxy (hx.2 _ hm)
        generalize Entries.get? k ms = found at hk hvalue ⊢
        generalize Entries.get? k ns = found' at hk ⊢
        cases hk with
        | none => exact .none
        | some hxy => exact .some (hvalue _ rfl _ hxy)

/-- Equality cannot tell reordered values apart. -/
theorem same_eq_of_reorders {x x' y y' : Json} (hx : x.WellFormed) (hy : y.WellFormed)
    (hxx : Reorders x x') (hyy : Reorders y y') : x.same y = x'.same y' := by
  have hsx : x.same x' = true := hxx.same hx
  have hsy : y.same y' = true := hyy.same hy
  rw [Bool.eq_iff_iff]
  constructor
  · intro h
    exact same_trans (same_symm hx hsx) (same_trans h hsy)
  · intro h
    exact same_trans hsx (same_trans h (same_symm hy hsy))

end Json

/-! ## Inputs and outcomes -/

namespace Field

/-- The same state, with values that differ only in the order of members. -/
inductive Reorders : Field → Field → Prop
  | absent : Reorders .absent .absent
  | null : Reorders .null .null
  | value {x y : Json} : Json.Reorders x y → Reorders (.value x) (.value y)
  | binary (payload : Utf8.Octets) : Reorders (.binary payload) (.binary payload)

theorem Reorders.refl (f : Field) : Reorders f f := by
  cases f with
  | absent => exact .absent
  | null => exact .null
  | value v => exact .value (Json.Reorders.refl v)
  | binary payload => exact .binary payload

theorem Reorders.ofJson {x y : Json} (h : Json.Reorders x y) :
    Reorders (ofJson x) (ofJson y) := by
  cases h with
  | null => exact .null
  | bool b => exact .value (.bool b)
  | number n => exact .value (.number n)
  | string s => exact .value (.string s)
  | array hitems => exact .value (.array hitems)
  | object hkeys hvalues => exact .value (.object hkeys hvalues)

theorem Reorders.ofOption {x y : Option Json} (h : Option.Rel Json.Reorders x y) :
    Reorders (ofOption x) (ofOption y) := by
  cases h with
  | none => exact .absent
  | some hxy => exact .ofJson hxy

theorem Reorders.toJson? {f g : Field} (h : Reorders f g) :
    Option.Rel Json.Reorders f.toJson? g.toJson? := by
  cases h with
  | absent => exact .none
  | null => exact .some .null
  | value hxy => exact .some hxy
  | binary payload => exact .some (.string _)

theorem Reorders.toJson?_getD {f g : Field} (h : Reorders f g) :
    Json.Reorders (f.toJson?.getD .null) (g.toJson?.getD .null) := by
  have hvalue := h.toJson?
  generalize f.toJson? = x at hvalue ⊢
  generalize g.toJson? = y at hvalue ⊢
  cases hvalue with
  | none => exact .null
  | some hxy => exact hxy

theorem Reorders.isAbsent_eq {f g : Field} (h : Reorders f g) : f.isAbsent = g.isAbsent := by
  cases h <;> rfl

theorem Reorders.isNull_eq {f g : Field} (h : Reorders f g) : f.isNull = g.isNull := by
  cases h with
  | value hxy => cases hxy <;> rfl
  | _ => rfl

theorem Reorders.wellFormed {f g : Field} (h : Reorders f g) (hf : f.WellFormed) :
    g.WellFormed := by
  cases h with
  | value hxy => exact hxy.wellFormed hf
  | _ => trivial

/-- Only arrays and objects have an order of members to differ in. -/
inductive ReordersParts : Field → Field → Prop
  | eq (f : Field) : ReordersParts f f
  | array {xs ys : List Json} : List.Forall₂ Json.Reorders xs ys →
      ReordersParts (.value (.array xs)) (.value (.array ys))
  | object {xs ys : Entries Json} : Json.Reorders (.object xs) (.object ys) →
      ReordersParts (.value (.object xs)) (.value (.object ys))

/-- Inputs that reorder each other have parts that do. -/
theorem Reorders.parts {f g : Field} (h : Reorders f g) : ReordersParts f g := by
  cases h with
  | value hxy =>
      cases hxy with
      | array hitems => exact .array hitems
      | object hkeys hvalues => exact .object (.object hkeys hvalues)
      | _ => exact .eq _
  | _ => exact .eq _

end Field

end SchemaGate
