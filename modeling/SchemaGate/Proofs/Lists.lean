import Mathlib.Data.List.Forall2

/-!
# Lists

What statements about lists of parameters, schemes and alternatives are made of:

* `bind_eq_ok_iff` and `mapM_eq_ok_iff`: steps that can fail succeed together if each of them does,
  and so does a function on a list if it does on each element;
* `FirstWhere`, `LastWhere` and `OnlyWhere`: the first, the last and the only element with a
  property, as relations, so that the property need not be decidable;
* `filter_eraseDups`: what is left out does not change the order of first appearances;
* `mapM_eq_error_iff`: a function on a list fails as it does on the first element that it fails on;
* `takeWhile_bne_eq` and `dropWhile_bne_eq`: what stands before the first mark, and from there on.
-/

namespace SchemaGate

variable {α β ε : Type}

theorem bind_eq_ok_iff {x : Except ε α} {f : α → Except ε β} {b : β} :
    (x >>= f) = .ok b ↔ ∃ a, x = .ok a ∧ f a = .ok b := by
  cases x <;> simp [bind, Except.bind]

theorem bind_eq_error_iff {x : Except ε α} {f : α → Except ε β} {e : ε} :
    (x >>= f) = .error e ↔ x = .error e ∨ ∃ a, x = .ok a ∧ f a = .error e := by
  cases x <;> simp [bind, Except.bind]

/-- A run over a list succeeds if each step does. -/
theorem mapM_eq_ok_iff {f : α → Except ε β} {xs : List α} {ys : List β} :
    xs.mapM f = .ok ys ↔ List.Forall₂ (fun x y => f x = .ok y) xs ys := by
  induction xs generalizing ys with
  | nil =>
      rw [List.mapM_nil, List.forall₂_nil_left_iff]
      exact ⟨by rintro ⟨⟩; rfl, by rintro rfl; rfl⟩
  | cons x rest ih =>
      rw [List.mapM_cons, List.forall₂_cons_left_iff]
      cases hx : f x with
      | error e => simp [bind, Except.bind]
      | ok y =>
          cases hrest : rest.mapM f with
          | error e => simp [bind, Except.bind, ← ih, hrest]
          | ok zs => simp [bind, Except.bind, pure, Except.pure, ← ih, hrest, eq_comm]

theorem mapM_congr_of_mem {f g : α → Except ε β} {xs : List α} (h : ∀ x ∈ xs, f x = g x) :
    xs.mapM f = xs.mapM g := by
  induction xs with
  | nil => rw [List.mapM_nil, List.mapM_nil]
  | cons x rest ih =>
      rw [List.mapM_cons, List.mapM_cons, h x List.mem_cons_self,
        ih fun y hy => h y (List.mem_cons_of_mem x hy)]

theorem findSome?_congr_of_mem {f g : α → Option β} {xs : List α} (h : ∀ x ∈ xs, f x = g x) :
    xs.findSome? f = xs.findSome? g := by
  induction xs with
  | nil => rfl
  | cons x rest ih =>
      rw [List.findSome?_cons, List.findSome?_cons, h x List.mem_cons_self,
        ih fun y hy => h y (List.mem_cons_of_mem x hy)]

/-- Answers that come from elsewhere, element by element. -/
theorem forall₂_map_iff {γ : Type} {R : α → γ → Prop} {g : γ → β} {xs : List α} {ys : List β} :
    List.Forall₂ (fun x y => ∃ z, R x z ∧ g z = y) xs ys ↔
      ∃ zs, List.Forall₂ R xs zs ∧ zs.map g = ys := by
  constructor
  · intro h
    induction h with
    | nil => exact ⟨[], .nil, rfl⟩
    | cons hx _ ih =>
        obtain ⟨z, hz, rfl⟩ := hx
        obtain ⟨zs, hzs, rfl⟩ := ih
        exact ⟨z :: zs, .cons hz hzs, rfl⟩
  · rintro ⟨zs, hzs, rfl⟩
    rw [List.forall₂_map_right_iff]
    exact hzs.imp fun x z hxz => ⟨z, hxz, rfl⟩

/-- A list has partners if each of its elements has one. -/
theorem exists_forall₂_iff {R : α → β → Prop} {xs : List α} :
    (∃ ys, List.Forall₂ R xs ys) ↔ ∀ x ∈ xs, ∃ y, R x y := by
  induction xs with
  | nil => exact ⟨fun _ x hx => absurd hx List.not_mem_nil, fun _ => ⟨[], .nil⟩⟩
  | cons x rest ih =>
      rw [List.forall_mem_cons, ← ih]
      constructor
      · rintro ⟨ys, h⟩
        obtain ⟨y, ys', hy, hys', rfl⟩ := List.forall₂_cons_left_iff.mp h
        exact ⟨⟨y, hy⟩, ys', hys'⟩
      · rintro ⟨⟨y, hy⟩, ys, hys⟩
        exact ⟨y :: ys, .cons hy hys⟩

/-- Partners stand at the same place. -/
theorem exists_getElem?_of_forall₂ {R : α → β → Prop} {xs : List α} {ys : List β}
    (h : List.Forall₂ R xs ys) {index : Nat} {x : α} (hx : xs[index]? = some x) :
    ∃ y, ys[index]? = some y ∧ R x y := by
  induction h generalizing index with
  | nil => cases hx
  | cons hxy _ ih =>
      cases index with
      | zero =>
          cases hx
          exact ⟨_, rfl, hxy⟩
      | succ index => exact ih hx

/-- Every element of the second list has a partner in the first. -/
theorem exists_mem_of_forall₂ {R : α → β → Prop} {xs : List α} {ys : List β}
    (h : List.Forall₂ R xs ys) {y : β} (hy : y ∈ ys) : ∃ x ∈ xs, R x y := by
  induction h with
  | nil => exact absurd hy List.not_mem_nil
  | @cons x' y' xs' ys' hxy _ ih =>
      rcases List.mem_cons.mp hy with rfl | hrest
      · exact ⟨x', List.mem_cons_self, hxy⟩
      · obtain ⟨x, hx, hR⟩ := ih hrest
        exact ⟨x, List.mem_cons_of_mem x' hx, hR⟩

theorem forall₂_getLast? {R : α → β → Prop} {xs : List α} {ys : List β}
    (h : List.Forall₂ R xs ys) : Option.Rel R xs.getLast? ys.getLast? := by
  have hreverse : List.Forall₂ R xs.reverse ys.reverse := List.forall₂_reverse_iff.mpr h
  rw [← List.head?_reverse, ← List.head?_reverse]
  generalize xs.reverse = us at hreverse ⊢
  generalize ys.reverse = vs at hreverse ⊢
  cases hreverse with
  | nil => exact .none
  | cons hxy _ => exact .some hxy

/-- What holds of two elements of the first list holds of their partners in the second. -/
theorem pairwise_of_forall₂ {R : α → β → Prop} {P : α → α → Prop} {Q : β → β → Prop}
    {xs : List α} {ys : List β} (h : List.Forall₂ R xs ys)
    (hPQ : ∀ x x' y y', R x y → R x' y' → P x x' → Q y y') (hxs : xs.Pairwise P) :
    ys.Pairwise Q := by
  induction h with
  | nil => exact .nil
  | @cons x y xs ys hxy hrest ih =>
      rw [List.pairwise_cons] at hxs
      refine List.pairwise_cons.mpr ⟨?_, ih hxs.2⟩
      intro y' hy'
      obtain ⟨x', hx', hR⟩ := exists_mem_of_forall₂ hrest hy'
      exact hPQ x x' y y' hxy hR (hxs.1 x' hx')

theorem isSome_eq_of_rel {R : α → β → Prop} {x : Option α} {y : Option β} (h : Option.Rel R x y) :
    x.isSome = y.isSome := by
  cases h <;> rfl

/-- Lists that differ in one element are related if the elements there are. -/
theorem forall₂_replace {R : α → α → Prop} (hR : ∀ x, R x x) {x y : α} (h : R x y)
    (before after : List α) : List.Forall₂ R (before ++ x :: after) (before ++ y :: after) := by
  induction before with
  | nil => exact .cons h (List.forall₂_same.mpr fun z _ => hR z)
  | cons z rest ih => exact .cons (hR z) ih

theorem mem_replaced {before after : List α} {x z : α} (h : z ∈ before ++ x :: after) (y : α) :
    z = x ∨ z ∈ before ++ y :: after := by
  rw [List.mem_append, List.mem_cons] at h ⊢
  rcases h with hbefore | rfl | hafter
  · exact .inr (.inl hbefore)
  · exact .inl rfl
  · exact .inr (.inr (.inr hafter))

/-- The element is the first of the list with the property. -/
inductive FirstWhere (P : α → Prop) : List α → α → Prop
  | here {x : α} {xs : List α} : P x → FirstWhere P (x :: xs) x
  | later {x y : α} {xs : List α} : ¬ P y → FirstWhere P xs x → FirstWhere P (y :: xs) x

/-- The element is the last of the list with the property. -/
inductive LastWhere (P : α → Prop) : List α → α → Prop
  | here {x : α} {xs : List α} : P x → (∀ y ∈ xs, ¬ P y) → LastWhere P (x :: xs) x
  | later {x y : α} {xs : List α} : LastWhere P xs x → LastWhere P (y :: xs) x

/-- The element is the only one of the list with the property. -/
inductive OnlyWhere (P : α → Prop) : List α → α → Prop
  | here {x : α} {xs : List α} : P x → (∀ y ∈ xs, ¬ P y) → OnlyWhere P (x :: xs) x
  | later {x y : α} {xs : List α} : ¬ P y → OnlyWhere P xs x → OnlyWhere P (y :: xs) x

namespace FirstWhere

variable {P : α → Prop} {x y : α} {xs : List α}

theorem holds (h : FirstWhere P xs x) : P x := by
  induction h with
  | here hx => exact hx
  | later _ _ ih => exact ih

theorem mem (h : FirstWhere P xs x) : x ∈ xs := by
  induction h with
  | here _ => exact List.mem_cons_self
  | later _ _ ih => exact List.mem_cons_of_mem _ ih

theorem not_nil : ¬ FirstWhere P [] x := by
  rintro ⟨⟩

theorem cons_of_pos (hy : P y) : FirstWhere P (y :: xs) x ↔ x = y := by
  constructor
  · intro h
    cases h with
    | here _ => rfl
    | later hn _ => exact absurd hy hn
  · rintro rfl
    exact .here hy

theorem cons_of_neg (hy : ¬ P y) : FirstWhere P (y :: xs) x ↔ FirstWhere P xs x := by
  constructor
  · intro h
    cases h with
    | here hp => exact absurd hp hy
    | later _ hrest => exact hrest
  · exact .later hy

/-- There is a first element if there is any. -/
theorem exists_iff : (∃ x, FirstWhere P xs x) ↔ ∃ x ∈ xs, P x := by
  refine ⟨fun ⟨x, h⟩ => ⟨x, h.mem, h.holds⟩, ?_⟩
  rintro ⟨x, hx, hp⟩
  induction xs with
  | nil => exact absurd hx List.not_mem_nil
  | cons y rest ih =>
      by_cases hy : P y
      · exact ⟨y, .here hy⟩
      · rcases List.mem_cons.mp hx with rfl | hrest
        · exact absurd hp hy
        · obtain ⟨z, hz⟩ := ih hrest
          exact ⟨z, .later hy hz⟩

theorem congr {Q : α → Prop} (h : FirstWhere P xs x) (hPQ : ∀ y, Q y ↔ P y) :
    FirstWhere Q xs x := by
  induction h with
  | here hx => exact .here ((hPQ _).mpr hx)
  | later hy _ ih => exact .later (fun hq => hy ((hPQ _).mp hq)) ih

theorem map_iff {f : β → α} {ys : List β} :
    FirstWhere P (ys.map f) x ↔ ∃ y, FirstWhere (fun y => P (f y)) ys y ∧ f y = x := by
  induction ys with
  | nil => simp [not_nil]
  | cons y rest ih =>
      rw [List.map_cons]
      by_cases hy : P (f y)
      · have hfirst : ∀ z, FirstWhere (fun y => P (f y)) (y :: rest) z ↔ z = y :=
          fun z => cons_of_pos hy
        simp [cons_of_pos hy, hfirst, eq_comm]
      · have hfirst : ∀ z, FirstWhere (fun y => P (f y)) (y :: rest) z ↔
            FirstWhere (fun y => P (f y)) rest z := fun z => cons_of_neg hy
        rw [cons_of_neg hy, ih]
        simp only [hfirst]

/-- The first of those that pass a filter is the first of the list that passes it. -/
theorem filter_iff {f : α → Bool} :
    FirstWhere P (xs.filter f) x ↔ FirstWhere (fun y => f y = true ∧ P y) xs x := by
  induction xs with
  | nil => simp [not_nil]
  | cons y rest ih =>
      by_cases hf : f y = true
      · rw [List.filter_cons_of_pos hf]
        by_cases hy : P y
        · rw [cons_of_pos hy, cons_of_pos (P := fun y => f y = true ∧ P y) ⟨hf, hy⟩]
        · rw [cons_of_neg hy, cons_of_neg (P := fun y => f y = true ∧ P y) fun h => hy h.2, ih]
      · rw [List.filter_cons_of_neg hf,
          cons_of_neg (P := fun y => f y = true ∧ P y) fun h => hf h.1, ih]

/-- What a search answers with comes from the first element that it has an answer for. -/
theorem findSome?_eq_some_iff {f : α → Option β} {b : β} :
    xs.findSome? f = some b ↔ ∃ x, FirstWhere (fun x => ∃ b, f x = some b) xs x ∧ f x = some b := by
  induction xs with
  | nil => simp [not_nil]
  | cons y rest ih =>
      rw [List.findSome?_cons]
      cases hy : f y with
      | some b' =>
          have hfirst : ∀ x, FirstWhere (fun x => ∃ b, f x = some b) (y :: rest) x ↔ x = y :=
            fun x => cons_of_pos ⟨b', hy⟩
          simp [hfirst, hy]
      | none =>
          have hfirst : ∀ x, FirstWhere (fun x => ∃ b, f x = some b) (y :: rest) x ↔
              FirstWhere (fun x => ∃ b, f x = some b) rest x :=
            fun x => cons_of_neg (by simp [hy])
          simp only [hfirst, ih]

/-- What is found by its place is the first of its kind. -/
theorem of_findIdx? {p : α → Bool} {i : Nat} (h : xs.findIdx? p = some i) :
    ∃ x, xs[i]? = some x ∧ FirstWhere (fun y => p y = true) xs x := by
  induction xs generalizing i with
  | nil => cases h
  | cons y rest ih =>
      rw [List.findIdx?_cons] at h
      split at h
      · rename_i hy
        cases h
        exact ⟨y, rfl, .here hy⟩
      · rename_i hy
        obtain ⟨j, hj, rfl⟩ := Option.map_eq_some_iff.mp h
        obtain ⟨x, hx, hfirst⟩ := ih hj
        exact ⟨x, hx, .later hy hfirst⟩

/-- The first element is no later than any other one. -/
theorem mem_or_eq_of_append {before after : List α} (hy : P y)
    (h : FirstWhere P (before ++ y :: after) x) : x ∈ before ∨ x = y := by
  induction before with
  | nil => exact .inr ((cons_of_pos hy).mp h)
  | cons z rest ih =>
      cases h with
      | here _ => exact .inl List.mem_cons_self
      | later _ hrest => exact (ih hrest).imp_left (List.mem_cons_of_mem z)

end FirstWhere

namespace LastWhere

variable {P : α → Prop} {x : α} {xs : List α}

theorem holds (h : LastWhere P xs x) : P x := by
  induction h with
  | here hx _ => exact hx
  | later _ ih => exact ih

theorem mem (h : LastWhere P xs x) : x ∈ xs := by
  induction h with
  | here _ _ => exact List.mem_cons_self
  | later _ ih => exact List.mem_cons_of_mem _ ih

/-- There is a last element if there is any. -/
theorem exists_iff : (∃ x, LastWhere P xs x) ↔ ∃ x ∈ xs, P x := by
  refine ⟨fun ⟨x, h⟩ => ⟨x, h.mem, h.holds⟩, ?_⟩
  rintro ⟨x, hx, hp⟩
  induction xs generalizing x with
  | nil => exact absurd hx List.not_mem_nil
  | cons y rest ih =>
      by_cases hrest : ∃ z ∈ rest, P z
      · obtain ⟨z, hz, hpz⟩ := hrest
        obtain ⟨w, hw⟩ := ih z hz hpz
        exact ⟨w, .later hw⟩
      · rcases List.mem_cons.mp hx with rfl | hx
        · exact ⟨x, .here hp fun z hz hpz => hrest ⟨z, hz, hpz⟩⟩
        · exact absurd ⟨x, hx, hp⟩ hrest

/-- No list has two last elements with a property. -/
theorem unique {y : α} (hx : LastWhere P xs x) (hy : LastWhere P xs y) : x = y := by
  induction hx with
  | here _ hnone =>
      cases hy with
      | here _ _ => rfl
      | later hrest => exact absurd hrest.holds (hnone y hrest.mem)
  | later hlast ih =>
      cases hy with
      | here _ hnone => exact absurd hlast.holds (hnone _ hlast.mem)
      | later hrest => exact ih hrest

theorem append_left (before : List α) (h : LastWhere P xs x) : LastWhere P (before ++ xs) x := by
  induction before with
  | nil => exact h
  | cons y rest ih => exact .later ih

/-- Only what the property says of the elements of the list counts. -/
theorem congr {Q : α → Prop} (h : ∀ y ∈ xs, P y ↔ Q y) : LastWhere P xs x ↔ LastWhere Q xs x := by
  induction xs with
  | nil => exact ⟨by rintro ⟨⟩, by rintro ⟨⟩⟩
  | cons y rest ih =>
      have hrest : ∀ z ∈ rest, P z ↔ Q z := fun z hz => h z (List.mem_cons_of_mem y hz)
      have hy := h y List.mem_cons_self
      constructor
      · intro hlast
        cases hlast with
        | here hp hnone =>
            exact .here (hy.mp hp) fun z hz hq => hnone z hz ((hrest z hz).mpr hq)
        | later hlast => exact .later ((ih hrest).mp hlast)
      · intro hlast
        cases hlast with
        | here hq hnone =>
            exact .here (hy.mpr hq) fun z hz hp => hnone z hz ((hrest z hz).mp hp)
        | later hlast => exact .later ((ih hrest).mpr hlast)

/-- The last image with a property is that of the last element whose image has it. -/
theorem map_iff {f : β → α} {ys : List β} :
    LastWhere P (ys.map f) x ↔ ∃ y, LastWhere (fun y => P (f y)) ys y ∧ f y = x := by
  induction ys with
  | nil =>
      constructor
      · rintro ⟨⟩
      · rintro ⟨y, ⟨⟩, -⟩
  | cons y rest ih =>
      constructor
      · intro h
        rw [List.map_cons] at h
        cases h with
        | here hx hnone => exact ⟨y, .here hx fun z hz => hnone _ (List.mem_map_of_mem hz), rfl⟩
        | later hrest =>
            obtain ⟨z, hz, hzx⟩ := ih.mp hrest
            exact ⟨z, .later hz, hzx⟩
      · rintro ⟨z, hz, rfl⟩
        cases hz with
        | here hx hnone =>
            refine .here hx fun w hw => ?_
            obtain ⟨u, hu, rfl⟩ := List.mem_map.mp hw
            exact hnone u hu
        | later hrest => exact .later (ih.mpr ⟨z, hrest, rfl⟩)

/-- The last element with a property has the last one of its partners' property as its partner. -/
theorem exists_of_forall₂ {R : α → β → Prop} {Q : β → Prop} {ys : List β}
    (h : List.Forall₂ R xs ys) (hPQ : ∀ x y, R x y → (P x ↔ Q y)) (hx : LastWhere P xs x) :
    ∃ y, R x y ∧ LastWhere Q ys y := by
  induction h with
  | nil => cases hx
  | @cons x' y' xs' ys' hxy hrest ih =>
      cases hx with
      | here hp hnone =>
          refine ⟨y', hxy, .here ((hPQ _ _ hxy).mp hp) ?_⟩
          intro y hy hq
          obtain ⟨z, hz, hzy⟩ := exists_mem_of_forall₂ hrest hy
          exact hnone z hz ((hPQ z y hzy).mpr hq)
      | later hlast =>
          obtain ⟨y, hxy', hy⟩ := ih hlast
          exact ⟨y, hxy', .later hy⟩

/-- The last of those that pass a filter is the last of the list that passes it. -/
theorem getLast?_filter_eq_some_iff {p : α → Bool} :
    (xs.filter p).getLast? = some x ↔ LastWhere (fun y => p y = true) xs x := by
  induction xs with
  | nil => exact ⟨by rintro ⟨⟩, by rintro ⟨⟩⟩
  | cons y rest ih =>
      have hnone : (rest.filter p).getLast? = none ↔ ∀ z ∈ rest, ¬ p z = true := by
        rw [List.getLast?_eq_none_iff, List.filter_eq_nil_iff]
      have hsplit : ((y :: rest).filter p).getLast? =
          (rest.filter p).getLast?.or (if p y then some y else none) := by
        by_cases hy : p y = true
        · rw [List.filter_cons_of_pos hy, if_pos hy, List.getLast?_cons]
          cases (rest.filter p).getLast? <;> rfl
        · rw [List.filter_cons_of_neg hy, if_neg hy, Option.or_none]
      rw [hsplit, Option.or_eq_some_iff, ih, hnone]
      constructor
      · rintro (hlast | ⟨hrest, hhere⟩)
        · exact .later hlast
        · split at hhere
          · rename_i hy
            cases hhere
            exact .here hy hrest
          · cases hhere
      · intro hlast
        cases hlast with
        | here hy hrest => exact .inr ⟨hrest, if_pos hy⟩
        | later hlast => exact .inl hlast

/-- A search from the back answers for the last element that it has an answer for. -/
theorem findSome?_reverse_eq_some_iff {f : α → Option β} {b : β} :
    xs.reverse.findSome? f = some b ↔
      ∃ x, LastWhere (fun x => ∃ b, f x = some b) xs x ∧ f x = some b := by
  induction xs with
  | nil =>
      constructor
      · rintro ⟨⟩
      · rintro ⟨x, ⟨⟩, -⟩
  | cons y rest ih =>
      have hnone : rest.reverse.findSome? f = none ↔ ∀ z ∈ rest, ¬ ∃ b, f z = some b := by
        rw [List.findSome?_eq_none_iff]
        simp [Option.eq_none_iff_forall_ne_some]
      rw [List.reverse_cons, List.findSome?_append, List.findSome?_singleton,
        Option.or_eq_some_iff, ih, hnone]
      constructor
      · rintro (⟨x, hlast, hx⟩ | ⟨hrest, hy⟩)
        · exact ⟨x, .later hlast, hx⟩
        · exact ⟨y, .here ⟨b, hy⟩ hrest, hy⟩
      · rintro ⟨x, hlast, hx⟩
        cases hlast with
        | here _ hrest => exact .inr ⟨hrest, hx⟩
        | later hlast => exact .inl ⟨x, hlast, hx⟩

end LastWhere

namespace OnlyWhere

variable {P : α → Prop} {x y : α} {xs : List α}

theorem cons_of_pos (hy : P y) : OnlyWhere P (y :: xs) x ↔ x = y ∧ ∀ z ∈ xs, ¬ P z := by
  constructor
  · intro h
    cases h with
    | here _ hnone => exact ⟨rfl, hnone⟩
    | later hn _ => exact absurd hy hn
  · rintro ⟨rfl, hnone⟩
    exact .here hy hnone

theorem cons_of_neg (hy : ¬ P y) : OnlyWhere P (y :: xs) x ↔ OnlyWhere P xs x := by
  constructor
  · intro h
    cases h with
    | here hp _ => exact absurd hp hy
    | later _ hrest => exact hrest
  · exact .later hy

end OnlyWhere

/-! ## Up to a mark -/

theorem bne_of_not_mem {cs : List Char} {d : Char} (h : d ∉ cs) : ∀ c ∈ cs, (c != d) = true := by
  intro c hc
  exact bne_iff_ne.mpr (ne_of_mem_of_not_mem hc h)

theorem takeWhile_bne_eq {cs : List Char} {d : Char} (h : d ∉ cs) (rest : List Char) :
    (cs ++ d :: rest).takeWhile (· != d) = cs := by
  rw [List.takeWhile_append_of_pos (bne_of_not_mem h)]
  simp

theorem dropWhile_bne_eq {cs : List Char} {d : Char} (h : d ∉ cs) (rest : List Char) :
    (cs ++ d :: rest).dropWhile (· != d) = d :: rest := by
  rw [List.dropWhile_append_of_pos (bne_of_not_mem h)]
  simp

/-! ## First appearances -/

theorem eraseDups_of_nodup [BEq α] [LawfulBEq α] {xs : List α} (h : xs.Nodup) :
    xs.eraseDups = xs := by
  induction xs with
  | nil => rfl
  | cons x rest ih =>
      rw [List.nodup_cons] at h
      have hkept : rest.filter (fun y => !y == x) = rest := by
        rw [List.filter_eq_self]
        intro y hy
        have hne : y ≠ x := ne_of_mem_of_not_mem hy h.1
        simp [hne]
      rw [List.eraseDups_cons, hkept, ih h.2]

/-- What is left out does not change the order in which the others appear first. -/
theorem filter_eraseDups [BEq α] [LawfulBEq α] (p : α → Bool) (xs : List α) :
    xs.eraseDups.filter p = (xs.filter p).eraseDups := by
  -- an element takes its repetitions away with it, so the induction is on the length
  induction hlength : xs.length using Nat.strongRecOn generalizing xs with
  | _ n ih =>
    cases xs with
    | nil => rfl
    | cons x rest =>
        have hshorter : (rest.filter fun y => !y == x).length < n := by
          have hle := List.length_filter_le (fun y => !y == x) rest
          rw [List.length_cons] at hlength
          omega
        have hrest := ih _ hshorter _ rfl
        rw [List.filter_filter] at hrest
        rw [List.eraseDups_cons]
        by_cases hx : p x = true
        · rw [List.filter_cons_of_pos hx, List.filter_cons_of_pos hx, List.eraseDups_cons, hrest,
            List.filter_filter]
          simp only [Bool.and_comm]
        · have hkept : rest.filter (fun y => p y && !y == x) = rest.filter p := by
            refine List.filter_congr fun y _ => ?_
            by_cases hy : y = x
            · subst hy
              simpa using hx
            · simp [hy]
          rw [List.filter_cons_of_neg hx, List.filter_cons_of_neg hx, hrest, hkept]

/-! ## The first failure -/

/-- A function on a list fails as it does on the first element that it fails on. -/
theorem mapM_eq_error_iff {f : α → Except ε β} {xs : List α} {e : ε} :
    xs.mapM f = .error e ↔
      ∃ x, FirstWhere (fun x => ∃ e, f x = .error e) xs x ∧ f x = .error e := by
  induction xs with
  | nil =>
      rw [List.mapM_nil]
      constructor
      · rintro ⟨⟩
      · rintro ⟨x, hx, -⟩
        exact absurd hx FirstWhere.not_nil
  | cons x rest ih =>
      rw [List.mapM_cons, bind_eq_error_iff]
      cases hx : f x with
      | error e' =>
          have hpos : ∃ e, f x = .error e := ⟨e', hx⟩
          simp [FirstWhere.cons_of_pos (P := fun x => ∃ e, f x = .error e) hpos, hx]
      | ok y =>
          have hneg : ¬ ∃ e, f x = .error e := by simp [hx]
          simp only [FirstWhere.cons_of_neg (P := fun x => ∃ e, f x = .error e) hneg, ← ih]
          cases rest.mapM f <;> simp [bind, Except.bind, pure, Except.pure]

/-- The first element that a function has an answer for gives the first of its answers. -/
theorem filterMap_of_firstWhere {g : α → Option β} {xs : List α} {x : α} {b : β}
    (h : FirstWhere (fun x => ∃ b, g x = some b) xs x) (hb : g x = some b) :
    ∃ rest, xs.filterMap g = b :: rest := by
  induction h with
  | here _ => exact ⟨_, List.filterMap_cons_some hb⟩
  | later hy _ ih =>
      obtain ⟨rest, hrest⟩ := ih hb
      refine ⟨rest, ?_⟩
      rw [List.filterMap_cons_none, hrest]
      exact Option.eq_none_iff_forall_ne_some.mpr fun b' hb' => hy ⟨b', hb'⟩

end SchemaGate
