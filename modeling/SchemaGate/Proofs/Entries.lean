import Mathlib.Data.List.Nodup
import SchemaGate.Entries
import SchemaGate.Proofs.Lists

/-!
# Look-up in keyed entries

What the operations on entries do to look-up, to the keys and to their order:

* on entries with distinct keys, look-up and membership say the same
  (`get?_eq_some_iff`);
* `file` and `fileAll` keep keys in ascending order, and of two values filed under one key the
  later one is found (`get?_fileAll`);
* `IsTable` says which entries a table in key order has, and that it has no others;
* `putAll` leaves the keys in the order in which they first appear (`keys_putAll`);
* `withdraw` takes one entry away and reorders the others (`withdraw_perm`);
* `Along` relates two tables entry by entry.
-/

namespace SchemaGate.Entries

variable {α β : Type}

/-! ## Keys -/

@[simp] theorem keys_nil : keys ([] : Entries α) = [] := rfl

@[simp] theorem keys_cons (e : String × α) (es : Entries α) :
    keys (e :: es) = e.1 :: keys es := rfl

@[simp] theorem get?_nil (key : String) : get? key ([] : Entries α) = none := rfl

@[simp] theorem get?_cons (key : String) (e : String × α) (es : Entries α) :
    get? key (e :: es) = if e.1 = key then some e.2 else get? key es := rfl

/-- Nothing stands under a key that the table does not have. -/
theorem get?_eq_none_iff {key : String} {es : Entries α} :
    get? key es = none ↔ key ∉ keys es := by
  induction es with
  | nil => simp
  | cons e rest ih =>
      obtain ⟨k, v⟩ := e
      by_cases hk : k = key
      · simp [hk]
      · rw [get?_cons, if_neg hk, ih]
        simp [keys, Ne.symm hk]

theorem has_iff {key : String} {es : Entries α} : has key es = true ↔ key ∈ keys es := by
  rw [has, Option.isSome_iff_ne_none, Ne, get?_eq_none_iff, not_not]

theorem mem_keys_of_mem {key : String} {v : α} {es : Entries α} (h : (key, v) ∈ es) :
    key ∈ keys es :=
  List.mem_map_of_mem (f := Prod.fst) h

theorem exists_of_mem_keys {key : String} {es : Entries α} (h : key ∈ keys es) :
    ∃ v, (key, v) ∈ es := by
  obtain ⟨⟨k, v⟩, he, rfl⟩ := List.mem_map.mp h
  exact ⟨v, he⟩

/-- What stands under a key is an entry. -/
theorem mem_of_get? {key : String} {v : α} {es : Entries α} (h : get? key es = some v) :
    (key, v) ∈ es := by
  induction es with
  | nil => simp at h
  | cons e rest ih =>
      obtain ⟨k, w⟩ := e
      by_cases hk : k = key
      · rw [get?_cons, if_pos hk] at h
        cases h
        rw [hk]
        exact List.mem_cons_self
      · rw [get?_cons, if_neg hk] at h
        exact List.mem_cons_of_mem _ (ih h)

theorem exists_get?_of_mem_keys {key : String} {es : Entries α} (h : key ∈ keys es) :
    ∃ v, get? key es = some v :=
  Option.ne_none_iff_exists'.mp fun hn => get?_eq_none_iff.mp hn h

/-- Entries are empty if look-up finds nothing. -/
theorem eq_nil_iff_get? {es : Entries α} : es = [] ↔ ∀ key, get? key es = none := by
  constructor
  · rintro rfl key
    rfl
  · intro h
    cases es with
    | nil => rfl
    | cons e rest => exact absurd List.mem_cons_self (get?_eq_none_iff.mp (h e.1))

/-- Where no key repeats, the entry of a key is the one that look-up finds. -/
theorem get?_eq_some_iff {key : String} {v : α} {es : Entries α} (hd : (keys es).Nodup) :
    get? key es = some v ↔ (key, v) ∈ es := by
  refine ⟨mem_of_get?, fun hm => ?_⟩
  induction es with
  | nil => simp at hm
  | cons e rest ih =>
      obtain ⟨k, w⟩ := e
      rw [keys, List.map_cons, List.nodup_cons] at hd
      rcases List.mem_cons.mp hm with heq | hrest
      · cases heq
        exact if_pos rfl
      · have hk : k ≠ key := fun he => hd.1 (he ▸ mem_keys_of_mem hrest)
        rw [get?_cons, if_neg hk]
        exact ih hd.2 hrest

/-- Where no key repeats, the order of the entries does not matter to look-up. -/
theorem get?_eq_of_perm {es fs : Entries α} (hp : es.Perm fs) (hd : (keys es).Nodup)
    (key : String) : get? key es = get? key fs := by
  have hd' : (keys fs).Nodup := (hp.map Prod.fst).nodup_iff.mp hd
  apply Option.ext
  intro v
  rw [get?_eq_some_iff hd, get?_eq_some_iff hd', hp.mem_iff]

/-- The first of two tables goes before the second. -/
theorem get?_append (key : String) (es fs : Entries α) :
    get? key (es ++ fs) = (get? key es).or (get? key fs) := by
  induction es with
  | nil => rfl
  | cons e rest ih =>
      obtain ⟨k, v⟩ := e
      by_cases hk : k = key
      · simp [hk]
      · simpa [hk] using ih

/-- Entries with distinct keys that answer every look-up alike have the same keys. -/
theorem keys_perm_of_isSome {es : Entries α} {fs : Entries β} (he : (keys es).Nodup)
    (hf : (keys fs).Nodup) (h : ∀ k, (get? k es).isSome = (get? k fs).isSome) :
    (keys es).Perm (keys fs) := by
  refine (List.perm_ext_iff_of_nodup he hf).mpr fun k => ?_
  rw [← has_iff, ← has_iff, has, has, h k]

/-- Entries with the same keys in the same order are the same if look-up cannot tell them apart. -/
theorem ext_of_keys_eq {es fs : Entries α} (hd : (keys es).Nodup) (hkeys : keys es = keys fs)
    (h : ∀ key, get? key es = get? key fs) : es = fs := by
  induction es generalizing fs with
  | nil => exact (List.map_eq_nil_iff.mp hkeys.symm).symm
  | cons e rest ih =>
      cases fs with
      | nil => cases hkeys
      | cons f others =>
          obtain ⟨k, v⟩ := e
          obtain ⟨k', w⟩ := f
          rw [keys_cons, keys_cons] at hkeys
          obtain ⟨rfl, hrest⟩ := List.cons.inj hkeys
          rw [keys_cons, List.nodup_cons] at hd
          have hhead := h k
          rw [get?_cons, get?_cons, if_pos rfl, if_pos rfl] at hhead
          obtain rfl := Option.some.inj hhead
          have htail : rest = others := by
            refine ih hd.2 hrest fun key => ?_
            by_cases hk : k = key
            · subst hk
              have hnone : k ∉ keys others := hrest ▸ hd.1
              rw [get?_eq_none_iff.mpr hd.1, get?_eq_none_iff.mpr hnone]
            · have hkey := h key
              rwa [get?_cons, get?_cons, if_neg hk, if_neg hk] at hkey
          rw [htail]

/-! ## Entries made from entries -/

/-- Changing values key by key changes what look-up finds. -/
theorem get?_map {key : String} (f : String → α → β) (es : Entries α) :
    get? key (es.map fun e => (e.1, f e.1 e.2)) = (get? key es).map (f key) := by
  induction es with
  | nil => rfl
  | cons e rest ih =>
      obtain ⟨k, v⟩ := e
      by_cases hk : k = key
      · simp [hk]
      · simpa [hk] using ih

theorem keys_map (f : String → α → β) (es : Entries α) :
    keys (es.map fun e => (e.1, f e.1 e.2)) = keys es := by
  simp [keys]

/-- Changes the value that look-up finds under a key, where it stands. -/
def adjust (key : String) (f : α → α) : Entries α → Entries α
  | [] => []
  | (k, v) :: rest => if k = key then (k, f v) :: rest else (k, v) :: adjust key f rest

theorem adjust_cons_self (key : String) (f : α → α) (v : α) (rest : Entries α) :
    adjust key f ((key, v) :: rest) = (key, f v) :: rest :=
  if_pos rfl

theorem adjust_cons_of_ne {key k : String} (h : k ≠ key) (f : α → α) (v : α) (rest : Entries α) :
    adjust key f ((k, v) :: rest) = (k, v) :: adjust key f rest :=
  if_neg h

theorem get?_adjust_self (key : String) (f : α → α) (es : Entries α) :
    get? key (adjust key f es) = (get? key es).map f := by
  induction es with
  | nil => rfl
  | cons e rest ih =>
      obtain ⟨k, v⟩ := e
      by_cases hk : k = key
      · subst hk
        simp [adjust_cons_self]
      · simp [adjust_cons_of_ne hk, hk, ih]

theorem get?_adjust_of_ne {key other : String} (h : other ≠ key) (f : α → α) (es : Entries α) :
    get? other (adjust key f es) = get? other es := by
  induction es with
  | nil => rfl
  | cons e rest ih =>
      obtain ⟨k, v⟩ := e
      by_cases hk : k = key
      · subst hk
        simp [adjust_cons_self, Ne.symm h]
      · simp [adjust_cons_of_ne hk, ih]

theorem adjust_congr {key : String} {f g : α → α} {es : Entries α}
    (h : ∀ v ∈ get? key es, f v = g v) : adjust key f es = adjust key g es := by
  induction es with
  | nil => rfl
  | cons e rest ih =>
      obtain ⟨k, v⟩ := e
      by_cases hk : k = key
      · subst hk
        rw [adjust_cons_self, adjust_cons_self, h v (by simp)]
      · rw [get?_cons, if_neg hk] at h
        rw [adjust_cons_of_ne hk, adjust_cons_of_ne hk, ih h]

theorem adjust_id (key : String) (es : Entries α) : adjust key id es = es := by
  induction es with
  | nil => rfl
  | cons e rest ih =>
      obtain ⟨k, v⟩ := e
      by_cases hk : k = key
      · subst hk
        exact adjust_cons_self k id v rest
      · rw [adjust_cons_of_ne hk, ih]

/-- Keeping the values that `f` has an answer for, and answering with that. -/
theorem keys_filterMap_sublist (f : α → Option β) (es : Entries α) :
    (keys (es.filterMap fun e => (f e.2).map fun w => (e.1, w))).Sublist (keys es) := by
  induction es with
  | nil => exact List.Sublist.refl _
  | cons e rest ih =>
      obtain ⟨k, v⟩ := e
      cases hv : f v with
      | none =>
          simp only [List.filterMap_cons, hv, Option.map_none]
          exact ih.trans (List.sublist_cons_self k _)
      | some w =>
          simp only [List.filterMap_cons, hv, Option.map_some]
          exact ih.cons_cons k

/-- Of the values that `f` has an answer for, look-up asks those under the key. -/
theorem get?_filterMap_eq_findSome? (f : α → Option β) (key : String) (es : Entries α) :
    get? key (es.filterMap fun e => (f e.2).map fun w => (e.1, w)) =
      es.findSome? fun e => if e.1 = key then f e.2 else none := by
  induction es with
  | nil => rfl
  | cons e rest ih =>
      obtain ⟨k, v⟩ := e
      rw [List.findSome?_cons, ← ih]
      by_cases hk : k = key
      · cases hv : f v <;> simp [hv, hk]
      · cases hv : f v <;> simp [hv, hk]

/-- What becomes of the values of a table, where no key repeats. -/
theorem get?_filterMap {key : String} (f : α → Option β) {es : Entries α}
    (hd : (keys es).Nodup) :
    get? key (es.filterMap fun e => (f e.2).map fun w => (e.1, w)) =
      (get? key es).bind f := by
  induction es with
  | nil => rfl
  | cons e rest ih =>
      obtain ⟨k, v⟩ := e
      rw [keys, List.map_cons, List.nodup_cons] at hd
      by_cases hk : k = key
      · subst hk
        cases hv : f v with
        | some w => simp [hv]
        | none =>
            -- the entry is dropped, and no later one has its key
            have hgone : get? k rest = none := get?_eq_none_iff.mpr hd.1
            simp [hv, ih hd.2, hgone]
      · cases hv : f v with
        | some w => simp [hv, hk, ih hd.2]
        | none => simp [hv, hk, ih hd.2]

/-! ## Entry by entry -/

/-- Entry by entry, the same key and related values. -/
def Along (R : α → β → Prop) (es : Entries α) (fs : Entries β) : Prop :=
  List.Forall₂ (fun e f => e.1 = f.1 ∧ R e.2 f.2) es fs

theorem Along.keys_eq {R : α → β → Prop} {es : Entries α} {fs : Entries β} (h : Along R es fs) :
    keys es = keys fs := by
  induction h with
  | nil => rfl
  | cons hef _ ih => rw [keys_cons, keys_cons, hef.1, ih]

theorem Along.values {R : α → β → Prop} {es : Entries α} {fs : Entries β} (h : Along R es fs) :
    List.Forall₂ R (es.map Prod.snd) (fs.map Prod.snd) := by
  rw [List.forall₂_map_left_iff, List.forall₂_map_right_iff]
  exact h.imp fun e f hef => hef.2

/-- Tables that go along have related values under each key. -/
theorem Along.get? {R : α → β → Prop} {es : Entries α} {fs : Entries β} (h : Along R es fs)
    (key : String) : Option.Rel R (get? key es) (get? key fs) := by
  induction h with
  | nil => exact .none
  | cons hef _ ih =>
      rw [get?_cons, get?_cons, hef.1]
      split
      · exact .some hef.2
      · exact ih

theorem exists_along_iff {R : α → β → Prop} {es : Entries α} :
    (∃ fs, Along R es fs) ↔ ∀ e ∈ es, ∃ v, R e.2 v := by
  refine exists_forall₂_iff.trans (forall₂_congr fun e _ => ⟨?_, ?_⟩)
  · rintro ⟨f, -, hf⟩
    exact ⟨f.2, hf⟩
  · rintro ⟨v, hv⟩
    exact ⟨(e.1, v), rfl, hv⟩

/-! ## Tables in the order of their keys -/

/-- Keys ascend, and so none repeats. -/
def Ascending (es : Entries α) : Prop := (keys es).Pairwise (fun a b : String => a < b)

theorem Ascending.nodup {es : Entries α} (h : Ascending es) : (keys es).Nodup := by
  refine List.Pairwise.imp ?_ h
  rintro a b hlt rfl
  exact String.lt_irrefl a hlt

theorem mem_keys_file {key other : String} {v : α} {es : Entries α} :
    other ∈ keys (file key v es) ↔ other = key ∨ other ∈ keys es := by
  rw [← has_iff, ← has_iff, has, has, get?_file]
  by_cases h : key = other
  · simp [h]
  · simp [h, Ne.symm h]

theorem mem_of_mem_file {key : String} {v : α} {e : String × α} {es : Entries α}
    (h : e ∈ file key v es) : e = (key, v) ∨ e ∈ es := by
  induction es with
  | nil => exact .inl (List.mem_singleton.mp h)
  | cons d rest ih =>
      obtain ⟨k, w⟩ := d
      rw [Entries.file] at h
      split at h
      · exact (List.mem_cons.mp h).imp_right (List.mem_cons_of_mem _)
      · split at h
        · exact List.mem_cons.mp h
        · rcases List.mem_cons.mp h with rfl | hrest
          · exact .inr List.mem_cons_self
          · exact (ih hrest).imp_right (List.mem_cons_of_mem _)

theorem mem_of_mem_fileAll {e : String × α} {news es : Entries α} (h : e ∈ fileAll news es) :
    e ∈ news ∨ e ∈ es := by
  induction news generalizing es with
  | nil => exact .inr h
  | cons d rest ih =>
      rcases ih h with hrest | hfiled
      · exact .inl (List.mem_cons_of_mem d hrest)
      · rcases mem_of_mem_file hfiled with rfl | hes
        · exact .inl List.mem_cons_self
        · exact .inr hes

/-- To file an entry keeps a table in order. -/
theorem Ascending.file {es : Entries α} (h : Ascending es) (key : String) (v : α) :
    Ascending (file key v es) := by
  induction es with
  | nil => simp [Entries.file, Ascending, keys]
  | cons e rest ih =>
      obtain ⟨k, w⟩ := e
      have hcons := List.pairwise_cons.mp h
      by_cases hk : k = key
      · simpa [Entries.file, Ascending, keys, hk] using h
      · by_cases hlt : key < k
        · rw [Entries.file, if_neg hk, if_pos hlt]
          refine List.pairwise_cons.mpr ⟨fun a ha => ?_, h⟩
          rcases List.mem_cons.mp ha with rfl | hrest
          · exact hlt
          · exact String.lt_trans hlt (hcons.1 a hrest)
        · rw [Entries.file, if_neg hk, if_neg hlt]
          -- neither equal nor below: the key belongs further down
          have hkey : k < key := by
            by_contra hge
            exact hk (String.le_antisymm (String.not_lt.mp hlt) (String.not_lt.mp hge))
          refine List.pairwise_cons.mpr ⟨fun a ha => ?_, ih hcons.2⟩
          rcases mem_keys_file.mp ha with rfl | hrest
          · exact hkey
          · exact hcons.1 a hrest

/-- Two tables in the order of their keys are related entry by entry if look-up finds related
values in them. -/
theorem Ascending.along {R : α → β → Prop} {es : Entries α} {fs : Entries β} (he : Ascending es)
    (hf : Ascending fs) (h : ∀ key, Option.Rel R (get? key es) (get? key fs)) : Along R es fs := by
  have hkeys : keys es = keys fs :=
    (keys_perm_of_isSome he.nodup hf.nodup fun key => isSome_eq_of_rel (h key)).eq_of_pairwise
      (fun a b _ _ hab hba => absurd hab (String.lt_asymm hba)) he hf
  -- position by position the keys agree, so the values are related
  have hlength : es.length = fs.length := by simpa [keys] using congrArg List.length hkeys
  refine List.forall₂_iff_get.mpr ⟨hlength, fun i hi hi' => ?_⟩
  have hkey : (es.get ⟨i, hi⟩).1 = (fs.get ⟨i, hi'⟩).1 := by
    have hat := congrArg (·[i]?) hkeys
    simpa [keys, hi, hi'] using hat
  have hleft : get? (es.get ⟨i, hi⟩).1 es = some (es.get ⟨i, hi⟩).2 :=
    (get?_eq_some_iff he.nodup).mpr (List.get_mem es ⟨i, hi⟩)
  have hright : get? (fs.get ⟨i, hi'⟩).1 fs = some (fs.get ⟨i, hi'⟩).2 :=
    (get?_eq_some_iff hf.nodup).mpr (List.get_mem fs ⟨i, hi'⟩)
  have hrel := h (es.get ⟨i, hi⟩).1
  rw [hleft, hkey, hright] at hrel
  cases hrel with
  | some hxy => exact ⟨hkey, hxy⟩

/-- They are the same if look-up cannot tell them apart. -/
theorem Ascending.ext {es fs : Entries α} (he : Ascending es) (hf : Ascending fs)
    (h : ∀ key, get? key es = get? key fs) : es = fs := by
  have halong : Along Eq es fs := by
    refine he.along hf fun key => ?_
    rw [h]
    cases get? key fs with
    | none => exact .none
    | some v => exact .some rfl
  exact List.forall₂_eq_eq_eq ▸ halong.imp fun e f hef => Prod.ext hef.1 hef.2

theorem Ascending.fileAll {es : Entries α} (h : Ascending es) (news : Entries α) :
    Ascending (fileAll news es) := by
  induction news generalizing es with
  | nil => exact h
  | cons e rest ih => exact ih (h.file e.1 e.2)

theorem ascending_nil : Ascending ([] : Entries α) := List.Pairwise.nil

theorem ascending_sorted (news : Entries α) : Ascending (sorted news) :=
  ascending_nil.fileAll news

/-- Of the values filed under a key the last is found, else what was there before. -/
theorem get?_fileAll (key : String) (news es : Entries α) :
    get? key (fileAll news es) = (get? key news.reverse).or (get? key es) := by
  induction news generalizing es with
  | nil => rfl
  | cons e rest ih =>
      obtain ⟨k, v⟩ := e
      -- the rest is filed over this entry, so it is asked first
      rw [fileAll, List.foldl_cons, ← fileAll, ih, List.reverse_cons, get?_append, get?_file,
        Option.or_assoc]
      congr 1
      by_cases hk : k = key
      · simp [hk]
      · simp [hk]

theorem get?_fileAll_of_nodup {news : Entries α} (hd : (keys news).Nodup) (key : String)
    (es : Entries α) : get? key (fileAll news es) = (get? key news).or (get? key es) := by
  rw [get?_fileAll, get?_eq_of_perm news.reverse_perm.symm hd]

theorem get?_sorted (key : String) (news : Entries α) :
    get? key (sorted news) = get? key news.reverse := by
  rw [sorted, get?_fileAll]
  cases get? key news.reverse <;> rfl

/-- A table of the values that `f` has an answer for says under each key what it says to the last
of them. -/
theorem get?_sorted_filterMap_eq_some_iff {f : α → Option β} {es : Entries α} {key : String}
    {w : β} :
    get? key (sorted (es.filterMap fun e => (f e.2).map fun w => (e.1, w))) = some w ↔
      ∃ v, LastWhere (fun e => e.1 = key ∧ ∃ w, f e.2 = some w) es (key, v) ∧ f v = some w := by
  have hasks : ∀ e : String × α, (∃ w, (if e.1 = key then f e.2 else none) = some w) ↔
      e.1 = key ∧ ∃ w, f e.2 = some w := by
    intro e
    by_cases hk : e.1 = key <;> simp [hk]
  rw [get?_sorted, ← List.filterMap_reverse, get?_filterMap_eq_findSome?,
    LastWhere.findSome?_reverse_eq_some_iff]
  simp only [hasks]
  constructor
  · rintro ⟨⟨k, v⟩, hlast, hv⟩
    obtain ⟨rfl, -⟩ := hlast.holds
    exact ⟨v, hlast, (if_pos rfl).symm.trans hv⟩
  · rintro ⟨v, hlast, hv⟩
    exact ⟨(key, v), hlast, (if_pos rfl).trans hv⟩

/-- A sorted table has under each key the last value that is listed for it. -/
theorem get?_sorted_eq_some_iff {key : String} {v : α} {news : Entries α} :
    get? key (sorted news) = some v ↔ LastWhere (fun e => e.1 = key) news (key, v) := by
  have hall : news.filterMap (fun e => (some e.2).map fun w => (e.1, w)) = news := by
    simp
  have hiff : get? key (sorted (news.filterMap fun e => (some e.2).map fun w => (e.1, w))) =
      some v ↔ ∃ w, LastWhere (fun e => e.1 = key ∧ ∃ u, some e.2 = some u) news (key, w) ∧
        some w = some v := get?_sorted_filterMap_eq_some_iff
  rw [hall] at hiff
  simpa using hiff

/-- A table in the order of its keys stays as it is. -/
theorem Ascending.sorted_eq {es : Entries α} (h : Ascending es) : sorted es = es := by
  refine (ascending_sorted es).ext h fun key => ?_
  rw [get?_sorted, get?_eq_of_perm es.reverse_perm.symm h.nodup]

/-- Only an empty list has an empty table. -/
theorem sorted_eq_nil_iff {news : Entries α} : sorted news = [] ↔ news = [] := by
  constructor
  · intro h
    refine List.reverse_eq_nil_iff.mp (eq_nil_iff_get?.mpr fun key => ?_)
    rw [← get?_sorted, h]
    rfl
  · rintro rfl
    rfl

theorem mem_keys_sorted {key : String} {news : Entries α} :
    key ∈ keys (sorted news) ↔ key ∈ keys news := by
  rw [← has_iff, has, get?_sorted, ← has, has_iff]
  simp [keys]

theorem mem_of_mem_sorted {e : String × α} {news : Entries α} (h : e ∈ sorted news) :
    e ∈ news := by
  rcases mem_of_mem_fileAll h with hnews | hnone
  · exact hnews
  · cases hnone

/-- The entries are those that `P` lists, in the order of their keys. -/
structure IsTable (P : String → α → Prop) (es : Entries α) : Prop where
  ascending : Ascending es
  entries : ∀ key v, (key, v) ∈ es ↔ P key v

theorem IsTable.eq_nil_iff {P : String → α → Prop} {es : Entries α} (h : IsTable P es) :
    es = [] ↔ ∀ key v, ¬ P key v := by
  rw [List.eq_nil_iff_forall_not_mem]
  constructor
  · intro hnone key v hP
    exact hnone (key, v) ((h.entries key v).mpr hP)
  · rintro hnone ⟨key, v⟩ hmem
    exact hnone key v ((h.entries key v).mp hmem)

/-! ## Replacing and appending -/

/-- A new key goes to the end; one that is there stays in its place. -/
theorem keys_put (key : String) (v : α) (es : Entries α) :
    keys (put key v es) = if key ∈ keys es then keys es else keys es ++ [key] := by
  induction es with
  | nil => rfl
  | cons e rest ih =>
      obtain ⟨k, w⟩ := e
      by_cases hk : k = key
      · simp [put, keys, hk]
      · have hne : ¬ key = k := Ne.symm hk
        rw [put, if_neg hk, keys, List.map_cons, ← keys, ih]
        by_cases hm : key ∈ keys rest
        · simp [keys, hne, (by simpa [keys] using hm : ∃ x, (key, x) ∈ rest)]
        · simp [keys, hne, (by simpa [keys] using hm : ∀ x, (key, x) ∉ rest)]

theorem nodup_put {es : Entries α} (hd : (keys es).Nodup) (key : String) (v : α) :
    (keys (put key v es)).Nodup := by
  rw [keys_put]
  split
  · exact hd
  · rename_i hm
    refine List.nodup_append.mpr ⟨hd, List.nodup_singleton key, ?_⟩
    rintro a ha b hb rfl
    exact hm (List.mem_singleton.mp hb ▸ ha)

theorem nodup_putAll {es : Entries α} (hd : (keys es).Nodup) (news : Entries α) :
    (keys (putAll news es)).Nodup := by
  induction news generalizing es with
  | nil => exact hd
  | cons e rest ih => exact ih (nodup_put hd e.1 e.2)

theorem nodup_putAll_nil (news : Entries α) : (keys (putAll news [])).Nodup := by
  apply nodup_putAll
  exact List.nodup_nil

theorem putAll_append (news others es : Entries α) :
    putAll (news ++ others) es = putAll others (putAll news es) :=
  List.foldl_append

/-- Of the values put under a key the last is found, else what was there before. -/
theorem get?_putAll (key : String) (news es : Entries α) :
    get? key (putAll news es) = (get? key news.reverse).or (get? key es) := by
  induction news generalizing es with
  | nil => rfl
  | cons e rest ih =>
      obtain ⟨k, v⟩ := e
      rw [putAll, List.foldl_cons, ← putAll, ih, List.reverse_cons, get?_append, get?_put,
        Option.or_assoc]
      congr 1
      by_cases hk : k = key
      · simp [hk]
      · simp [hk]

theorem get?_putAll_of_nodup {news : Entries α} (hd : (keys news).Nodup) (key : String)
    (es : Entries α) : get? key (putAll news es) = (get? key news).or (get? key es) := by
  rw [get?_putAll, get?_eq_of_perm news.reverse_perm.symm hd]

theorem put_eq_append {key : String} {es : Entries α} (h : key ∉ keys es) (v : α) :
    put key v es = es ++ [(key, v)] := by
  induction es with
  | nil => rfl
  | cons e rest ih =>
      obtain ⟨k, w⟩ := e
      rw [keys_cons, List.mem_cons, not_or] at h
      rw [put, if_neg (Ne.symm h.1), ih h.2, List.cons_append]

/-- New entries with new keys are appended. -/
theorem putAll_eq_append {news es : Entries α} (hd : (keys (es ++ news)).Nodup) :
    putAll news es = es ++ news := by
  induction news generalizing es with
  | nil => exact (List.append_nil es).symm
  | cons e rest ih =>
      rw [keys, List.map_append, List.map_cons, ← keys, ← keys] at hd
      have hnew : e.1 ∉ keys es := fun hin =>
        List.disjoint_of_nodup_append hd hin List.mem_cons_self
      rw [putAll, List.foldl_cons, put_eq_append hnew, ← putAll, ih, List.append_assoc,
        List.singleton_append]
      rw [List.append_assoc, List.singleton_append, keys, List.map_append, List.map_cons]
      exact hd

theorem mem_of_mem_put {key : String} {v : α} {e : String × α} {es : Entries α}
    (h : e ∈ put key v es) : e = (key, v) ∨ e ∈ es := by
  induction es with
  | nil => exact .inl (List.mem_singleton.mp h)
  | cons d rest ih =>
      obtain ⟨k, w⟩ := d
      rw [put] at h
      split at h
      · exact (List.mem_cons.mp h).imp_right (List.mem_cons_of_mem _)
      · rcases List.mem_cons.mp h with rfl | hrest
        · exact .inr List.mem_cons_self
        · exact (ih hrest).imp_right (List.mem_cons_of_mem _)

theorem mem_of_mem_putAll {e : String × α} {news es : Entries α} (h : e ∈ putAll news es) :
    e ∈ news ∨ e ∈ es := by
  induction news generalizing es with
  | nil => exact .inr h
  | cons d rest ih =>
      rcases ih h with hrest | hput
      · exact .inl (List.mem_cons_of_mem d hrest)
      · rcases mem_of_mem_put hput with rfl | hold
        · exact .inl List.mem_cons_self
        · exact .inr hold

/-- No key is lost or made up. -/
theorem mem_keys_putAll {key : String} {news es : Entries α} :
    key ∈ keys (putAll news es) ↔ key ∈ keys news ∨ key ∈ keys es := by
  induction news generalizing es with
  | nil => simp [putAll]
  | cons e rest ih =>
      rw [putAll, List.foldl_cons, ← putAll, ih, keys_put, keys_cons, List.mem_cons]
      split
      · rename_i hold
        constructor
        · rintro (hrest | hes)
          · exact .inl (.inr hrest)
          · exact .inr hes
        · rintro ((rfl | hrest) | hes)
          · exact .inr hold
          · exact .inl hrest
          · exact .inr hes
      · rw [List.mem_append, List.mem_singleton]
        tauto

/-- New keys follow in the order in which they first appear. -/
theorem keys_putAll (news es : Entries α) :
    keys (putAll news es) =
      keys es ++ ((keys news).filter fun key => key ∉ keys es).eraseDups := by
  induction news generalizing es with
  | nil => exact (List.append_nil _).symm
  | cons e rest ih =>
      obtain ⟨k, v⟩ := e
      rw [putAll, List.foldl_cons, ← putAll, ih, keys_put, keys_cons]
      by_cases hk : k ∈ keys es
      · rw [if_pos hk, List.filter_cons_of_neg (by simpa using hk)]
      · rw [if_neg hk, List.filter_cons_of_pos (by simpa using hk), List.eraseDups_cons,
          List.append_assoc, List.singleton_append, List.filter_filter]
        congr 3
        refine List.filter_congr fun key _ => ?_
        by_cases hkey : key = k <;> simp [hkey]

theorem keys_putAll_nil (news : Entries α) : keys (putAll news []) = (keys news).eraseDups := by
  rw [keys_putAll, keys_nil, List.nil_append]
  exact congrArg List.eraseDups (List.filter_eq_self.mpr fun key _ => by simp)

/-- Putting entries together first makes no difference to what they are put over. -/
theorem putAll_putAll_nil (news : Entries α) {es : Entries α} (hd : (keys es).Nodup) :
    putAll (putAll news []) es = putAll news es := by
  have hnews := nodup_putAll_nil news
  refine ext_of_keys_eq (nodup_putAll hd _) ?_ fun key => ?_
  · rw [keys_putAll (putAll news []), keys_putAll news es, eraseDups_of_nodup (hnews.filter _),
      keys_putAll_nil, filter_eraseDups]
  · rw [get?_putAll_of_nodup hnews, get?_putAll, get?_putAll, get?_nil, Option.or_none]

/-! ## Withdrawing -/

/-- The gap is filled with the last entry, but the entries that stay are the same. -/
theorem withdraw_perm (key : String) (es : Entries α) :
    (withdraw key es).Perm (es.eraseP fun e => e.1 == key) := by
  induction es with
  | nil => exact List.Perm.refl _
  | cons e rest ih =>
      obtain ⟨k, v⟩ := e
      by_cases hk : k = key
      · rw [withdraw, if_pos hk, List.eraseP_cons_of_pos (by simp [hk])]
        -- the last entry of the rest moves to the front, unless there is no rest
        cases hlast : rest.getLast? with
        | none => rw [List.getLast?_eq_none_iff.mp hlast]
        | some last =>
            obtain ⟨front, rfl⟩ := List.getLast?_eq_some_iff.mp hlast
            rw [List.dropLast_concat]
            exact (List.perm_append_singleton last front).symm
      · rw [withdraw, if_neg hk, List.eraseP_cons_of_neg (by simp [hk])]
        exact ih.cons _

theorem nodup_withdraw {es : Entries α} (hd : (keys es).Nodup) (key : String) :
    (keys (withdraw key es)).Nodup := by
  refine ((withdraw_perm key es).map Prod.fst).nodup_iff.mpr ?_
  exact hd.sublist ((List.eraseP_sublist).map Prod.fst)

theorem mem_of_mem_withdraw {key : String} {e : String × α} {es : Entries α}
    (h : e ∈ withdraw key es) : e ∈ es :=
  List.mem_of_mem_eraseP ((withdraw_perm key es).mem_iff.mp h)

/-- Entries of other keys stay. -/
theorem mem_withdraw_of_ne {key : String} {e : String × α} (he : e.1 ≠ key) {es : Entries α} :
    e ∈ withdraw key es ↔ e ∈ es := by
  rw [(withdraw_perm key es).mem_iff, List.mem_eraseP_of_neg (by simpa using he)]

/-- Where no key repeats, the withdrawn one is gone. -/
theorem not_mem_keys_withdraw {es : Entries α} (hd : (keys es).Nodup) (key : String) :
    key ∉ keys (withdraw key es) := by
  intro hin
  obtain ⟨v, hv⟩ := exists_of_mem_keys hin
  have herased := (withdraw_perm key es).mem_iff.mp hv
  -- the first entry of the key is erased, and there is no second one
  obtain ⟨u, front, back, hfront, hu, hes, heq⟩ :=
    List.exists_of_eraseP (p := fun e : String × α => e.1 == key)
      (List.mem_of_mem_eraseP herased) (by simp)
  rw [heq] at herased
  rw [hes, keys, List.map_append, List.map_cons, List.nodup_append, List.nodup_cons] at hd
  rcases List.mem_append.mp herased with hf | hb
  · exact hfront _ hf (by simp)
  · exact hd.2.1.1 ((beq_iff_eq.mp hu) ▸ mem_keys_of_mem hb)

end SchemaGate.Entries
