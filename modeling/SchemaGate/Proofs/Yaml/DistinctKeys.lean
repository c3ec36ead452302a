import SchemaGate.Proofs.Json.Equality
import SchemaGate.Yaml.Value

/-!
# Values of texts repeat no key

A mapping puts its entries into an object one after the other, so that of entries with the same key
only the last is left. No object in the value of a text has a key twice
(`Json.wellFormed_of_ofYaml?`).

The value is built while aliases are counted, which may fail at every step. `Yaml.Yields` says what
holds of all that such steps can end with.
-/

namespace SchemaGate

namespace Yaml

/-! ## What budgeted steps end with -/

section

variable {α β : Type} {P : α → Prop} {Q : β → Prop}

/-- Whatever aliases are left, the result has the property if there is one. -/
def Yields (P : α → Prop) (x : Budget α) : Prop :=
  ∀ before a after, x.run before = some (a, after) → P a

theorem yields_pure {a : α} (h : P a) : Yields P (pure a) := by
  rintro before b after ⟨⟩
  exact h

theorem yields_failure : Yields P failure := by
  rintro before a after ⟨⟩

theorem Yields.bind {x : Budget α} {k : α → Budget β} (hx : Yields P x)
    (hk : ∀ a, P a → Yields Q (k a)) : Yields Q (x >>= k) := by
  intro before b after h
  rw [StateT.run_bind] at h
  obtain ⟨⟨a, between⟩, ha, hb⟩ := Option.bind_eq_some_iff.mp h
  exact hk a (hx before a between ha) between b after hb

/-- Nothing has to be known of the first result. -/
theorem yields_bind {x : Budget α} {k : α → Budget β} (hk : ∀ a, Yields Q (k a)) :
    Yields Q (x >>= k) :=
  Yields.bind (P := fun _ => True) (fun _ _ _ _ => trivial) fun a _ => hk a

/-- What each step yields is yielded for all elements. -/
theorem yields_mapM {f : α → Budget β} (hf : ∀ a, Yields Q (f a)) (as : List α) :
    Yields (fun bs => ∀ b ∈ bs, Q b) (as.mapM f) := by
  induction as with
  | nil =>
      rw [List.mapM_nil]
      exact yields_pure fun b hb => absurd hb List.not_mem_nil
  | cons a rest ih =>
      rw [List.mapM_cons]
      refine (hf a).bind fun b hb => ih.bind fun bs hbs => yields_pure ?_
      exact List.forall_mem_cons.mpr ⟨hb, hbs⟩

theorem yields_foldlM {f : β → α → Budget β} (hf : ∀ b a, Q b → Yields Q (f b a)) (as : List α)
    {b : β} (hb : Q b) : Yields Q (as.foldlM f b) := by
  induction as generalizing b with
  | nil => exact yields_pure hb
  | cons a rest ih =>
      rw [List.foldlM_cons]
      exact (hf b a hb).bind fun c hc => ih hc

end

/-! ## Values -/

/-- Scalars hold nothing that could repeat a key. -/
theorem wellFormed_of_scalarValue? {tag : Option Tag} {plain : Bool} {s : String} {v : Json}
    (h : scalarValue? tag plain s = some v) : v.WellFormed := by
  have hinteger : ∀ {n : Int} {w : Json}, integerValue? n = some w → w.WellFormed := by
    intro n w hw
    obtain ⟨k, -, rfl⟩ := Option.map_eq_some_iff.mp hw
    trivial
  have hfloat : ∀ {t : String} {w : Json}, floatValue? t = some w → w.WellFormed := by
    intro t w hw
    unfold floatValue? at hw
    split at hw
    · cases hw
      trivial
    · obtain ⟨x, -, rfl⟩ := Option.map_eq_some_iff.mp hw
      trivial
  unfold scalarValue? at h
  split at h
  · split at h
    · unfold plainValue? at h
      split at h
      · cases h
        trivial
      · split at h
        · cases h
          trivial
        · split at h
          · exact hinteger h
          · split at h
            · cases h
              trivial
            · cases hf : floatValue? s with
              | none =>
                  rw [hf] at h
                  cases h
                  trivial
              | some w =>
                  rw [hf] at h
                  cases h
                  exact hfloat hf
    · cases h
      trivial
  · obtain ⟨b, -, rfl⟩ := Option.map_eq_some_iff.mp h
    trivial
  · obtain ⟨n, -, hn⟩ := Option.bind_eq_some_iff.mp h
    exact hinteger hn
  · exact hfloat h
  · split at h
    · cases h
      trivial
    · cases h
  · cases h
  · cases h
    trivial

theorem yields_scalar (tag : Option Tag) (plain : Bool) (s : String) :
    Yields Json.WellFormed ((scalarValue? tag plain s).elim failure pure) := by
  cases hv : scalarValue? tag plain s with
  | none => exact yields_failure
  | some v => exact yields_pure (wellFormed_of_scalarValue? hv)

/-- One more entry leaves an object as it should be. -/
theorem wellFormed_put {members : Entries Json} (h : (Json.object members).WellFormed)
    (key : String) {v : Json} (hv : v.WellFormed) :
    (Json.object (Entries.put key v members)).WellFormed := by
  obtain ⟨hkeys, hvalues⟩ := Json.wellFormed_object.mp h
  refine Json.wellFormed_object.mpr ⟨Entries.nodup_put hkeys key v, fun m hm => ?_⟩
  rcases Entries.mem_of_mem_put hm with rfl | hold
  · exact hv
  · exact hvalues m hold

/-- Every value that is built from nodes repeats no key, since a key that comes again replaces the
value. -/
theorem yields_value (anchored : List (Nat × Node)) (depth : Nat) (n : Node) :
    Yields Json.WellFormed (value anchored depth n) := by
  induction depth generalizing n with
  | zero =>
      rw [value]
      refine yields_bind fun node => ?_
      cases node with
      | scalar p plain text => exact yields_scalar p.tag plain text
      | _ => exact yields_failure
  | succ depth ih =>
      rw [value]
      refine yields_bind fun node => ?_
      cases node with
      | aliasOf a => exact yields_failure
      | scalar p plain text => exact yields_scalar p.tag plain text
      | sequence p items =>
          have hitems : Yields Json.WellFormed (do
              let vs ← items.mapM (value anchored depth)
              return .array vs) :=
            (yields_mapM ih items).bind fun vs hvs => yields_pure (Json.wellFormed_array.mpr hvs)
          dsimp only
          split
          · exact yields_bind fun _ => hitems
          · exact hitems
      | mapping p entries =>
          -- the entries so far are an object at every step of the fold
          have hstep : ∀ (members : Entries Json) (e : Node × Node),
              (Json.object members).WellFormed →
              Yields (fun ms => (Json.object ms).WellFormed) (do
                let key ← keyText? anchored e.1
                return Entries.put key (← value anchored depth e.2) members) := by
            intro members e hmembers
            refine yields_bind fun key => (ih e.2).bind fun v hv => yields_pure ?_
            exact wellFormed_put hmembers key hv
          have hentries := yields_foldlM hstep entries (b := [])
            (Json.wellFormed_object.mpr ⟨List.nodup_nil, fun m hm => absurd hm List.not_mem_nil⟩)
          have hmapping := hentries.bind fun ms hms => yields_pure (P := Json.WellFormed) hms
          dsimp only
          split
          · exact yields_bind fun _ => hmapping
          · exact hmapping

end Yaml

/-- No object in the value of a text repeats a key. -/
theorem Json.wellFormed_of_ofYaml? {text : String} {v : Json} (h : ofYaml? text = some v) :
    v.WellFormed := by
  obtain ⟨n, -, hn⟩ := Option.bind_eq_some_iff.mp h
  obtain ⟨⟨w, left⟩, hrun, rfl⟩ := Option.map_eq_some_iff.mp hn
  exact Yaml.yields_value _ _ n _ w left hrun

end SchemaGate
