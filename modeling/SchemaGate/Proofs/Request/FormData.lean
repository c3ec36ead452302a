import Mathlib
import SchemaGate.Proofs.Entries
import SchemaGate.Request.Decoder
import SchemaGate.Request.Parameter

/-!
# Form data

A query string is searched for a name, pair by pair. A form body is taken up into an object that
changes while it grows: a second text under a name makes an array of the first. Yet the two are read
alike (`Form.query_and_body_alike`).

What carries this is what the object says of the pairs so far (`Form.Groups`). It holds of no pairs
and stays when one more is taken up (`Form.Groups.take`), so it holds in the end
(`Form.groups_members`).
-/

namespace SchemaGate.Form

/-! ## What an object says of pairs -/

/-- The value of so many texts, if there are any. -/
def valueOf : List String → Option Json
  | [] => none
  | [s] => some (.string s)
  | many => some (.array (many.map .string))

/-- The texts that a value was made of. -/
def textsOf : Json → List String
  | .string s => [s]
  | .array items => items.filterMap Json.string?
  | _ => []

/-- The pairs that an object was made of, name by name. -/
def pairsOf (members : Entries Json) : List (String × String) :=
  members.flatMap fun e => (textsOf e.2).map fun s => (e.1, s)

/-- The members have the pairs, each under its name. -/
structure Groups (members : Entries Json) (ps : List (String × String)) : Prop where
  /-- Every name is there once, in the order in which the names come first. -/
  keys : Entries.keys members = (ps.map Prod.fst).eraseDups
  /-- Under it are its texts in order. -/
  value : ∀ name, Entries.get? name members = valueOf (texts name ps)
  /-- No pair is lost, none is there twice, and none under another name. -/
  perm : (pairsOf members).Perm ps

/-! ## One more pair -/

theorem texts_append (name : String) (ps qs : List (String × String)) :
    texts name (ps ++ qs) = texts name ps ++ texts name qs := by
  rw [texts, List.filter_append, List.map_append]
  rfl

theorem texts_singleton (name : String) (p : String × String) :
    texts name [p] = if p.1 = name then [p.2] else [] := by
  by_cases h : p.1 = name
  · simp [texts, h]
  · simp [texts, h]

theorem join_valueOf (s : String) (ss : List String) :
    some (join s (valueOf ss)) = valueOf (ss ++ [s]) := by
  match ss with
  | [] => rfl
  | [_] => rfl
  | _ :: _ :: _ => simp [valueOf, join]

theorem textsOf_join (s : String) (v : Option Json) :
    textsOf (join s v) = (v.elim [] textsOf) ++ [s] := by
  cases v with
  | none => rfl
  | some v =>
      cases v with
      | array items => simp [join, textsOf, Json.string?]
      | _ => rfl

/-- A value with one more text under its name is one more pair. -/
theorem pairsOf_put {name s : String} {v : Json} {members : Entries Json}
    (h : textsOf v = ((Entries.get? name members).elim [] textsOf) ++ [s]) :
    (pairsOf (Entries.put name v members)).Perm (pairsOf members ++ [(name, s)]) := by
  induction members with
  | nil =>
      have hv : textsOf v = [s] := h
      simp [Entries.put, pairsOf, hv]
  | cons e rest ih =>
      obtain ⟨k, old⟩ := e
      by_cases hk : k = name
      · subst hk
        have hv : textsOf v = textsOf old ++ [s] := by simpa using h
        simp only [Entries.put, if_true, pairsOf, List.flatMap_cons, hv, List.map_append,
          List.append_assoc]
        -- the new pair moves behind the pairs of the other names
        exact List.Perm.append_left _ List.perm_append_comm
      · rw [Entries.get?_cons, if_neg hk] at h
        rw [Entries.put, if_neg hk]
        simp only [pairsOf, List.flatMap_cons, List.append_assoc] at ih ⊢
        exact (ih h).append_left _

theorem groups_nil : Groups [] [] := ⟨rfl, fun _ => rfl, List.Perm.refl _⟩

/-- The members go on having the pairs when one more is taken up. -/
theorem Groups.take {members : Entries Json} {ps : List (String × String)} (h : Groups members ps)
    (p : String × String) : Groups (take members p) (ps ++ [p]) where
  keys := by
    rw [Form.take, Entries.keys_put, h.keys, List.map_append, List.eraseDups_append]
    by_cases hname : p.1 ∈ ps.map Prod.fst
    · rw [if_pos (List.mem_eraseDups.mpr hname)]
      simp [List.removeAll, hname]
    · rw [if_neg fun hin => hname (List.mem_eraseDups.mp hin)]
      simp [List.removeAll, hname, List.eraseDups_cons]
  value name := by
    rw [Form.take, Entries.get?_put, texts_append, texts_singleton, h.value]
    by_cases hname : p.1 = name
    · rw [if_pos hname, if_pos hname, hname, join_valueOf]
    · rw [if_neg hname, if_neg hname, List.append_nil, h.value]
  perm := (pairsOf_put (textsOf_join p.2 _)).trans (h.perm.append_right [p])

/-- A form stands for an object that has its pairs. -/
theorem groups_members (ps : List (String × String)) : Groups (members ps) ps := by
  induction ps using List.reverseRecOn with
  | nil => exact groups_nil
  | append_singleton ps p ih =>
      rw [members, List.foldl_append]
      exact ih.take p

/-! ## Queries and bodies -/

/-- What so many texts stand for is the value of them, as an input. -/
theorem ofOption_valueOf (ss : List String) : Field.ofOption (valueOf ss) = ofTexts ss := by
  match ss with
  | [] => rfl
  | [_] => rfl
  | _ :: _ :: _ => rfl

/-- A parameter of a query string is what a form body of the same text has under its name. And the
object of any body has the pairs of that body. -/
theorem query_and_body_alike :
    (∀ (text name : String) (v : Validator) (required : Bool) (r : Request),
      ∃ ms, Decoder.form (Utf8.encode text) = .ok ⟨.value (.object ms), true⟩ ∧
        (Parameter.mk name .query v required).extract
            ({ r with query := [] }.withQueryString text).surface =
          Field.ofOption (Entries.get? name ms)) ∧
      ∀ body, ∃ ms, Decoder.form body = .ok ⟨.value (.object ms), true⟩ ∧
        Groups ms (pairs body) := by
  constructor
  · intro text name v required r
    refine ⟨_, rfl, ?_⟩
    rw [(groups_members _).value, ofOption_valueOf]
    rfl
  · intro body
    exact ⟨_, rfl, groups_members _⟩

/-- The second name comes in between, and keeps its place. -/
example : members [("a", "1"), ("b", "x"), ("a", "2"), ("a", "3")] =
    [("a", .array [.string "1", .string "2", .string "3"]), ("b", .string "x")] := by
  cbv

end SchemaGate.Form
