import SchemaGate.Proofs.Json.Equality
import SchemaGate.Schema.Validate

/-!
# Trees of validators

What holds of every node of a tree (`Validator.Everywhere`), and validation of a node's children
as plain maps: one outcome for each branch, for each declared property and for each other member.

The conditions on trees that statements ask for are conditions on single nodes:

* `Validator.IsTyped` says that a node is no combinator, `Validator.IsAllOf` that it is an `allOf`;
* `Validator.Sound` says that its properties have distinct names and that its default repeats no
  key, which the tables that trees are compiled from see to.
-/

namespace SchemaGate.Validator

/-! ## Nodes -/

/-- The trees directly below a node. -/
def children : Validator → List Validator
  | array _ items => [items]
  | object _ properties (.schema v) => v :: properties.map Prod.snd
  | object _ properties _ => properties.map Prod.snd
  | oneOf _ branches _ => branches
  | anyOf _ branches _ => branches
  | allOf _ branches => branches
  | _ => []

/-- Induction from the children of a node to the node. -/
theorem induct {P : Validator → Prop} (node : ∀ v, (∀ c ∈ v.children, P c) → P v)
    (v : Validator) : P v := by
  refine @Validator.rec P (fun ps => ∀ p ∈ ps, P p.2) (fun a => ∀ s, a = .schema s → P s)
    (fun vs => ∀ c ∈ vs, P c) (fun p => P p.2)
    ?_ ?_ ?_ ?_ ?_ ?_ ?_ ?_ ?_ ?_ ?_ ?_ ?_ ?_ ?_ ?_ ?_ v
  · exact fun rule => node _ fun c hc => absurd hc List.not_mem_nil
  · exact fun rule => node _ fun c hc => absurd hc List.not_mem_nil
  · exact fun rule => node _ fun c hc => absurd hc List.not_mem_nil
  · exact fun common => node _ fun c hc => absurd hc List.not_mem_nil
  · exact fun rule items ih => node _ fun c hc => List.mem_singleton.mp hc ▸ ih
  · intro rule properties additional hproperties hadditional
    have hdeclared : ∀ c ∈ properties.map Prod.snd, P c := by
      intro c hc
      obtain ⟨p, hp, rfl⟩ := List.mem_map.mp hc
      exact hproperties p hp
    refine node _ fun c hc => ?_
    cases additional with
    | schema s =>
        rcases List.mem_cons.mp hc with rfl | hc
        · exact hadditional c rfl
        · exact hdeclared c hc
    | allow => exact hdeclared c hc
    | deny => exact hdeclared c hc
  · exact fun common branches d ih => node _ ih
  · exact fun common branches d ih => node _ ih
  · exact fun common branches ih => node _ ih
  · exact fun p hp => absurd hp List.not_mem_nil
  · exact fun p ps hp hps => List.forall_mem_cons.mpr ⟨hp, hps⟩
  · exact fun s hs => by cases hs
  · exact fun s hs => by cases hs
  · exact fun s ih t ht => by cases ht; exact ih
  · exact fun c hc => absurd hc List.not_mem_nil
  · exact fun v vs hv hvs => List.forall_mem_cons.mpr ⟨hv, hvs⟩
  · exact fun name v ih => ih

/-- Every node of a tree is as `P` says. -/
inductive Everywhere (P : Validator → Prop) : Validator → Prop
  | node {v : Validator} : P v → (∀ c ∈ v.children, Everywhere P c) → Everywhere P v

theorem Everywhere.here {P : Validator → Prop} {v : Validator} (h : v.Everywhere P) : P v := by
  cases h with
  | node hP _ => exact hP

theorem Everywhere.leaf {P : Validator → Prop} {v : Validator} (h : P v) (hc : v.children = []) :
    v.Everywhere P :=
  .node h fun _ hm => absurd (hc ▸ hm) List.not_mem_nil

theorem Everywhere.child {P : Validator → Prop} {v c : Validator} (h : v.Everywhere P)
    (hc : c ∈ v.children) : c.Everywhere P := by
  cases h with
  | node _ hbelow => exact hbelow c hc

theorem Everywhere.mono {P Q : Validator → Prop} (hPQ : ∀ v, P v → Q v) {v : Validator}
    (h : v.Everywhere P) : v.Everywhere Q := by
  induction h with
  | node hP _ ih => exact .node (hPQ _ hP) ih

/-- What holds everywhere in a tree holds everywhere in the trees below each of its nodes. -/
theorem Everywhere.everywhere {P : Validator → Prop} {v : Validator} (h : v.Everywhere P) :
    v.Everywhere fun n => n.Everywhere P := by
  induction h with
  | node hP hbelow ih => exact .node (.node hP hbelow) ih

theorem mem_children_of_property {rule : ObjectRule} {properties : Entries Validator}
    {additional : Additional Validator} {name : String} {v : Validator}
    (h : (name, v) ∈ properties) : v ∈ (object rule properties additional).children := by
  have hv : v ∈ properties.map Prod.snd := List.mem_map_of_mem (f := Prod.snd) h
  cases additional with
  | schema s => exact List.mem_cons_of_mem s hv
  | _ => exact hv

/-! ## Conditions on single nodes -/

/-- The node knows the type of its inputs. -/
def IsTyped : Validator → Prop
  | oneOf _ _ _ => False
  | anyOf _ _ _ => False
  | allOf _ _ => False
  | _ => True

/-- The node merges the outputs of its branches. -/
def IsAllOf : Validator → Prop
  | allOf _ _ => True
  | _ => False

/-- The node chooses among its branches by a discriminator. -/
inductive Chooses : Validator → List Validator → Discriminator → Prop
  | oneOf {c : Common} {branches : List Validator} {d : Discriminator} :
      Chooses (.oneOf c branches (some d)) branches d
  | anyOf {c : Common} {branches : List Validator} {d : Discriminator} :
      Chooses (.anyOf c branches (some d)) branches d

/-- The declared properties have distinct names. -/
def NamesDistinct : Validator → Prop
  | object _ properties _ => (Entries.keys properties).Nodup
  | _ => True

/-- The node is made of tables in which no key repeats. -/
structure Sound (v : Validator) : Prop where
  default : ∀ d ∈ v.common.default?, d.WellFormed
  names : v.NamesDistinct

/-! ## Outcomes of children -/

theorem branchOutcomes_eq (branches : List Validator) (input : Field) (raw : Bool) :
    branchOutcomes branches input raw = branches.map fun v => v.validate input raw := by
  induction branches with
  | nil => simp [branchOutcomes]
  | cons v rest ih => rw [branchOutcomes, ih, List.map_cons]

theorem branchOutcome_eq (branches : List Validator) (index : Nat) (input : Field) (raw : Bool) :
    branchOutcome branches index input raw =
      branches[index]?.map fun v => v.validate input raw := by
  induction branches generalizing index with
  | nil => simp [branchOutcome]
  | cons v rest ih =>
      cases index with
      | zero => simp [branchOutcome]
      | succ index => simp [branchOutcome, ih]

/-- The outcome of a declared property, given the member of its name. -/
def declaredOutcome (v : Validator) (member : Option Json) (raw : Bool) : Outcome :=
  if v.isReadOnly then readOnlyOutcome member else v.validate (.ofOption member) raw

theorem propertyOutcomes_eq (properties : Entries Validator) (members : Entries Json)
    (raw : Bool) :
    propertyOutcomes properties members raw =
      properties.map fun p => (p.1, declaredOutcome p.2 (Entries.get? p.1 members) raw) := by
  induction properties with
  | nil => simp [propertyOutcomes]
  | cons p rest ih =>
      obtain ⟨name, v⟩ := p
      rw [propertyOutcomes, ih, List.map_cons, declaredOutcome]

/-- The outcomes of all members of an object: of the declared properties, then of the members
that no property declares. -/
def memberOutcomes (properties : Entries Validator) (additional : Additional Validator)
    (members : Entries Json) (raw : Bool) : Entries Outcome :=
  (properties.map fun p => (p.1, declaredOutcome p.2 (Entries.get? p.1 members) raw)) ++
    (ObjectRule.leftovers (Entries.keys properties) members).map fun m =>
      (m.1, validateAdditional additional m.2 raw)

end SchemaGate.Validator
