import Mathlib.Logic.Relation
import ToolChat.Proofs.Schema.Closure

/-!
What a call does to the memory of a session, whether it succeeds or not.

A call refers to types that have not been built and settles each of them at most once; so what was
built stays as it is, and nothing is taken back. This holds of calls that fail as well, so the
proofs go over all outcomes: `generate_induction` has one case for each way in which a shape is met.
-/

set_option autoImplicit false

namespace ToolChat

variable {index : ShapeIndex} {expanding : List String} {memory : Memory} {shape : Shape}
  {name : String}

section Equations

theorem any_name_iff {done : List (String × Schema)} :
    (done.any fun pair => pair.1 == name) = true ↔ name ∈ done.map (·.1) := by
  simp only [List.any_eq_true, beq_iff_eq, List.mem_map]

theorem generateShape_of_plain {schema : Schema} (plain : shape.plain? = some schema) :
    generateShape index expanding shape memory = (.ok schema, memory) := by
  cases shape <;> cases plain <;> rw [generateShape]

theorem generateShape_of_item {item : Shape} (items : shape.item? = some item) :
    generateShape index expanding shape memory =
      ((generateShape index expanding item memory).1.map (Schema.array · none),
        (generateShape index expanding item memory).2) := by
  cases shape <;> cases items <;>
  · rw [generateShape]
    split
    · next made => rw [made, Except.map]
    · next failed => rw [failed, Except.map]

theorem generateShape_within (named : shape.typeName? = some name) (within : name ∈ expanding) :
    generateShape index expanding shape memory =
      (.ok (.reference (referenceId name)), (memory.refer name).2) := by
  cases shape with
  | object object =>
    obtain ⟨own, fields⟩ := object
    cases named
    rw [generateShape, if_pos within]
    rfl
  | ref own =>
    cases named
    rw [generateShape, dif_pos within]
    rfl
  | _ => cases named

theorem generateShape_built {schema : Schema} (named : shape.typeName? = some name)
    (outside : name ∉ expanding) (built : memory.built? name = some schema) :
    generateShape index expanding shape memory = (.ok schema, memory) := by
  cases shape with
  | object object =>
    obtain ⟨own, fields⟩ := object
    cases named
    rw [generateShape, if_neg outside, built]
  | ref own =>
    cases named
    rw [generateShape, dif_neg outside, built]
  | _ => cases named

theorem generateShape_unresolved (outside : name ∉ expanding) (new : memory.built? name = none)
    (missing : index.resolve? name = none) :
    generateShape index expanding (.ref name) memory =
      (.error (.unresolvedReference name), memory) := by
  rw [generateShape, dif_neg outside, new]
  dsimp only
  split
  · rfl
  · next found =>
    rw [missing] at found
    cases found

theorem generateShape_of_target {object : ObjectShape} (target : shape.target? index = some object)
    (outside : object.name ∉ expanding) (new : memory.built? object.name = none) :
    generateShape index expanding shape memory =
      settleObject object.name
        (generateFields index (object.name :: expanding) object.name [] object.fields memory) := by
  cases shape with
  | object own =>
    obtain ⟨name, fields⟩ := own
    cases target
    rw [generateShape, if_neg outside, new]
  | ref name =>
    obtain ⟨-, rfl⟩ := ShapeIndex.mem_of_resolve?_eq_some target
    exact generateShape_resolved outside new target
  | _ => cases target

theorem generateFields_cons {owner : String} {done : List (String × Schema)} {field : Field}
    {fields : List Field} (new : field.name ∉ done.map (·.1)) :
    generateFields index expanding owner done (field :: fields) memory =
      match generateShape index expanding field.shape memory with
      | (.error e, between) => (.error e, between)
      | (.ok schema, between) =>
        generateFields index expanding owner
          (done ++ [(field.name, schema.describeWith field.description)]) fields between := by
  obtain ⟨name, shape, description, nullable⟩ := field
  rw [generateFields]
  exact if_neg (mt any_name_iff.1 new)

theorem generateFields_twice {owner : String} {done : List (String × Schema)} {field : Field}
    {fields : List Field} (twice : field.name ∈ done.map (·.1)) :
    generateFields index expanding owner done (field :: fields) memory =
      (.error (.duplicateProperty owner field.name), memory) := by
  obtain ⟨name, shape, description, nullable⟩ := field
  rw [generateFields, if_pos (any_name_iff.2 twice)]

end Equations

/-- A property of all shapes and all fields holds if it passes from what is generated below. -/
theorem generate_induction (index : ShapeIndex) {P : List String → Shape → Memory → Prop}
    {Q : List String → String → List (String × Schema) → List Field → Memory → Prop}
    (plain : ∀ expanding shape memory schema, shape.plain? = some schema →
      P expanding shape memory)
    (array : ∀ expanding shape item memory, shape.item? = some item → P expanding item memory →
      P expanding shape memory)
    (map : ∀ expanding value memory, P expanding (.map value) memory)
    (within : ∀ expanding shape name memory, shape.typeName? = some name → name ∈ expanding →
      P expanding shape memory)
    (built : ∀ expanding shape name memory schema, shape.typeName? = some name →
      name ∉ expanding → memory.built? name = some schema → P expanding shape memory)
    (unresolved : ∀ expanding name memory, name ∉ expanding → memory.built? name = none →
      index.resolve? name = none → P expanding (.ref name) memory)
    (expanded : ∀ expanding shape object memory, shape.target? index = some object →
      object.name ∉ expanding → memory.built? object.name = none →
      Q (object.name :: expanding) object.name [] object.fields memory → P expanding shape memory)
    (undescribed : ∀ expanding name memory, P expanding (.undescribed name) memory)
    (done : ∀ expanding owner done memory, Q expanding owner done [] memory)
    (twice : ∀ expanding owner done field fields memory, field.name ∈ done.map (·.1) →
      Q expanding owner done (field :: fields) memory)
    (field : ∀ expanding owner done field fields memory, field.name ∉ done.map (·.1) →
      P expanding field.shape memory →
      (∀ schema between,
        generateShape index expanding field.shape memory = (.ok schema, between) →
          Q expanding owner (done ++ [(field.name, schema.describeWith field.description)]) fields
            between) →
      Q expanding owner done (field :: fields) memory) :
    (∀ expanding shape memory, P expanding shape memory) ∧
      ∀ expanding owner done fields memory, Q expanding owner done fields memory := by
  apply generateShape.mutual_induct index P Q
  case case1 | case2 | case5 =>
    intro expanding memory kind
    exact plain _ _ _ _ rfl
  case case3 | case4 =>
    intro expanding memory
    exact plain _ _ _ _ rfl
  case case6 | case8 =>
    intro expanding memory item _ _ _ below
    exact array _ _ item _ rfl below
  case case7 | case9 =>
    intro expanding memory item _ _ _ below
    exact array _ _ item _ rfl below
  case case10 | case11 =>
    intro expanding memory value
    intros
    exact map _ _ _
  case case12 =>
    intro expanding memory name fields mem
    intros
    exact within _ _ name _ rfl mem
  case case13 =>
    intro expanding memory name fields outside found before
    exact built _ _ name _ found rfl outside before
  case case14 =>
    intro expanding memory name fields outside new below
    exact expanded _ _ ⟨name, fields⟩ _ rfl outside new below
  case case15 =>
    intro expanding memory name mem
    intros
    exact within _ _ name _ rfl mem
  case case16 =>
    intro expanding memory name outside found before
    exact built _ _ name _ found rfl outside before
  case case17 =>
    intro expanding memory name outside new missing
    exact unresolved _ _ _ outside new missing
  case case18 =>
    intro expanding memory name outside new target found below
    obtain ⟨-, rfl⟩ := ShapeIndex.mem_of_resolve?_eq_some found
    exact expanded _ _ target _ found outside new below
  case case19 =>
    intro expanding memory name
    exact undescribed _ _ _
  case case20 =>
    intro expanding owner properties memory
    exact done _ _ _ _
  case case21 =>
    intro expanding owner properties memory name shape description nullable fields used
    exact twice _ _ _ ⟨name, shape, description, nullable⟩ _ _ (any_name_iff.1 used)
  case case22 =>
    intro expanding owner properties memory name shape description nullable fields unused e between
      failed first
    refine field _ _ _ ⟨name, shape, description, nullable⟩ _ _ (mt any_name_iff.2 unused) first ?_
    intro schema between made
    rw [failed] at made
    cases made
  case case23 =>
    intro expanding owner properties memory name shape description nullable fields unused schema
      between made first rest
    refine field _ _ _ ⟨name, shape, description, nullable⟩ _ _ (mt any_name_iff.2 unused) first ?_
    intro schema' between' again
    rw [made] at again
    cases again
    exact rest

namespace Memory

/-- What may happen to a memory at once. -/
inductive Step (memory : Memory) : Memory → Prop
  | refer {name : String} (new : memory.built? name = none) : Step memory (memory.refer name).2
  | settle {name : String} {schema : Schema} (new : memory.built? name = none)
      (refs : schema.refs ⊆ memory.referred) : Step memory (memory.settle name schema)

abbrev Steps : Memory → Memory → Prop := Relation.ReflTransGen Step

def Refers (memory : Memory) : Prop :=
  ∀ pair ∈ memory.built, pair.2.refs ⊆ memory.referred

variable {before after : Memory}

theorem built?_settle (memory : Memory) (name : String) (schema : Schema) :
    (memory.settle name schema).built? name = some schema :=
  List.lookup_cons_self

theorem built?_settle_of_ne {other : String} (differs : other ≠ name) (schema : Schema) :
    (memory.settle name schema).built? other = memory.built? other := by
  rw [built?, Memory.settle, List.lookup_cons, beq_eq_false_iff_ne.2 differs]
  rfl

theorem built?_settle_of_eq_some (new : memory.built? name = none) (schema : Schema)
    {other : String} {old : Schema} (built : memory.built? other = some old) :
    (memory.settle name schema).built? other = some old := by
  rw [built?_settle_of_ne ?_ schema]
  · exact built
  · rintro rfl
    rw [new] at built
    cases built

theorem Step.built?_eq_some (step : before.Step after) {schema : Schema}
    (h : before.built? name = some schema) : after.built? name = some schema := by
  cases step with
  | refer _ => exact h
  | settle new _ => exact built?_settle_of_eq_some new _ h

theorem Steps.built?_eq_some (steps : before.Steps after) {schema : Schema}
    (h : before.built? name = some schema) : after.built? name = some schema := by
  induction steps with
  | refl => exact h
  | tail _ step ih => exact step.built?_eq_some ih

theorem Step.built?_eq_none (step : before.Step after) (h : after.built? name = none) :
    before.built? name = none := by
  cases old : before.built? name with
  | none => rfl
  | some schema =>
    rw [step.built?_eq_some old] at h
    cases h

theorem Step.keys_subset (step : before.Step after) : before.keys ⊆ after.keys := by
  cases step with
  | refer _ => exact List.Subset.refl _
  | settle _ _ => exact fun id h => mem_keys_settle.2 (.inr h)

theorem Steps.keys_subset (steps : before.Steps after) : before.keys ⊆ after.keys := by
  induction steps with
  | refl => exact List.Subset.refl _
  | tail _ step ih => exact List.Subset.trans ih step.keys_subset

theorem Steps.length_built_le (steps : before.Steps after) :
    before.built.length ≤ after.built.length := by
  induction steps with
  | refl => exact Nat.le_refl _
  | tail _ step ih =>
    cases step with
    | refer _ => exact ih
    | settle _ _ => exact Nat.le_succ_of_le ih

theorem Steps.definitions_eq (steps : before.Steps after) (same : after.built = before.built) :
    after.definitions = before.definitions := by
  induction steps using Relation.ReflTransGen.head_induction_on with
  | refl => rfl
  | head step rest ih =>
    cases step with
    | refer _ => exact ih same
    | settle _ _ =>
      have longer := Steps.length_built_le rest
      rw [same] at longer
      exact absurd longer (Nat.not_succ_le_self _)

theorem Steps.exists_built (steps : before.Steps after) (grown : after.built ≠ before.built) :
    ∃ name schema, before.built? name = none ∧ after.built? name = some schema := by
  induction steps using Relation.ReflTransGen.head_induction_on with
  | refl => exact absurd rfl grown
  | head step rest ih =>
    cases step with
    | refer _ => exact ih grown
    | @settle name schema new _ =>
      exact ⟨name, schema, new, Steps.built?_eq_some rest (built?_settle _ name schema)⟩

theorem Steps.mem_referred (steps : before.Steps after) {id : String} (h : id ∈ after.referred) :
    id ∈ before.referred ∨ ∃ name, id = referenceId name ∧ before.built? name = none := by
  induction steps using Relation.ReflTransGen.head_induction_on with
  | refl => exact .inl h
  | head step rest ih =>
    rcases ih with old | ⟨name, rfl, new⟩
    · cases step with
      | refer new =>
        rcases List.mem_cons.1 old with rfl | older
        · exact .inr ⟨_, rfl, new⟩
        · exact .inl older
      | settle _ _ => exact .inl old
    · exact .inr ⟨name, rfl, step.built?_eq_none new⟩

theorem Steps.keys_referred (steps : before.Steps after) (h : before.keys ⊆ before.referred) :
    after.keys ⊆ after.referred := by
  induction steps with
  | refl => exact h
  | tail _ step ih =>
    cases step with
    | refer _ => exact List.Subset.trans ih (List.subset_cons_self _ _)
    | settle _ _ =>
      intro id key
      rcases mem_keys_settle.1 key with ⟨rfl, referred⟩ | key
      · exact referred
      · exact ih key

theorem Steps.referred_subset (steps : before.Steps after) : before.referred ⊆ after.referred := by
  induction steps with
  | refl => exact List.Subset.refl _
  | tail _ step ih =>
    cases step with
    | refer _ => exact List.Subset.trans ih (List.subset_cons_self _ _)
    | settle _ _ => exact ih

theorem Steps.refers (steps : before.Steps after) (h : before.Refers) : after.Refers := by
  induction steps with
  | refl => exact h
  | tail _ step ih =>
    cases step with
    | refer _ =>
      exact fun pair mem => List.Subset.trans (ih pair mem) (List.subset_cons_self _ _)
    | settle _ refs => exact List.forall_mem_cons.2 ⟨refs, ih⟩

theorem Refers.refs_of_built (refers : memory.Refers) {schema : Schema}
    (built : memory.built? name = some schema) : schema.refs ⊆ memory.referred :=
  refers (name, schema) (mem_of_built? built)

def Open (memory : Memory) (expanding : List String) : Prop :=
  ∀ name ∈ expanding, memory.built? name = none

theorem Open.settle {schema : Schema} (h : memory.Open expanding) (outside : name ∉ expanding) :
    (memory.settle name schema).Open expanding := by
  intro other mem
  have differs : other ≠ name := fun same => outside (same ▸ mem)
  rw [built?_settle_of_ne differs]
  exact h other mem

end Memory

/-- What comes of generating a schema inside some objects: an outcome, and a memory to which the
references of a schema are known. -/
structure Grows (expanding : List String) (before : Memory) (outcome : Generated Schema) :
    Prop where
  steps : before.Steps outcome.2
  opened : outcome.2.Open expanding
  refs : ∀ schema, outcome.1 = .ok schema → schema.refs ⊆ outcome.2.referred

theorem Grows.still {schema : Schema} (opened : memory.Open expanding)
    (refs : schema.refs ⊆ memory.referred) : Grows expanding memory (.ok schema, memory) := by
  refine ⟨.refl, opened, fun made same => ?_⟩
  cases same
  exact refs

theorem Grows.failed {before after : Memory} {e : SchemaError} (steps : before.Steps after)
    (opened : after.Open expanding) : Grows expanding before (.error e, after) :=
  ⟨steps, opened, nofun⟩

/-- Whatever comes of it, generating takes the memory through some steps, and what is being expanded
is not built by it. -/
theorem grows_of_generate (index : ShapeIndex) :
    (∀ expanding shape memory, memory.Open expanding → memory.Refers →
      Grows expanding memory (generateShape index expanding shape memory)) ∧
    ∀ expanding owner done fields memory, memory.Open expanding → memory.Refers →
      Schema.refsOf done ⊆ memory.referred →
      Grows expanding memory (generateFields index expanding owner done fields memory) := by
  apply generate_induction index
  case plain =>
    intro expanding shape memory schema plain opened refers
    rw [generateShape_of_plain plain]
    refine .still opened ?_
    rw [Schema.refs_of_plain plain]
    exact List.nil_subset _
  case array =>
    intro expanding shape item memory items below opened refers
    rw [generateShape_of_item items]
    have grown := below opened refers
    refine ⟨grown.steps, grown.opened, fun schema same => ?_⟩
    cases made : (generateShape index expanding item memory).1 with
    | error e =>
      rw [made] at same
      cases same
    | ok inner =>
      rw [made] at same
      cases same
      exact grown.refs inner made
  case map =>
    intro expanding value memory opened refers
    rw [generateShape]
    split
    · exact .still opened (List.nil_subset _)
    · exact .failed .refl opened
  case within =>
    intro expanding shape name memory named mem opened refers
    rw [generateShape_within named mem]
    refine ⟨.single (.refer (opened name mem)), opened, fun schema same id ref => ?_⟩
    cases same
    rw [List.mem_singleton.1 ref]
    exact List.mem_cons_self
  case built =>
    intro expanding shape name memory schema named outside built opened refers
    rw [generateShape_built named outside built]
    exact .still opened (refers.refs_of_built built)
  case unresolved =>
    intro expanding name memory outside new missing opened refers
    rw [generateShape_unresolved outside new missing]
    exact .failed .refl opened
  case expanded =>
    intro expanding shape object memory target outside new below opened refers
    rw [generateShape_of_target target outside new]
    have grown := below (List.forall_mem_cons.2 ⟨new, opened⟩) refers (List.nil_subset _)
    obtain ⟨pending, around⟩ := List.forall_mem_cons.1 grown.opened
    cases made : generateFields index (object.name :: expanding) object.name [] object.fields memory
      with
    | mk outcome after =>
      rw [made] at grown pending around
      cases outcome with
      | error e => exact .failed grown.steps around
      | ok schema =>
        have refs := grown.refs schema rfl
        refine ⟨grown.steps.tail (.settle pending refs), Memory.Open.settle around outside, ?_⟩
        rintro _ ⟨⟩
        exact refs
  case undescribed =>
    intro expanding name memory opened refers
    rw [generateShape]
    exact .failed .refl opened
  case done =>
    intro expanding owner done memory opened refers known
    rw [generateFields]
    exact .still opened known
  case twice =>
    intro expanding owner done field fields memory twice opened refers known
    rw [generateFields_twice twice]
    exact .failed .refl opened
  case field =>
    intro expanding owner done field fields memory new first rest opened refers known
    rw [generateFields_cons new]
    have grown := first opened refers
    cases made : generateShape index expanding field.shape memory with
    | mk outcome between =>
      rw [made] at grown
      cases outcome with
      | error e => exact .failed grown.steps grown.opened
      | ok schema =>
        have others := rest schema between made grown.opened (grown.steps.refers refers) (by
          rw [Schema.refsOf_append, Schema.refsOf, Schema.refs_describeWith, Schema.refsOf,
            List.append_nil]
          exact List.append_subset.2
            ⟨List.Subset.trans known grown.steps.referred_subset, grown.refs schema rfl⟩)
        exact ⟨grown.steps.trans others.steps, others.opened, others.refs⟩

end ToolChat
