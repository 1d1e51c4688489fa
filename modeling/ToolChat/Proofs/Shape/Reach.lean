import Mathlib.Logic.Relation
import ToolChat.Proofs.Schema.Derivation

/-!
What shapes lead to.

A shape leads to that of its items, to that of its values, and to those of the fields of the record
type that it is or names. A walk need not follow the fields of a record type twice: if a family of
names is closed, then whatever is reached from a shape within the family is within it.
-/

set_option autoImplicit false

namespace ToolChat

namespace ShapeIndex

theorem contains_eq_isSome (index : ShapeIndex) (name : String) :
    index.contains name = (index.resolve? name).isSome := by
  unfold contains resolve?
  rw [Bool.eq_iff_iff, List.any_eq_true, List.find?_isSome]

end ShapeIndex

namespace Shape

inductive Part (index : ShapeIndex) : Shape → Shape → Prop
  | item {shape item : Shape} (items : shape.item? = some item) : Part index shape item
  | field {shape : Shape} {object : ObjectShape} {field : Field}
      (target : shape.target? index = some object) (inside : field ∈ object.fields) :
      Part index shape field.shape

inductive Leads (index : ShapeIndex) : Shape → Shape → Prop
  | part {shape next : Shape} (part : Part index shape next) : Leads index shape next
  | value {value : Shape} : Leads index (.map value) value

abbrev Reaches (index : ShapeIndex) : Shape → Shape → Prop :=
  Relation.ReflTransGen (Leads index)

abbrev ReachesOutside (index : ShapeIndex) : Shape → Shape → Prop :=
  Relation.ReflTransGen (Part index)

/-- The shape has a structural description: it is one, or a name that stands for one. -/
def Declared (index : ShapeIndex) : Shape → Prop
  | .ref name => index.contains name = true
  | .undescribed _ => False
  | _ => True

/-- Everything that a shape reaches is declared, and every record type that it reaches outside of
maps has distinct names of fields. -/
structure Sound (index : ShapeIndex) (shape : Shape) : Prop where
  declared : ∀ reached, shape.Reaches index reached → reached.Declared index
  distinct : ∀ reached object, shape.ReachesOutside index reached →
    reached.target? index = some object → (object.fields.map (·.name)).Nodup

variable {index : ShapeIndex}

theorem Sound.part {shape next : Shape} (sound : shape.Sound index) (part : Part index shape next) :
    next.Sound index where
  declared reached h := sound.declared reached (.head (.part part) h)
  distinct reached object h := sound.distinct reached object (.head part h)

/-- The record types at the head of a shape have names in a family: in `outer` outside of maps, in
`inner` inside of them. -/
def Within (index : ShapeIndex) (outer inner : String → Prop) : Shape → Prop
  | .object record => outer record.name ∧ index.resolve? record.name = some record
  | .ref name => outer name
  | .list item | .set item => item.Within index outer inner
  | .map value => value.Within index inner inner
  | .undescribed _ => False
  | _ => True

private theorem within_mono {outer outer' inner inner' : String → Prop}
    (wider : ∀ name, outer name → outer' name) (deeper : ∀ name, inner name → inner' name) :
    (shape : Shape) → shape.Within index outer inner → shape.Within index outer' inner'
  | .object _, h => ⟨wider _ h.1, h.2⟩
  | .ref _, h => wider _ h
  | .list item, h | .set item, h => within_mono wider deeper item h
  | .map value, h => within_mono deeper deeper value h
  | .integer _, _ | .number _, _ | .boolean, _ | .string, _ | .enumeration _, _ => trivial

theorem Within.mono {shape : Shape} {outer outer' inner inner' : String → Prop}
    (within : shape.Within index outer inner) (wider : ∀ name, outer name → outer' name)
    (deeper : ∀ name, inner name → inner' name) : shape.Within index outer' inner' :=
  within_mono wider deeper shape within

theorem Within.item {outer inner : String → Prop} {shape item : Shape}
    (within : shape.Within index outer inner) (items : shape.item? = some item) :
    item.Within index outer inner := by
  cases shape with
  | list inside =>
    cases items
    exact within
  | set inside =>
    cases items
    exact within
  | _ => cases items

theorem Within.target {outer inner : String → Prop} {shape : Shape} {object : ObjectShape}
    (within : shape.Within index outer inner) (target : shape.target? index = some object) :
    outer object.name ∧ index.resolve? object.name = some object := by
  cases shape with
  | object _ =>
    cases target
    exact within
  | ref name =>
    have resolved : index.resolve? name = some object := target
    obtain ⟨-, rfl⟩ := ShapeIndex.mem_of_resolve?_eq_some resolved
    exact ⟨within, resolved⟩
  | _ => cases target

/-- Each record type of a family has its parts in the family, unless its fields are still to be
followed. Outside of maps the names of its fields are distinct as well. -/
structure Family (index : ShapeIndex) (pending : List String) (outer inner : String → Prop) :
    Prop where
  subset : ∀ name, outer name → inner name
  outer : ∀ name, outer name → name ∈ pending ∨ ∃ object, index.resolve? name = some object ∧
    (object.fields.map (·.name)).Nodup ∧ ∀ field ∈ object.fields,
      field.shape.Within index outer inner
  inner : ∀ name, inner name → name ∈ pending ∨ ∃ object, index.resolve? name = some object ∧
    ∀ field ∈ object.fields, field.shape.Within index inner inner

section Closed

variable {outer inner : String → Prop} (family : Family index [] outer inner)
include family

theorem Family.exists_inner {name : String} (h : inner name) :
    ∃ object, index.resolve? name = some object ∧
      ∀ field ∈ object.fields, field.shape.Within index inner inner := by
  rcases family.inner name h with pending | found
  · cases pending
  · exact found

theorem Family.exists_outer {name : String} (h : outer name) :
    ∃ object, index.resolve? name = some object ∧ (object.fields.map (·.name)).Nodup ∧
      ∀ field ∈ object.fields, field.shape.Within index outer inner := by
  rcases family.outer name h with pending | found
  · cases pending
  · exact found

theorem Family.target_outer {shape : Shape} {object : ObjectShape}
    (within : shape.Within index outer inner) (target : shape.target? index = some object) :
    (object.fields.map (·.name)).Nodup ∧
      ∀ field ∈ object.fields, field.shape.Within index outer inner := by
  obtain ⟨inside, resolved⟩ := within.target target
  obtain ⟨found, known, closed⟩ := family.exists_outer inside
  have same : found = object := Option.some.inj (known.symm.trans resolved)
  rwa [same] at closed

theorem Family.target_inner {shape : Shape} {object : ObjectShape}
    (within : shape.Within index inner inner) (target : shape.target? index = some object) :
    ∀ field ∈ object.fields, field.shape.Within index inner inner := by
  obtain ⟨inside, resolved⟩ := within.target target
  obtain ⟨found, known, closed⟩ := family.exists_inner inside
  have same : found = object := Option.some.inj (known.symm.trans resolved)
  rwa [same] at closed

theorem Family.within_of_reachesOutside {shape reached : Shape}
    (within : shape.Within index outer inner) (h : shape.ReachesOutside index reached) :
    reached.Within index outer inner := by
  induction h with
  | refl => exact within
  | tail _ part ih =>
    cases part with
    | item items => exact ih.item items
    | field target inside => exact (family.target_outer ih target).2 _ inside

theorem Family.within_of_reaches {shape reached : Shape}
    (within : shape.Within index inner inner) (h : shape.Reaches index reached) :
    reached.Within index inner inner := by
  induction h with
  | refl => exact within
  | tail _ step ih =>
    cases step with
    | value => exact ih
    | part part =>
      cases part with
      | item items => exact ih.item items
      | field target inside => exact family.target_inner ih target _ inside

theorem Family.declared_of_within {shape : Shape} (within : shape.Within index inner inner) :
    shape.Declared index := by
  cases shape with
  | ref name =>
    obtain ⟨object, resolved, -⟩ := family.exists_inner within
    have found : (index.resolve? name).isSome = true := by rw [resolved]; rfl
    exact (index.contains_eq_isSome name).trans found
  | undescribed name => exact within
  | _ => trivial

/-- Whatever is within a closed family is sound. -/
theorem Family.sound {shape : Shape} (within : shape.Within index outer inner) :
    shape.Sound index where
  declared reached h := by
    have inside : shape.Within index inner inner := within.mono family.subset fun _ h => h
    exact family.declared_of_within (family.within_of_reaches inside h)
  distinct reached object h target :=
    (family.target_outer (family.within_of_reachesOutside within h) target).1

end Closed

end Shape

end ToolChat
