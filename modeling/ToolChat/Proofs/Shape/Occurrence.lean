import ToolChat.Shape.Index

/-!
Record types that occur in some roots.

A record type occurs at the head of a root, below its lists, sets and maps, or at the head of a
field of one that occurs. Collecting the roots walks into the fields of a record type once for each
name, so an index has all names that occur, and if a name stands for one record type only, then the
index resolves each name to it.
-/

set_option autoImplicit false

namespace ToolChat

def Shape.head? : Shape → Option ObjectShape
  | .object shape => some shape
  | .list item | .set item | .map item => item.head?
  | _ => none

def partsOf (fields : List Field) : List ObjectShape :=
  fields.filterMap (·.shape.head?)

/-- A record type stands somewhere in some roots. -/
inductive Occurs (roots : List Shape) : ObjectShape → Prop
  | root {shape : Shape} {object : ObjectShape} (root : shape ∈ roots)
      (head : shape.head? = some object) : Occurs roots object
  | part {object part : ObjectShape} (outer : Occurs roots object)
      (inside : part ∈ partsOf object.fields) : Occurs roots part

def NamesAgree (roots : List Shape) : Prop :=
  ∀ first second, Occurs roots first → Occurs roots second → first.name = second.name →
    first = second

theorem mem_partsOf {fields : List Field} {field : Field} {part : ObjectShape}
    (hf : field ∈ fields) (head : field.shape.head? = some part) : part ∈ partsOf fields :=
  List.mem_filterMap.2 ⟨field, hf, head⟩

theorem partsOf_subset_cons (field : Field) (fields : List Field) :
    partsOf fields ⊆ partsOf (field :: fields) := by
  intro part hp
  obtain ⟨other, ho, head⟩ := List.mem_filterMap.1 hp
  exact mem_partsOf (List.mem_cons_of_mem _ ho) head

theorem Occurs.eq_of_heads {roots : List Shape} {only object : ObjectShape}
    (h : Occurs roots object)
    (heads : ∀ shape ∈ roots, ∀ object, shape.head? = some object → object = only)
    (parts : ∀ part ∈ partsOf only.fields, part = only) : object = only := by
  induction h with
  | root root head => exact heads _ root _ head
  | part outer inside ih =>
    rw [ih] at inside
    exact parts _ inside

namespace ShapeIndex

theorem contains_iff {index : ShapeIndex} {name : String} :
    index.contains name = true ↔ ∃ object ∈ index.objects, object.name = name := by
  unfold contains
  rw [List.any_eq_true]
  simp only [beq_iff_eq]

/-- An index has grown by record types with a property whose parts it names. -/
structure Grows (P : ObjectShape → Prop) (before after : ShapeIndex) : Prop where
  kept : before.objects ⊆ after.objects
  new : ∀ object ∈ after.objects, object ∈ before.objects ∨
    P object ∧ ∀ part ∈ partsOf object.fields, after.contains part.name = true

namespace Grows

variable {P : ObjectShape → Prop} {before between after : ShapeIndex}

theorem refl : Grows P before before where
  kept := List.Subset.refl _
  new _ h := .inl h

theorem contains (grows : Grows P before after) {name : String}
    (h : before.contains name = true) : after.contains name = true := by
  obtain ⟨object, hm, named⟩ := contains_iff.1 h
  exact contains_iff.2 ⟨object, grows.kept hm, named⟩

theorem trans (first : Grows P before between) (second : Grows P between after) :
    Grows P before after where
  kept := List.Subset.trans first.kept second.kept
  new := by
    intro object h
    rcases second.new object h with old | new
    · rcases first.new object old with old | ⟨has, parts⟩
      · exact .inl old
      · exact .inr ⟨has, fun part hp => second.contains (parts part hp)⟩
    · exact .inr new

theorem of_add {object : ObjectShape} (grows : Grows P (before.add object) after)
    (has : P object) (parts : ∀ part ∈ partsOf object.fields, after.contains part.name = true) :
    Grows P before after ∧ after.contains object.name = true := by
  have added : object ∈ (before.add object).objects :=
    List.mem_append_right _ (List.mem_singleton_self _)
  refine ⟨⟨?_, ?_⟩, contains_iff.2 ⟨object, grows.kept added, rfl⟩⟩
  · intro other h
    exact grows.kept (List.mem_append_left _ h)
  · intro other h
    rcases grows.new other h with old | new
    · rcases List.mem_append.1 old with old | last
      · exact .inl old
      · rw [List.mem_singleton.1 last]
        exact .inr ⟨has, parts⟩
    · exact .inr new

end Grows

section Walk

variable {P : ObjectShape → Prop}

mutual

theorem grows_visit (closed : ∀ object, P object → ∀ part ∈ partsOf object.fields, P part) :
    (shape : Shape) → (index : ShapeIndex) → (∀ object, shape.head? = some object → P object) →
      Grows P index (visit index shape) ∧
        ∀ object, shape.head? = some object → (visit index shape).contains object.name = true
  | .object ⟨name, fields⟩, index, has => by
    have here : P ⟨name, fields⟩ := has _ rfl
    rw [visit]
    by_cases known : index.contains name = true
    · rw [if_pos known]
      refine ⟨Grows.refl, ?_⟩
      rintro object ⟨⟩
      exact known
    · rw [if_neg known]
      obtain ⟨grows, parts⟩ := grows_visitFields closed fields (index.add ⟨name, fields⟩)
        (closed _ here)
      obtain ⟨whole, named⟩ := grows.of_add here parts
      refine ⟨whole, ?_⟩
      rintro object ⟨⟩
      exact named
  | .list item, index, has | .set item, index, has | .map item, index, has =>
    grows_visit closed item index has
  | .integer _, _, _ | .number _, _, _ | .boolean, _, _ | .string, _, _ | .enumeration _, _, _
  | .ref _, _, _ | .undescribed _, _, _ => ⟨Grows.refl, nofun⟩

theorem grows_visitFields
    (closed : ∀ object, P object → ∀ part ∈ partsOf object.fields, P part) :
    (fields : List Field) → (index : ShapeIndex) → (∀ part ∈ partsOf fields, P part) →
      Grows P index (visitFields index fields) ∧
        ∀ part ∈ partsOf fields, (visitFields index fields).contains part.name = true
  | [], _, _ => ⟨Grows.refl, nofun⟩
  | ⟨name, shape, description, nullable⟩ :: fields, index, has => by
    obtain ⟨first, head⟩ := grows_visit closed shape index fun object here =>
      has object (mem_partsOf List.mem_cons_self here)
    obtain ⟨rest, parts⟩ := grows_visitFields closed fields (visit index shape) fun part hp =>
      has part (partsOf_subset_cons _ _ hp)
    rw [visitFields]
    refine ⟨first.trans rest, ?_⟩
    intro part hp
    obtain ⟨field, hf, here⟩ := List.mem_filterMap.1 hp
    rcases List.mem_cons.1 hf with rfl | later
    · exact rest.contains (head part here)
    · exact parts part (mem_partsOf later here)

end

end Walk

private theorem grows_foldl_visit {P : ObjectShape → Prop}
    (closed : ∀ object, P object → ∀ part ∈ partsOf object.fields, P part) {roots : List Shape}
    (index : ShapeIndex)
    (has : ∀ shape ∈ roots, ∀ object, shape.head? = some object → P object) :
    Grows P index (roots.foldl visit index) ∧
      ∀ shape ∈ roots, ∀ object, shape.head? = some object →
        (roots.foldl visit index).contains object.name = true := by
  induction roots generalizing index with
  | nil => exact ⟨Grows.refl, nofun⟩
  | cons root roots ih =>
    obtain ⟨first, named⟩ := grows_visit closed root index (has root List.mem_cons_self)
    obtain ⟨rest, others⟩ := ih (visit index root) fun shape hs =>
      has shape (List.mem_cons_of_mem _ hs)
    refine ⟨first.trans rest, ?_⟩
    intro shape hs object head
    rcases List.mem_cons.1 hs with rfl | later
    · exact rest.contains (named object head)
    · exact others shape later object head

/-- What an index of some roots has are record types that occur in them, and it names their parts
and those of the roots. -/
theorem grows_collect (roots : List Shape) :
    Grows (Occurs roots) empty (collect roots) ∧
      ∀ shape ∈ roots, ∀ object, shape.head? = some object →
        (collect roots).contains object.name = true :=
  grows_foldl_visit (fun _ outer _ inside => .part outer inside) empty fun _ root _ head =>
    .root root head

variable {roots : List Shape}

theorem occurs_of_mem_collect {object : ObjectShape} (h : object ∈ (collect roots).objects) :
    Occurs roots object := by
  rcases (grows_collect roots).1.new object h with old | ⟨occurs, -⟩
  · cases old
  · exact occurs

theorem occurs_of_resolve? {name : String} {object : ObjectShape}
    (h : (collect roots).resolve? name = some object) : Occurs roots object :=
  occurs_of_mem_collect (mem_of_resolve?_eq_some h).1

theorem contains_collect (agree : NamesAgree roots) {object : ObjectShape}
    (h : Occurs roots object) : (collect roots).contains object.name = true := by
  obtain ⟨grows, named⟩ := grows_collect roots
  induction h with
  | root root head => exact named _ root _ head
  | part outer inside ih =>
    -- The index has some record type under the name; that its parts are named is known of that one.
    obtain ⟨indexed, hm, same⟩ := contains_iff.1 ih
    have outermost := agree indexed _ (occurs_of_mem_collect hm) outer same
    rcases grows.new indexed hm with old | ⟨-, parts⟩
    · cases old
    · rw [outermost] at parts
      exact parts _ inside

/-- If record types of one name are the same, then the index resolves the name of each of them. -/
theorem resolve?_collect (agree : NamesAgree roots) {object : ObjectShape}
    (h : Occurs roots object) : (collect roots).resolve? object.name = some object := by
  obtain ⟨indexed, hm, same⟩ := contains_iff.1 (contains_collect agree h)
  cases found : (collect roots).resolve? object.name with
  | none =>
    have other := List.find?_eq_none.1 found indexed hm
    rw [same, beq_self_eq_true] at other
    exact absurd rfl other
  | some resolved =>
    have named := (mem_of_resolve?_eq_some found).2
    rw [agree resolved object (occurs_of_resolve? found) h named]

end ShapeIndex

end ToolChat
