import ToolChat.Schema.Error
import ToolChat.Shape.Index

/-!
Which shapes can be bound at all.

The values of a map never reach a schema, yet they are bound, so every shape below a map has to
resolve and must not be undescribed. The walk visits each type name once; what bounds it is the
number of object shapes in the index whose names it has not visited, and below that the size of the
shape.
-/

set_option autoImplicit false

namespace ToolChat

namespace ShapeIndex

/-- The number of object shapes whose names are not among some names. -/
def countOutside (index : ShapeIndex) (names : List String) : Nat :=
  index.objects.countP fun shape => !names.contains shape.name

theorem countOutside_le (index : ShapeIndex) {names more : List String} (h : names ⊆ more) :
    index.countOutside more ≤ index.countOutside names := by
  apply List.countP_mono_left
  intro shape _ hs
  simp only [Bool.not_eq_true', List.contains_eq_mem, decide_eq_false_iff_not] at hs ⊢
  exact fun hm => hs (h hm)

theorem countOutside_cons_lt {index : ShapeIndex} {names : List String} {name : String}
    {shape : ObjectShape} (found : index.resolve? name = some shape) (new : name ∉ names) :
    index.countOutside (name :: names) < index.countOutside names := by
  obtain ⟨hmem, hname⟩ := mem_of_resolve?_eq_some found
  unfold countOutside
  generalize index.objects = objects at hmem
  induction objects with
  | nil => cases hmem
  | cons first rest ih =>
    have hle : rest.countP (fun shape => !(name :: names).contains shape.name) ≤
        rest.countP (fun shape => !names.contains shape.name) := by
      apply List.countP_mono_left
      intro s _ hs
      simp only [Bool.not_eq_true', List.contains_eq_mem, decide_eq_false_iff_not,
        List.mem_cons, not_or] at hs ⊢
      exact hs.2
    rw [List.countP_cons, List.countP_cons]
    rcases List.mem_cons.1 hmem with rfl | hrest
    · have h₁ : (!(name :: names).contains shape.name) = false := by simp [hname]
      have h₂ : (!names.contains shape.name) = true := by simp [hname, new]
      rw [h₁, h₂]
      simpa using Nat.lt_succ_of_le hle
    · have := ih hrest
      have hfirst : (if (!(name :: names).contains first.name) = true then 1 else 0) ≤
          (if (!names.contains first.name) = true then 1 else 0) := by
        by_cases h1 : first.name ∈ names <;> by_cases h2 : first.name = name <;> simp [h1, h2]
      omega

end ShapeIndex

/-- The type names visited by a check that had visited some before. -/
abbrev Visited (before : List String) := { after : List String // before ⊆ after }

mutual

/-- Checks that everything below a shape can be bound. Names that are `settled` need no check. -/
def checkBindable (index : ShapeIndex) (settled : String → Bool) (visited : List String)
    (shape : Shape) : Except SchemaError (Visited visited) :=
  match shape with
  | .integer _ | .number _ | .boolean | .string | .enumeration _ =>
    .ok ⟨visited, List.Subset.refl _⟩
  | .list item | .set item | .map item => checkBindable index settled visited item
  | .object ⟨name, fields⟩ =>
    if name ∈ visited then .ok ⟨visited, List.Subset.refl _⟩
    else match checkFieldsBindable index settled (name :: visited) fields with
      | .ok after => .ok ⟨after.1, fun _ h => after.2 (List.mem_cons_of_mem _ h)⟩
      | .error e => .error e
  | .ref name =>
    if settled name then .ok ⟨visited, List.Subset.refl _⟩
    else if _new : name ∈ visited then .ok ⟨visited, List.Subset.refl _⟩
    else match _found : index.resolve? name with
      | none => .error (.unresolvedReference name)
      | some target =>
        match checkFieldsBindable index settled (name :: visited) target.fields with
        | .ok after => .ok ⟨after.1, fun _ h => after.2 (List.mem_cons_of_mem _ h)⟩
        | .error e => .error e
  | .undescribed name => .error (.unsupported name)
termination_by (index.countOutside visited, sizeOf shape)
decreasing_by
  · exact Prod.Lex.right _ (by simp only [Shape.list.sizeOf_spec]; omega)
  · exact Prod.Lex.right _ (by simp only [Shape.set.sizeOf_spec]; omega)
  · exact Prod.Lex.right _ (by simp only [Shape.map.sizeOf_spec]; omega)
  · rcases Nat.lt_or_eq_of_le
      (ShapeIndex.countOutside_le index (List.subset_cons_self name visited)) with h | h
    · exact Prod.Lex.left _ _ h
    · rw [h]
      exact Prod.Lex.right _ (by
        simp only [Shape.object.sizeOf_spec, ObjectShape.mk.sizeOf_spec]; omega)
  · exact Prod.Lex.left _ _ (ShapeIndex.countOutside_cons_lt _found _new)

def checkFieldsBindable (index : ShapeIndex) (settled : String → Bool) (visited : List String)
    (fields : List Field) : Except SchemaError (Visited visited) :=
  match fields with
  | [] => .ok ⟨visited, List.Subset.refl _⟩
  | ⟨_, shape, _, _⟩ :: fields =>
    match checkBindable index settled visited shape with
    | .error e => .error e
    | .ok between =>
      match checkFieldsBindable index settled between.1 fields with
      | .ok after => .ok ⟨after.1, fun _ h => after.2 (between.2 h)⟩
      | .error e => .error e
termination_by (index.countOutside visited, sizeOf fields)
decreasing_by
  · exact Prod.Lex.right _ (by simp only [List.cons.sizeOf_spec, Field.mk.sizeOf_spec]; omega)
  · rcases Nat.lt_or_eq_of_le (ShapeIndex.countOutside_le index between.2) with h | h
    · exact Prod.Lex.left _ _ h
    · rw [h]
      exact Prod.Lex.right _ (by simp only [List.cons.sizeOf_spec]; omega)

end

end ToolChat
