import ToolChat.Shape.Basic

/-!
The object shapes reachable from some roots.

An index keeps object shapes in the order in which a walk through the roots first meets their names,
depth first and in declaration order; the first shape met under a name is kept, and what lies below
a later one is not walked.
-/

set_option autoImplicit false

namespace ToolChat

/-- Object shapes by name. -/
structure ShapeIndex where
  objects : List ObjectShape := []

namespace ShapeIndex

def empty : ShapeIndex := ⟨[]⟩

def resolve? (index : ShapeIndex) (name : String) : Option ObjectShape :=
  index.objects.find? (·.name == name)

def contains (index : ShapeIndex) (name : String) : Bool :=
  index.objects.any (·.name == name)

def size (index : ShapeIndex) : Nat :=
  index.objects.length

def add (index : ShapeIndex) (shape : ObjectShape) : ShapeIndex :=
  ⟨index.objects ++ [shape]⟩

mutual

def visit (index : ShapeIndex) : Shape → ShapeIndex
  | .object ⟨name, fields⟩ =>
    if index.contains name then index else visitFields (index.add ⟨name, fields⟩) fields
  | .list item | .set item | .map item => visit index item
  | _ => index

def visitFields (index : ShapeIndex) : List Field → ShapeIndex
  | [] => index
  | ⟨_, shape, _, _⟩ :: fields => visitFields (visit index shape) fields

end

def collect (roots : List Shape) : ShapeIndex :=
  roots.foldl visit empty

def ofParameters (parameters : List Parameter) : ShapeIndex :=
  collect (parameters.map (·.shape))

theorem mem_of_resolve?_eq_some {index : ShapeIndex} {name : String} {shape : ObjectShape}
    (h : index.resolve? name = some shape) : shape ∈ index.objects ∧ shape.name = name := by
  refine ⟨List.mem_of_find?_eq_some h, ?_⟩
  simpa using List.find?_some h

end ShapeIndex

end ToolChat
