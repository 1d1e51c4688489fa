import ToolChat.Digest.NameId
import ToolChat.Schema.Basic
import ToolChat.Schema.Bindable

/-!
Generating schemas from shapes.

A session remembers, over all its calls, which identifiers were referred to, the schema built for
each type name, and the definitions. An object that is being expanded is referred to by its
identifier; when its expansion ends, it becomes a definition if it was referred to, and any later
occurrence is served from what was built. What bounds the recursion is the number of object shapes
in the index that are not being expanded, and below that the size of the shape.
-/

set_option autoImplicit false

namespace ToolChat

/-- What a session remembers. -/
structure Memory where
  /-- The identifiers that were referred to. -/
  referred : List String := []
  /-- The schemas of the objects expanded so far, by type name, the latest first. -/
  built : List (String × Schema) := []
  /-- The definitions by identifier. -/
  definitions : Definitions := []

namespace Memory

def initial : Memory := {}

def refer (memory : Memory) (name : String) : Schema × Memory :=
  (.reference (referenceId name), { memory with referred := referenceId name :: memory.referred })

/-- Remembers the schema of an object whose expansion has ended. -/
def settle (memory : Memory) (name : String) (schema : Schema) : Memory :=
  { memory with
    built := (name, schema) :: memory.built
    definitions :=
      if memory.referred.contains (referenceId name) then
        Dictionary.insertNew (referenceId name) schema memory.definitions
      else memory.definitions }

def built? (memory : Memory) (name : String) : Option Schema :=
  memory.built.lookup name

end Memory

/-- What one call of a session returns: its answer, and the memory whether it succeeds or not. -/
abbrev Generated (α : Type) := Except SchemaError α × Memory

def settleObject (name : String) : Generated Schema → Generated Schema
  | (.ok schema, memory) => (.ok schema, memory.settle name schema)
  | (.error e, memory) => (.error e, memory)

mutual

/-- The schema of a shape. The names in `expanding` are those of the objects around it. -/
def generateShape (index : ShapeIndex) (expanding : List String) (shape : Shape)
    (memory : Memory) : Generated Schema :=
  match shape with
  | .integer _ => (.ok (.integer none), memory)
  | .number _ => (.ok (.number none), memory)
  | .boolean => (.ok (.boolean none), memory)
  | .string => (.ok (.string none), memory)
  | .enumeration e => (.ok (.enumeration e.variants none), memory)
  | .list item | .set item =>
    match generateShape index expanding item memory with
    | (.ok items, memory) => (.ok (.array items none), memory)
    | (.error e, memory) => (.error e, memory)
  | .map value =>
    let settled (name : String) := expanding.contains name || (memory.built? name).isSome
    match checkBindable index settled [] value with
    | .ok _ => (.ok .anyObject, memory)
    | .error e => (.error e, memory)
  | .object ⟨name, fields⟩ =>
    if name ∈ expanding then
      let (schema, memory) := memory.refer name
      (.ok schema, memory)
    else match memory.built? name with
      | some schema => (.ok schema, memory)
      | none => settleObject name (generateFields index (name :: expanding) name [] fields memory)
  | .ref name =>
    if _new : name ∈ expanding then
      let (schema, memory) := memory.refer name
      (.ok schema, memory)
    else match memory.built? name with
      | some schema => (.ok schema, memory)
      | none =>
        match _found : index.resolve? name with
        | none => (.error (.unresolvedReference name), memory)
        | some target =>
          settleObject name
            (generateFields index (name :: expanding) name [] target.fields memory)
  | .undescribed name => (.error (.unsupported name), memory)
termination_by (index.countOutside expanding, sizeOf shape)
decreasing_by
  · exact Prod.Lex.right _ (by simp only [Shape.list.sizeOf_spec]; omega)
  · exact Prod.Lex.right _ (by simp only [Shape.set.sizeOf_spec]; omega)
  · rcases Nat.lt_or_eq_of_le
      (ShapeIndex.countOutside_le index (List.subset_cons_self name expanding))
      with h | h
    · exact Prod.Lex.left _ _ h
    · rw [h]
      exact Prod.Lex.right _ (by
        simp only [Shape.object.sizeOf_spec, ObjectShape.mk.sizeOf_spec]; omega)
  · exact Prod.Lex.left _ _ (ShapeIndex.countOutside_cons_lt _found _new)

/-- The schema of an object of which some properties are done and some fields are left. Every
property is required, whether or not its field is nullable. -/
def generateFields (index : ShapeIndex) (expanding : List String) (owner : String)
    (done : List (String × Schema)) (fields : List Field) (memory : Memory) : Generated Schema :=
  match fields with
  | [] => (.ok (.object done (done.map (·.1)) none), memory)
  | ⟨name, shape, description, _⟩ :: fields =>
    if done.any (·.1 == name) then (.error (.duplicateProperty owner name), memory)
    else match generateShape index expanding shape memory with
      | (.error e, memory) => (.error e, memory)
      | (.ok schema, memory) =>
        generateFields index expanding owner (done ++ [(name, schema.describeWith description)])
          fields memory
termination_by (index.countOutside expanding, sizeOf fields)
decreasing_by
  · exact Prod.Lex.right _ (by simp only [List.cons.sizeOf_spec, Field.mk.sizeOf_spec]; omega)
  · exact Prod.Lex.right _ (by simp only [List.cons.sizeOf_spec]; omega)

end

/-- A run of schema generation over one index. -/
structure Session where
  index : ShapeIndex := .empty
  memory : Memory := .initial

namespace Session

def withIndex (index : ShapeIndex) : Session := { index }

def generate (session : Session) (shape : Shape) : Except SchemaError Schema × Session :=
  let (answer, memory) := generateShape session.index [] shape session.memory
  (answer, { session with memory })

def definitions (session : Session) : Definitions :=
  session.memory.definitions

end Session

end ToolChat
