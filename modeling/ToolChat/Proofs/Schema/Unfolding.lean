import ToolChat.Proofs.Schema.Document
import ToolChat.Proofs.Shape.Occurrence

/-!
What generated schemas stand for.

A schema and a shape are compared by what they look like down to any depth: a schema with its
references followed through the definitions, a shape with its names followed through the index. Both
look the same, since every schema that a session holds renders the record type whose name it is
kept under.
-/

set_option autoImplicit false

namespace ToolChat

/-- What a type looks like down to some depth. -/
inductive Outline where
  /-- What lies deeper. -/
  | beyond
  | integer
  | number
  | boolean
  | string
  | enumeration (values : List String)
  | array (items : Outline)
  | object (properties : List (String × Outline)) (required : List String)
  /-- A reference without a definition. -/
  | undefined (id : String)
  /-- A name without a record type. -/
  | undeclared (name : String)
  | undescribed (name : String)

namespace Schema

def follow (definitions : Definitions) : Schema → Schema
  | .reference id => (definitions.lookup id).getD (.reference id)
  | schema => schema

/-- What a schema looks like, its references followed. -/
def unfold (definitions : Definitions) : Nat → Schema → Outline
  | 0, _ => .beyond
  | depth + 1, schema => match schema.follow definitions with
    | .object properties required _ =>
      .object (properties.map fun (name, property) => (name, unfold definitions depth property))
        required
    | .array items _ => .array (unfold definitions depth items)
    | .string _ => .string
    | .integer _ => .integer
    | .number _ => .number
    | .boolean _ => .boolean
    | .enumeration values _ => .enumeration values
    | .reference id => .undefined id

end Schema

namespace Shape

def follow (index : ShapeIndex) : Shape → Shape
  | .ref name => ((index.resolve? name).map .object).getD (.ref name)
  | shape => shape

/-- What a shape looks like, its names followed. -/
def unfold (index : ShapeIndex) : Nat → Shape → Outline
  | 0, _ => .beyond
  | depth + 1, shape => match shape.follow index with
    | .integer _ => .integer
    | .number _ => .number
    | .boolean => .boolean
    | .string => .string
    | .enumeration shape => .enumeration shape.variants
    | .list item | .set item => .array (unfold index depth item)
    | .map _ => .object [] []
    | .object target =>
      .object (target.fields.map fun field => (field.name, unfold index depth field.shape))
        (target.fields.map (·.name))
    | .ref name => .undeclared name
    | .undescribed name => .undescribed name

theorem follow_of_target? {index : ShapeIndex} {shape : Shape} {object : ObjectShape}
    (h : shape.target? index = some object) : shape.follow index = .object object := by
  cases shape with
  | object inner =>
    cases h
    rfl
  | ref name =>
    have found : index.resolve? name = some object := h
    rw [follow, found]
    rfl
  | _ => cases h

end Shape

/-- What the arguments of a tool look like: its parameters under their names and in their order, of
which those are required that are not optional. -/
def unfoldParameters (index : ShapeIndex) (parameters : List Parameter) : Nat → Outline
  | 0 => .beyond
  | depth + 1 => .object
    (parameters.zipIdx.map fun (parameter, position) =>
      (parameter.nameAt position, parameter.shape.unfold index depth))
    (parameters.zipIdx.filterMap fun (parameter, position) =>
      if parameter.optional then none else some (parameter.nameAt position))

mutual

/-- A schema stands for a shape. -/
inductive Renders (index : ShapeIndex) : Schema → Shape → Prop
  | integer (kind : IntegerKind) (description : Option String) :
      Renders index (.integer description) (.integer kind)
  | number (kind : FloatKind) (description : Option String) :
      Renders index (.number description) (.number kind)
  | boolean (description : Option String) : Renders index (.boolean description) .boolean
  | string (description : Option String) : Renders index (.string description) .string
  | enumeration (shape : EnumShape) (description : Option String) :
      Renders index (.enumeration shape.variants description) (.enumeration shape)
  | array {shape item : Shape} {items : Schema} (ofItems : shape.item? = some item)
      (below : Renders index items item) (description : Option String) :
      Renders index (.array items description) shape
  | map (value : Shape) (description : Option String) :
      Renders index (.object [] [] description) (.map value)
  | object {shape : Shape} {object : ObjectShape} {properties : List (String × Schema)}
      (target : shape.target? index = some object)
      (below : RendersAll index properties object.fields) (description : Option String) :
      Renders index (.object properties (object.fields.map (·.name)) description) shape
  | reference {shape : Shape} {object : ObjectShape}
      (target : shape.target? index = some object)
      (resolved : index.resolve? object.name = some object) :
      Renders index (.reference (referenceId object.name)) shape

inductive RendersAll (index : ShapeIndex) : List (String × Schema) → List Field → Prop
  | nil : RendersAll index [] []
  | cons {schema : Schema} {field : Field} {properties : List (String × Schema)}
      {fields : List Field} (first : Renders index schema field.shape)
      (rest : RendersAll index properties fields) :
      RendersAll index ((field.name, schema) :: properties) (field :: fields)

end

variable {index : ShapeIndex}

theorem renders_of_plain {shape : Shape} {schema : Schema} (h : shape.plain? = some schema) :
    Renders index schema shape := by
  cases shape with
  | integer kind =>
    cases h
    exact .integer kind none
  | number kind =>
    cases h
    exact .number kind none
  | boolean =>
    cases h
    exact .boolean none
  | string =>
    cases h
    exact .string none
  | enumeration shape =>
    cases h
    exact .enumeration shape none
  | _ => cases h

theorem Renders.describeWith {schema : Schema} {shape : Shape} (h : Renders index schema shape)
    (description : Option String) : Renders index (schema.describeWith description) shape := by
  cases description with
  | none => exact h
  | some text =>
    cases h with
    | integer kind _ => exact .integer kind (some text)
    | number kind _ => exact .number kind (some text)
    | boolean _ => exact .boolean (some text)
    | string _ => exact .string (some text)
    | enumeration shape _ => exact .enumeration shape (some text)
    | array ofItems below _ => exact .array ofItems below (some text)
    | map value _ => exact .map value (some text)
    | object target below _ => exact .object target below (some text)
    | reference target resolved => exact .reference target resolved

theorem RendersAll.names : {properties : List (String × Schema)} → {fields : List Field} →
    RendersAll index properties fields → properties.map (·.1) = fields.map (·.name)
  | _, _, .nil => rfl
  | _, _, .cons _ rest => congrArg _ rest.names

theorem RendersAll.map_eq {α : Type} {f : Schema → α} {g : Shape → α} {keys : List String}
    (same : ∀ schema shape, Renders index schema shape → schema.refs ⊆ keys → f schema = g shape) :
    {properties : List (String × Schema)} → {fields : List Field} →
      RendersAll index properties fields → Schema.refsOf properties ⊆ keys →
        properties.map (fun (name, property) => (name, f property)) =
          fields.map fun field => (field.name, g field.shape)
  | _, _, .nil, _ => rfl
  | _, _, .cons first rest, inside => by
    obtain ⟨here, later⟩ := List.append_subset.1 inside
    simp only [List.map_cons]
    rw [same _ _ first here, rest.map_eq same later]

def RendersObject (index : ShapeIndex) (schema : Schema) (object : ObjectShape) : Prop :=
  ∃ properties, schema = .object properties (object.fields.map (·.name)) none ∧
    RendersAll index properties object.fields

theorem RendersObject.renders {schema : Schema} {object : ObjectShape}
    (h : RendersObject index schema object) {shape : Shape}
    (target : shape.target? index = some object) : Renders index schema shape := by
  obtain ⟨properties, rfl, below⟩ := h
  exact .object target below none

/-- Whether an index resolves the names of the parts of each record type that it resolves a name
to. -/
def ShapeIndex.Complete (index : ShapeIndex) : Prop :=
  ∀ name object, index.resolve? name = some object →
    ∀ part ∈ partsOf object.fields, index.resolve? part.name = some part

def SchemaTask.heads : SchemaTask → List ObjectShape
  | .shape root => root.head?.toList
  | .fields _ left => partsOf left

def SchemaTask.Resolved (index : ShapeIndex) (task : SchemaTask) : Prop :=
  ∀ part ∈ task.heads, index.resolve? part.name = some part

theorem SchemaTask.Resolved.head {done : List (String × Schema)} {field : Field}
    {fields : List Field} (h : (SchemaTask.fields done (field :: fields)).Resolved index) :
    (SchemaTask.shape field.shape).Resolved index := by
  intro part hp
  exact h part (mem_partsOf List.mem_cons_self (Option.mem_toList.1 hp))

theorem SchemaTask.Resolved.tail {done more : List (String × Schema)} {field : Field}
    {fields : List Field} (h : (SchemaTask.fields done (field :: fields)).Resolved index) :
    (SchemaTask.fields more fields).Resolved index := by
  intro part hp
  exact h part (partsOf_subset_cons field fields hp)

/-- What holds of a memory: what is kept under the name of a record type is its schema. -/
structure Memory.Faithful (index : ShapeIndex) (memory : Memory) : Prop where
  built : ∀ pair ∈ memory.built, ∃ object, index.resolve? pair.1 = some object ∧
    RendersObject index pair.2 object
  definitions : ∀ pair ∈ memory.definitions, ∃ object, index.resolve? object.name = some object ∧
    pair.1 = referenceId object.name ∧ RendersObject index pair.2 object

theorem Memory.faithful_initial : Memory.initial.Faithful index where
  built := nofun
  definitions := nofun

theorem Memory.Faithful.settle {memory : Memory} (faithful : memory.Faithful index)
    {object : ObjectShape} {schema : Schema} (resolved : index.resolve? object.name = some object)
    (renders : RendersObject index schema object) :
    (memory.settle object.name schema).Faithful index where
  built := by
    intro pair hp
    rcases List.mem_cons.1 hp with rfl | old
    · exact ⟨object, resolved, renders⟩
    · exact faithful.built pair old
  definitions := by
    intro pair hp
    rcases Memory.mem_definitions_of_settle hp with rfl | old
    · exact ⟨object, resolved, rfl, renders⟩
    · exact faithful.definitions pair old

theorem head?_of_item? {shape item : Shape} (h : shape.item? = some item) :
    shape.head? = item.head? := by
  cases shape with
  | list inner =>
    cases h
    rfl
  | set inner =>
    cases h
    rfl
  | _ => cases h

theorem target?_of_typeName? {shape : Shape} {name : String} {object : ObjectShape}
    (named : shape.typeName? = some name) (known : (SchemaTask.shape shape).Resolved index)
    (resolved : index.resolve? name = some object) : shape.target? index = some object := by
  cases shape with
  | object inner =>
    cases named
    have here := known inner (List.mem_singleton_self _)
    exact here.symm.trans resolved
  | ref other =>
    cases named
    exact resolved
  | _ => cases named

theorem resolve?_of_target? {shape : Shape} {object : ObjectShape}
    (target : shape.target? index = some object)
    (known : (SchemaTask.shape shape).Resolved index) :
    index.resolve? object.name = some object := by
  cases shape with
  | object inner =>
    cases target
    exact known object (List.mem_singleton_self _)
  | ref name =>
    have found : index.resolve? name = some object := target
    rw [(ShapeIndex.mem_of_resolve?_eq_some found).2]
    exact found
  | _ => cases target

def SchemaTask.Renders (index : ShapeIndex) (schema : Schema) : SchemaTask → Prop
  | .shape root => ToolChat.Renders index schema root
  | .fields before left => ∃ properties,
    schema = .object (before ++ properties) ((before ++ properties).map (·.1)) none ∧
      RendersAll index properties left

/-- A generated schema stands for its shape, and what is kept of it stands for its record type. -/
theorem Generates.renders (complete : index.Complete) {expanding : List String}
    {memory after : Memory} {task : SchemaTask} {schema : Schema}
    (h : Generates index expanding memory task schema after)
    (around : ∀ name ∈ expanding, ∃ object, index.resolve? name = some object)
    (known : task.Resolved index) (faithful : memory.Faithful index) :
    task.Renders index schema ∧ after.Faithful index := by
  induction h with
  | plain plain => exact ⟨renders_of_plain plain, faithful⟩
  | @array _ _ _ _ item _ ofItems _ ih =>
    have below : (SchemaTask.shape item).Resolved index := by
      intro part hp
      apply known part
      rw [SchemaTask.heads, head?_of_item? ofItems]
      exact hp
    obtain ⟨items, held⟩ := ih around below faithful
    exact ⟨.array ofItems items none, held⟩
  | @map _ _ value _ _ => exact ⟨.map value none, faithful⟩
  | @again _ _ _ name named within =>
    -- The object around has no schema yet: only the index says what the reference stands for.
    obtain ⟨object, resolved⟩ := around name within
    have target := target?_of_typeName? named known resolved
    obtain ⟨-, rfl⟩ := ShapeIndex.mem_of_resolve?_eq_some resolved
    exact ⟨.reference target resolved, faithful.built, faithful.definitions⟩
  | @built _ _ _ name schema named _ built =>
    obtain ⟨object, resolved, renders⟩ := faithful.built (name, schema) (Memory.mem_of_built? built)
    exact ⟨renders.renders (target?_of_typeName? named known resolved), faithful⟩
  | @expanded _ _ _ _ object schema target _ _ _ ih =>
    have resolved := resolve?_of_target? target known
    have inside : ∀ name ∈ object.name :: _, ∃ object, index.resolve? name = some object :=
      List.forall_mem_cons.2 ⟨⟨object, resolved⟩, around⟩
    obtain ⟨⟨properties, made, below⟩, held⟩ := ih inside (complete _ _ resolved) faithful
    have whole : schema = .object properties (object.fields.map (·.name)) none := by
      rw [made, List.nil_append, below.names]
    have renders : RendersObject index schema object := ⟨properties, whole, below⟩
    exact ⟨renders.renders target, held.settle resolved renders⟩
  | done => exact ⟨⟨[], by rw [List.append_nil], .nil⟩, faithful⟩
  | @field _ _ _ _ done field fields made _ _ _ _ ihFirst ihRest =>
    obtain ⟨first, between⟩ := ihFirst around known.head faithful
    obtain ⟨⟨properties, same, rest⟩, held⟩ := ihRest around known.tail between
    refine ⟨⟨(field.name, made.describeWith field.description) :: properties, ?_, ?_⟩, held⟩
    · rw [List.append_cons]
      exact same
    · exact .cons (first.describeWith field.description) rest

/-- What holds of definitions that denote the record types of an index: each is the schema of a
record type under its identifier, and they refer to no others. -/
structure Definitions.Denote (index : ShapeIndex) (definitions : Definitions) : Prop where
  renders : ∀ pair ∈ definitions, ∃ object, index.resolve? object.name = some object ∧
    pair.1 = referenceId object.name ∧ RendersObject index pair.2 object
  refs : ∀ pair ∈ definitions, pair.2.refs ⊆ definitions.map (·.1)
  injective : ∀ first second, index.resolve? first.name = some first →
    index.resolve? second.name = some second →
      referenceId first.name = referenceId second.name → first.name = second.name

variable {definitions : Definitions}

theorem Definitions.Denote.exists_lookup (denote : definitions.Denote index) {object : ObjectShape}
    (resolved : index.resolve? object.name = some object)
    (key : referenceId object.name ∈ definitions.map (·.1)) :
    ∃ schema, definitions.lookup (referenceId object.name) = some schema ∧
      RendersObject index schema object ∧ schema.refs ⊆ definitions.map (·.1) := by
  cases found : definitions.lookup (referenceId object.name) with
  | none => exact absurd key (Dictionary.lookup_eq_none_iff.1 found)
  | some schema =>
    have member : (referenceId object.name, schema) ∈ definitions :=
      Dictionary.mem_of_lookup_eq_some found
    obtain ⟨other, known, same, renders⟩ := denote.renders _ member
    have named := denote.injective object other resolved known same
    rw [named, known] at resolved
    cases resolved
    exact ⟨schema, rfl, renders, denote.refs _ member⟩

theorem Schema.unfold_reference {id : String} {schema : Schema} (depth : Nat)
    (found : definitions.lookup id = some schema) (object : schema.follow definitions = schema) :
    (Schema.reference id).unfold definitions depth = schema.unfold definitions depth := by
  cases depth with
  | zero => rfl
  | succ depth =>
    rw [Schema.unfold, Schema.unfold, object, Schema.follow, found, Option.getD_some]

/-- A schema that stands for a shape looks like it down to any depth. -/
theorem unfold_eq_of_renders (denote : definitions.Denote index) (depth : Nat) :
    ∀ schema shape, Renders index schema shape → schema.refs ⊆ definitions.map (·.1) →
      schema.unfold definitions depth = shape.unfold index depth := by
  induction depth with
  | zero =>
    intro schema shape _ _
    rfl
  | succ depth ih =>
    -- A reference looks like what it leads to at the same depth, so both cases need this.
    have object : ∀ (object : ObjectShape) (properties : List (String × Schema))
        (description : Option String) (shape : Shape), shape.target? index = some object →
        RendersAll index properties object.fields →
        Schema.refsOf properties ⊆ definitions.map (·.1) →
        (Schema.object properties (object.fields.map (·.name)) description).unfold definitions
          (depth + 1) = shape.unfold index (depth + 1) := by
      intro object properties description shape target below inside
      rw [Shape.unfold, Shape.follow_of_target? target]
      simp only [Schema.unfold, Schema.follow]
      rw [below.map_eq ih inside]
    intro schema shape renders inside
    cases renders with
    | integer | number | boolean | string | enumeration | map => rfl
    | @array _ item items ofItems below _ =>
      have same := ih items item below inside
      cases shape with
      | list inner =>
        cases ofItems
        exact congrArg Outline.array same
      | set inner =>
        cases ofItems
        exact congrArg Outline.array same
      | _ => cases ofItems
    | object target below description => exact object _ _ description _ target below inside
    | @reference _ record target resolved =>
      have key : referenceId record.name ∈ definitions.map (·.1) :=
        inside (List.mem_singleton_self _)
      obtain ⟨schema, found, ⟨properties, rfl, below⟩, refs⟩ := denote.exists_lookup resolved key
      rw [Schema.unfold_reference _ found rfl]
      exact object _ _ none _ target below refs

theorem complete_collect {roots : List Shape} (agree : NamesAgree roots) :
    (ShapeIndex.collect roots).Complete := by
  intro name object resolved part inside
  have outer := ShapeIndex.occurs_of_resolve? resolved
  exact ShapeIndex.resolve?_collect agree (.part outer inside)

theorem resolved_parameterFields {parameters : List Parameter}
    (agree : NamesAgree (parameters.map (·.shape))) :
    (SchemaTask.fields [] (parameterFields (nameParameters parameters))).Resolved
      (.ofParameters parameters) := by
  intro part inside
  obtain ⟨field, hf, head⟩ := List.mem_filterMap.1 inside
  obtain ⟨⟨name, parameter⟩, hp, rfl⟩ := List.mem_map.1 hf
  obtain ⟨⟨declared, position⟩, hd, same⟩ := List.mem_map.1 hp
  cases same
  have member : parameter ∈ parameters := List.fst_mem_of_mem_zipIdx hd
  exact ShapeIndex.resolve?_collect agree (.root (List.mem_map_of_mem member) head)

private theorem names_of_not_optional (declared : List (Parameter × Nat)) :
    ((declared.map fun (parameter, position) => (parameter.nameAt position, parameter)).filter
        (!·.2.optional)).map (·.1) =
      declared.filterMap fun (parameter, position) =>
        if parameter.optional then none else some (parameter.nameAt position) := by
  induction declared with
  | nil => rfl
  | cons first rest ih =>
    obtain ⟨parameter, position⟩ := first
    cases optional : parameter.optional with
    | true => simpa [optional] using ih
    | false => simpa [optional] using ih

/-- Generated parameters and their definitions look like the declared parameters down to any depth,
if types of one name are the same and have identifiers of their own. -/
theorem generateParameters_denotes (parameters : List Parameter)
    (agree : NamesAgree (parameters.map (·.shape)))
    (injective : ∀ first second, Occurs (parameters.map (·.shape)) first →
      Occurs (parameters.map (·.shape)) second →
        referenceId first.name = referenceId second.name → first.name = second.name)
    {bundle : SchemaBundle} (generated : generateParameters parameters = .ok (some bundle))
    (depth : Nat) :
    bundle.schema.unfold bundle.definitions depth =
      unfoldParameters (.ofParameters parameters) parameters depth := by
  have closed := closed_of_generateParametersWith generated
  obtain ⟨properties, after, made, rfl⟩ := generates_of_generateParametersWith generated
  obtain ⟨⟨own, whole, below⟩, faithful⟩ := made.renders (complete_collect agree) nofun
    (resolved_parameterFields agree) Memory.faithful_initial
  cases whole
  have denote : Definitions.Denote (.ofParameters parameters) after.definitions :=
    { renders := faithful.definitions
      refs := closed.refs
      injective := fun first second one other =>
        injective first second (ShapeIndex.occurs_of_resolve? one)
          (ShapeIndex.occurs_of_resolve? other) }
  cases depth with
  | zero => rfl
  | succ depth =>
    have inside : Schema.refsOf own ⊆ after.definitions.map (·.1) := fun id hid =>
      (closed.keys id).2 hid
    have outlines := below.map_eq (unfold_eq_of_renders denote depth) inside
    have fields : (parameterFields (nameParameters parameters)).map (fun field =>
        (field.name, field.shape.unfold (.ofParameters parameters) depth)) =
        parameters.zipIdx.map fun (parameter, position) => (parameter.nameAt position,
          parameter.shape.unfold (.ofParameters parameters) depth) := by
      rw [parameterFields, nameParameters, List.map_map, List.map_map]
      rfl
    have required : requiredParameters parameters =
        parameters.zipIdx.filterMap fun (parameter, position) =>
          if parameter.optional then none else some (parameter.nameAt position) :=
      names_of_not_optional parameters.zipIdx
    simp only [Schema.unfold, Schema.follow, unfoldParameters]
    rw [← fields, ← required, ← outlines]
    rfl

private theorem tree_of_occurs {object : ObjectShape}
    (h : Occurs (treeParameters.map (·.shape)) object) :
    Shape.object object = (treeParameters.headD { shape := .boolean }).shape := by
  induction h with
  | root root head =>
    rcases List.mem_cons.1 root with rfl | root
    · cases head
      rfl
    · rw [List.mem_singleton.1 root] at head
      cases head
  | part outer inside ih =>
    cases ih
    rcases List.mem_filterMap.1 inside with ⟨field, hf, head⟩
    rcases List.mem_cons.1 hf with rfl | hf
    · cases head
    · rw [List.mem_singleton.1 hf] at head
      cases head

theorem tree_parameters_denote :
    ∃ bundle, generateParameters treeParameters = .ok (some bundle) ∧
      bundle.schema.unfold bundle.definitions 4 =
        .object
          [("tree", .object [("label", .string), ("branches", .array (.object
              [("label", .beyond), ("branches", .beyond)] ["label", "branches"]))]
            ["label", "branches"]),
           ("arg1", .object [("label", .string), ("branches", .array (.object
              [("label", .beyond), ("branches", .beyond)] ["label", "branches"]))]
            ["label", "branches"])]
          ["tree"] := by
  obtain ⟨bundle, made, -⟩ := tree_generated
  have agree : NamesAgree (treeParameters.map (·.shape)) := by
    intro first second one other _
    have same := (tree_of_occurs one).trans (tree_of_occurs other).symm
    exact Shape.object.inj same
  have denotes := generateParameters_denotes treeParameters agree
    (fun first second one other _ => by
      have same := (tree_of_occurs one).trans (tree_of_occurs other).symm
      rw [Shape.object.inj same]) made 4
  exact ⟨bundle, made, denotes⟩

end ToolChat
