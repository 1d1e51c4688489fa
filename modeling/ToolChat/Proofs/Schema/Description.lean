import ToolChat.Proofs.Schema.Coverage
import ToolChat.Proofs.Schema.Document
import ToolChat.Proofs.Schema.Growth

/-!
Where descriptions stand.

The schema of a record type is made once and served to all its uses, each of which gives it a
description of its own. What is served is what was made, without a description: so each property has
the description of the parameter or the field that it was made for, and no other use of its type
sees it. Record types of one name need not be the same; the first one met is that which counts.
-/

set_option autoImplicit false

namespace ToolChat

namespace Schema

def bare : Schema → Schema
  | .object properties required _ => .object properties required none
  | .array items _ => .array items none
  | .string _ => .string none
  | .integer _ => .integer none
  | .number _ => .number none
  | .boolean _ => .boolean none
  | .enumeration values _ => .enumeration values none
  | .reference id => .reference id

def isReference : Schema → Bool
  | .reference _ => true
  | _ => false

variable {schema : Schema}

theorem bare_of_undescribed (h : schema.description? = none) : schema.bare = schema := by
  cases schema <;> cases h <;> rfl

theorem bare_describeWith (h : schema.description? = none) (description : Option String) :
    (schema.describeWith description).bare = schema := by
  cases description with
  | none => exact bare_of_undescribed h
  | some text => cases schema <;> cases h <;> rfl

theorem description?_describeWith (h : schema.description? = none)
    (description : Option String) :
    (schema.describeWith description).description? =
      if (schema.describeWith description).isReference then none else description := by
  cases description with
  | none => exact h.trans (ite_self none).symm
  | some text => cases schema <;> rfl

theorem description?_of_plain {shape : Shape} (h : shape.plain? = some schema) :
    schema.description? = none := by
  cases shape <;> cases h <;> rfl

/-- A schema is made for a shape, where `types` are the schemas made for record types. Neither it nor
the schema of its items has a description. -/
inductive MadeFor (types : String → Option Schema) : Schema → Shape → Prop
  | plain {schema : Schema} {shape : Shape} (plain : shape.plain? = some schema) :
      MadeFor types schema shape
  | array {items : Schema} {shape item : Shape} (ofItems : shape.item? = some item)
      (undescribed : items.description? = none) (below : MadeFor types items item) :
      MadeFor types (.array items none) shape
  | map (value : Shape) : MadeFor types anyObject (.map value)
  | reference {shape : Shape} {name : String} (named : shape.typeName? = some name) :
      MadeFor types (.reference (referenceId name)) shape
  | built {schema : Schema} {shape : Shape} {name : String} (named : shape.typeName? = some name)
      (built : types name = some schema) (undescribed : schema.description? = none) :
      MadeFor types schema shape

theorem MadeFor.undescribed {types : String → Option Schema} {shape : Shape}
    (h : MadeFor types schema shape) : schema.description? = none := by
  cases h with
  | plain plain => exact description?_of_plain plain
  | built _ _ undescribed => exact undescribed
  | _ => rfl

theorem MadeFor.mono {types more : String → Option Schema}
    (kept : ∀ name schema, types name = some schema → more name = some schema) {shape : Shape}
    (h : MadeFor types schema shape) : MadeFor more schema shape := by
  induction h with
  | plain plain => exact .plain plain
  | array ofItems undescribed _ ih => exact .array ofItems undescribed ih
  | map value => exact .map value
  | reference named => exact .reference named
  | built named built undescribed => exact .built named (kept _ _ built) undescribed

end Schema

structure Field.Made (types : String → Option Schema) (field : Field)
    (property : String × Schema) : Prop where
  name : property.1 = field.name
  schema : Schema.MadeFor types property.2.bare field.shape
  description : property.2.description? =
    if property.2.isReference then none else field.description

theorem Field.Made.mono {types more : String → Option Schema}
    (kept : ∀ name schema, types name = some schema → more name = some schema) {field : Field}
    {property : String × Schema} (h : field.Made types property) : field.Made more property where
  name := h.name
  schema := h.schema.mono kept
  description := h.description

theorem Field.made {types : String → Option Schema} {field : Field} {schema : Schema}
    (h : Schema.MadeFor types schema field.shape) :
    field.Made types (field.name, schema.describeWith field.description) where
  name := rfl
  schema := by
    rw [Schema.bare_describeWith h.undescribed]
    exact h
  description := Schema.description?_describeWith h.undescribed field.description

structure ObjectShape.Made (types : String → Option Schema) (object : ObjectShape)
    (schema : Schema) (properties : List (String × Schema)) : Prop where
  schema : schema = .object properties (properties.map (·.1)) none
  properties : List.Forall₂ (Field.Made types) object.fields properties

theorem ObjectShape.Made.mono {types more : String → Option Schema}
    (kept : ∀ name schema, types name = some schema → more name = some schema)
    {object : ObjectShape} {schema : Schema} {properties : List (String × Schema)}
    (h : object.Made types schema properties) : object.Made more schema properties where
  schema := h.schema
  properties := h.properties.imp fun _ _ => Field.Made.mono kept

theorem ObjectShape.Made.undescribed {types : String → Option Schema} {object : ObjectShape}
    {schema : Schema} {properties : List (String × Schema)}
    (h : object.Made types schema properties) : schema.description? = none := by
  rw [h.schema]
  rfl

/-- What is kept of record types with a property: under the name of one its schema, and under its
identifier the same schema. -/
structure Memory.Keeps (P : ObjectShape → Prop) (memory : Memory) : Prop where
  built : ∀ name schema, memory.built? name = some schema → ∃ object properties,
    object.name = name ∧ P object ∧ object.Made memory.built? schema properties
  definitions : ∀ pair ∈ memory.definitions, ∃ name,
    pair.1 = referenceId name ∧ memory.built? name = some pair.2

namespace Memory

variable {P : ObjectShape → Prop} {memory : Memory}

theorem keeps_initial : Memory.initial.Keeps P where
  built := nofun
  definitions := nofun

theorem Keeps.settle (keeps : memory.Keeps P) {object : ObjectShape} {schema : Schema}
    {properties : List (String × Schema)} (new : memory.built? object.name = none) (has : P object)
    (made : object.Made memory.built? schema properties) :
    (memory.settle object.name schema).Keeps P where
  built := by
    have kept : ∀ name old, memory.built? name = some old →
        (memory.settle object.name schema).built? name = some old :=
      fun _ _ built => built?_settle_of_eq_some new schema built
    intro name other found
    by_cases same : name = object.name
    · rw [same, built?_settle] at found
      cases found
      exact ⟨object, properties, same.symm, has, made.mono kept⟩
    · rw [built?_settle_of_ne same] at found
      obtain ⟨earlier, before, named, had, was⟩ := keeps.built name other found
      exact ⟨earlier, before, named, had, was.mono kept⟩
  definitions := by
    intro pair inside
    rcases mem_definitions_of_settle inside with rfl | old
    · exact ⟨object.name, rfl, built?_settle memory object.name schema⟩
    · obtain ⟨name, key, built⟩ := keeps.definitions pair old
      exact ⟨name, key, built?_settle_of_eq_some new schema built⟩

end Memory

def SchemaTask.Made (types : String → Option Schema) (schema : Schema) : SchemaTask → Prop
  | .shape root => Schema.MadeFor types schema root
  | .fields done left => ∃ properties,
    schema = .object (done ++ properties) ((done ++ properties).map (·.1)) none ∧
      List.Forall₂ (Field.Made types) left properties

namespace Generates

variable {index : ShapeIndex} {expanding : List String} {memory after : Memory} {task : SchemaTask}
  {schema : Schema}

theorem keeps_built (h : Generates index expanding memory task schema after)
    (opened : memory.Open expanding) :
    after.Open expanding ∧
      ∀ name schema, memory.built? name = some schema → after.built? name = some schema := by
  induction h with
  | plain | map | again | built | done => exact ⟨opened, fun _ _ built => built⟩
  | array _ _ ih => exact ih opened
  | @expanded _ _ between _ object schema _ outside new _ ih =>
    obtain ⟨inside, kept⟩ := ih (List.forall_mem_cons.2 ⟨new, opened⟩)
    obtain ⟨pending, around⟩ := List.forall_mem_cons.1 inside
    refine ⟨Memory.Open.settle around outside, fun name old built => ?_⟩
    exact Memory.built?_settle_of_eq_some pending schema (kept name old built)
  | field _ _ _ first rest =>
    obtain ⟨between, kept⟩ := first opened
    obtain ⟨closing, later⟩ := rest between
    exact ⟨closing, fun name schema built => later name schema (kept name schema built)⟩

variable {P : ObjectShape → Prop}

/-- What is generated is made for its task, and so is what is kept of it. -/
theorem made (parts : ∀ object, P object → ∀ part ∈ partsOf object.fields, P part)
    (indexed : ∀ name object, index.resolve? name = some object → P object)
    (h : Generates index expanding memory task schema after) (opened : memory.Open expanding)
    (heads : ∀ object ∈ task.heads, P object) (keeps : memory.Keeps P) :
    task.Made after.built? schema ∧ after.Keeps P := by
  induction h with
  | plain plain => exact ⟨.plain plain, keeps⟩
  | @array _ _ _ _ item _ ofItems _ ih =>
    have below : ∀ object ∈ (SchemaTask.shape item).heads, P object := by
      intro object inside
      apply heads
      rw [SchemaTask.heads, head?_of_item? ofItems]
      exact inside
    obtain ⟨items, kept⟩ := ih opened below keeps
    exact ⟨.array ofItems items.undescribed items, kept⟩
  | map _ => exact ⟨.map _, keeps⟩
  | again named _ => exact ⟨.reference named, keeps.built, keeps.definitions⟩
  | @built _ _ _ name schema named _ built =>
    obtain ⟨object, properties, -, -, made⟩ := keeps.built name schema built
    exact ⟨.built named built made.undescribed, keeps⟩
  | @expanded _ _ between shape object schema target _ new below ih =>
    have has : P object := by
      cases shape with
      | object own =>
        cases target
        exact heads _ (List.mem_singleton_self _)
      | ref name => exact indexed name object target
      | _ => cases target
    have inside : Memory.Open _ (object.name :: _) := List.forall_mem_cons.2 ⟨new, opened⟩
    obtain ⟨⟨properties, whole, fields⟩, kept⟩ := ih inside (parts object has) keeps
    have made : object.Made between.built? schema properties := ⟨whole, fields⟩
    have pending := (List.forall_mem_cons.1 (below.keeps_built inside).1).1
    have built := Memory.built?_settle between object.name schema
    exact ⟨.built (Shape.typeName?_of_target? target) built made.undescribed,
      kept.settle pending has made⟩
  | done => exact ⟨⟨[], by rw [List.append_nil], .nil⟩, keeps⟩
  | @field _ _ between after done field fields schema _ _ first rest ihFirst ihRest =>
    obtain ⟨head, tail⟩ : (∀ object ∈ (SchemaTask.shape field.shape).heads, P object) ∧
        ∀ object ∈ partsOf fields, P object := by
      refine ⟨fun object inside => ?_, fun object inside => ?_⟩
      · exact heads object (mem_partsOf List.mem_cons_self (Option.mem_toList.1 inside))
      · exact heads object (partsOf_subset_cons field fields inside)
    obtain ⟨shown, kept⟩ := ihFirst opened head keeps
    have still := (first.keeps_built opened).1
    obtain ⟨⟨properties, whole, others⟩, keeps'⟩ := ihRest still tail kept
    have stays := (rest.keeps_built still).2
    have property := (Field.made shown).mono stays
    refine ⟨⟨(field.name, schema.describeWith field.description) :: properties, ?_, ?_⟩, keeps'⟩
    · rw [List.append_cons]
      exact whole
    · exact .cons property others

end Generates

/-- The schema of some parameters has the descriptions that are declared, where `types` are the
schemas made for their record types. -/
structure SchemaBundle.Declares (parameters : List Parameter) (types : String → Option Schema)
    (bundle : SchemaBundle) : Prop where
  /-- The schema around the parameters has no description, and its properties have theirs. -/
  schema : ∃ properties, bundle.schema = .object properties (requiredParameters parameters) none ∧
    List.Forall₂ (Field.Made types) (parameterFields (nameParameters parameters)) properties
  /-- What is defined is what was made for a record type. -/
  definitions : ∀ pair ∈ bundle.definitions, ∃ name,
    pair.1 = referenceId name ∧ types name = some pair.2
  /-- What was made for a record type has no description, and its properties have those of the
  fields of one that occurs under the name. -/
  types : ∀ name schema, types name = some schema → ∃ object properties,
    object.name = name ∧ Occurs (parameters.map (·.shape)) object ∧
      object.Made types schema properties

/-- In the schema of parameters and in all definitions each property has the description of the
parameter or the field that it was made for, unless it is a reference, and nothing else has one. -/
theorem generateParameters_declares (parameters : List Parameter) (bundle : SchemaBundle)
    (accepted : generateParameters parameters = .ok (some bundle)) :
    ∃ types, bundle.Declares parameters types := by
  obtain ⟨properties, after, generated, rfl⟩ := generates_of_generateParametersWith accepted
  have heads : ∀ object ∈ partsOf (parameterFields (nameParameters parameters)),
      Occurs (parameters.map (·.shape)) object := by
    intro object inside
    obtain ⟨field, mem, head⟩ := List.mem_filterMap.1 inside
    obtain ⟨pair, named, rfl⟩ := List.mem_map.1 mem
    have declared := mem_parameters_of_mem_nameParameters named
    exact .root (List.mem_map_of_mem declared) head
  obtain ⟨⟨whole, same, fields⟩, keeps⟩ := generated.made
    (fun _ outer _ inside => Occurs.part outer inside)
    (fun _ _ found => ShapeIndex.occurs_of_resolve? found) nofun heads Memory.keeps_initial
  cases same
  exact ⟨after.built?, ⟨_, rfl, fields⟩, keeps.definitions, keeps.built⟩

def routeParameters : List Parameter :=
  [{ name := some "from"
     description := some "Where it starts."
     shape := .object ⟨"Stop",
       [⟨"name", .string, some "As on the map.", false⟩,
        ⟨"next", .ref "Stop", some "The stop after it.", true⟩]⟩ },
   { name := some "to", shape := .ref "Stop", description := some "Where it ends." },
   { name := some "via", shape := .list (.ref "Stop"), description := some "What it passes." }]

def stopSchema : Schema :=
  .object [("name", .string (some "As on the map.")), ("next", .reference (referenceId "Stop"))]
    ["name", "next"] none

theorem route_declares :
    ∃ bundle types, generateParameters routeParameters = .ok (some bundle) ∧
      bundle.Declares routeParameters types ∧
      bundle.schema = .object
        [("from", stopSchema.describe "Where it starts."),
         ("to", stopSchema.describe "Where it ends."),
         ("via", .array stopSchema (some "What it passes."))] ["from", "to", "via"] none ∧
      bundle.definitions = [(referenceId "Stop", stopSchema)] := by
  have given : routeParameters.isEmpty = false := rfl
  have names : nameParameters routeParameters =
      [("from", ⟨some "from", .object ⟨"Stop", [⟨"name", .string, some "As on the map.", false⟩,
          ⟨"next", .ref "Stop", some "The stop after it.", true⟩]⟩, some "Where it starts.", false⟩),
        ("to", ⟨some "to", .ref "Stop", some "Where it ends.", false⟩),
        ("via", ⟨some "via", .list (.ref "Stop"), some "What it passes.", false⟩)] := rfl
  have required : requiredParameters routeParameters = ["from", "to", "via"] := rfl
  have accepted : generateParameters routeParameters = .ok (some
      ⟨.object [("from", stopSchema.describe "Where it starts."),
          ("to", stopSchema.describe "Where it ends."),
          ("via", .array stopSchema (some "What it passes."))] ["from", "to", "via"] none,
        [(referenceId "Stop", stopSchema)]⟩) := by
    simp [generateParameters, generateParametersWith, given, names, generateProperties,
      Session.generate, Session.withIndex, Session.definitions, generateShape, generateFields,
      settleObject, Memory.initial, Memory.built?, Memory.refer, Memory.settle,
      Dictionary.insertNew, Schema.describeWith, Schema.describe, stopSchema, required]
  obtain ⟨types, declares⟩ := generateParameters_declares routeParameters _ accepted
  exact ⟨_, types, accepted, declares, rfl, rfl⟩

end ToolChat
