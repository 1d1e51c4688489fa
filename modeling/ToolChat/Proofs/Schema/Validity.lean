import ToolChat.Proofs.Number.Exact
import ToolChat.Proofs.Schema.Unfolding

/-!
Validity of JSON against schemas.

Validity follows references through the definitions, so it holds of a document if there is a
derivation, which ends because the document does. What is valid against a schema that stands for a
shape has the form of the shape, and the same is true of its parts.
-/

set_option autoImplicit false

namespace ToolChat

/-- JSON is valid against a schema with some definitions. Members that a schema does not declare are
not looked at, and a number with a fraction of zero is an integer. -/
inductive Accepts (definitions : Definitions) : Schema → Json → Prop
  | integer {n : Json.Number} {m : Int} (whole : n.Is m) (description : Option String) :
      Accepts definitions (.integer description) (.number n)
  | number (n : Json.Number) (description : Option String) :
      Accepts definitions (.number description) (.number n)
  | boolean (b : Bool) (description : Option String) :
      Accepts definitions (.boolean description) (.boolean b)
  | string (s : String) (description : Option String) :
      Accepts definitions (.string description) (.string s)
  | enumeration {values : List String} {s : String} (listed : s ∈ values)
      (description : Option String) :
      Accepts definitions (.enumeration values description) (.string s)
  | array {items : Schema} {elements : List Json}
      (each : ∀ json ∈ elements, Accepts definitions items json) (description : Option String) :
      Accepts definitions (.array items description) (.array elements)
  | object {properties : List (String × Schema)} {required : List String}
      {members : List (String × Json)} (present : ∀ name ∈ required, name ∈ members.map (·.1))
      (declared : ∀ property ∈ properties, ∀ json, members.lookup property.1 = some json →
        Accepts definitions property.2 json)
      (description : Option String) :
      Accepts definitions (.object properties required description) (.object members)
  | reference {id : String} {schema : Schema} {json : Json}
      (found : definitions.lookup id = some schema) (below : Accepts definitions schema json) :
      Accepts definitions (.reference id) json

variable {index : ShapeIndex} {definitions : Definitions}

theorem Accepts.ne_null {schema : Schema} {json : Json} (h : Accepts definitions schema json) :
    json ≠ .null := by
  induction h with
  | reference _ _ ih => exact ih
  | _ => nofun

theorem Accepts.of_reference {id : String} {json : Json}
    (h : Accepts definitions (.reference id) json) :
    ∃ schema, definitions.lookup id = some schema ∧ Accepts definitions schema json := by
  cases h with | reference found below
  exact ⟨_, found, below⟩

theorem accepts_describeWith {schema : Schema} {json : Json} (description : Option String) :
    Accepts definitions (schema.describeWith description) json ↔
      Accepts definitions schema json := by
  cases description with
  | none => rfl
  | some text =>
    cases schema with
    | object properties required old =>
      exact ⟨fun (.object present declared _) => .object present declared old,
        fun (.object present declared _) => .object present declared (some text)⟩
    | array items old =>
      exact ⟨fun (.array each _) => .array each old, fun (.array each _) => .array each (some text)⟩
    | string old => exact ⟨fun (.string s _) => .string s old, fun (.string s _) => .string s _⟩
    | integer old =>
      exact ⟨fun (.integer whole _) => .integer whole old, fun (.integer whole _) => .integer whole _⟩
    | number old => exact ⟨fun (.number n _) => .number n old, fun (.number n _) => .number n _⟩
    | boolean old => exact ⟨fun (.boolean b _) => .boolean b old, fun (.boolean b _) => .boolean b _⟩
    | enumeration values old =>
      exact ⟨fun (.enumeration listed _) => .enumeration listed old,
        fun (.enumeration listed _) => .enumeration listed _⟩
    | reference id => rfl

theorem Renders.of_plain {bare schema : Schema} {shape : Shape} (plain : shape.plain? = some bare)
    (h : Renders index schema shape) : ∃ description, schema = bare.describeWith description := by
  cases h with
  | integer kind description | number kind description | boolean description | string description
  | enumeration shape description =>
    cases plain
    exact ⟨description, by cases description <;> rfl⟩
  | array ofItems _ _ => cases shape <;> cases ofItems <;> cases plain
  | map => cases plain
  | object target _ _ | reference target _ =>
    cases shape with
    | object | ref => cases plain
    | _ => cases target

theorem RendersAll.exists_property : {properties : List (String × Schema)} → {fields : List Field} →
    RendersAll index properties fields → ∀ field ∈ fields, ∃ schema,
      (field.name, schema) ∈ properties ∧ Renders index schema field.shape
  | _, _, .nil, _, inside => by cases inside
  | _, _, .cons first rest, field, inside => by
    rcases List.mem_cons.1 inside with rfl | later
    · exact ⟨_, List.mem_cons_self, first⟩
    · obtain ⟨schema, property, renders⟩ := rest.exists_property field later
      exact ⟨schema, List.mem_cons_of_mem _ property, renders⟩

structure ValidMembers (index : ShapeIndex) (definitions : Definitions) (required : List String)
    (fields : List Field) (members : List (String × Json)) : Prop where
  present : ∀ field ∈ fields, field.name ∈ required → Json.member? field.name members ≠ none
  valid : ∀ field ∈ fields, ∀ json, Json.member? field.name members = some json → ∃ schema,
    Renders index schema field.shape ∧ schema.refs ⊆ definitions.map (·.1) ∧
      Accepts definitions schema json

theorem validMembers_of_accepts {properties : List (String × Schema)} {required : List String}
    {description : Option String} {fields : List Field} {members : List (String × Json)}
    (below : RendersAll index properties fields)
    (refs : Schema.refsOf properties ⊆ definitions.map (·.1))
    (accepts : Accepts definitions (.object properties required description) (.object members)) :
    ValidMembers index definitions required fields members := by
  cases accepts with | object present declared _
  refine ⟨?_, ?_⟩
  · intro field inside name
    obtain ⟨schema, property, -⟩ := below.exists_property field inside
    cases found : members.lookup field.name with
    | none => exact absurd (present _ name) (Dictionary.lookup_eq_none_iff.1 found)
    | some json =>
      have valid := declared _ property json found
      rw [Json.member?_of_lookup found valid.ne_null]
      nofun
  · intro field inside json given
    obtain ⟨schema, property, renders⟩ := below.exists_property field inside
    have inner : schema.refs ⊆ definitions.map (·.1) := fun id hid =>
      refs (Schema.mem_refsOf.2 ⟨_, property, hid⟩)
    exact ⟨schema, renders, inner, declared _ property json (Json.lookup_of_member? given)⟩

theorem Renders.of_item {schema : Schema} {shape item : Shape}
    (ofItems : shape.item? = some item) (h : Renders index schema shape) :
    ∃ items description, schema = .array items description ∧ Renders index items item := by
  cases h with
  | array other below description =>
    cases other.symm.trans ofItems
    exact ⟨_, description, rfl, below⟩
  | integer | number | boolean | string | enumeration | map => cases ofItems
  | object target _ _ | reference target _ => cases shape <;> cases ofItems <;> cases target

theorem Renders.of_target (denote : definitions.Denote index) {schema : Schema} {shape : Shape}
    {object : ObjectShape} (target : shape.target? index = some object)
    (h : Renders index schema shape) (refs : schema.refs ⊆ definitions.map (·.1)) :
    ∃ properties description, RendersAll index properties object.fields ∧
      Schema.refsOf properties ⊆ definitions.map (·.1) ∧
      schema.follow definitions = .object properties (object.fields.map (·.name)) description ∧
      ∀ json, Accepts definitions schema json ↔ Accepts definitions
        (.object properties (object.fields.map (·.name)) description) json := by
  cases h with
  | object other below description =>
    cases other.symm.trans target
    exact ⟨_, description, below, refs, rfl, fun json => Iff.rfl⟩
  | reference other resolved =>
    cases other.symm.trans target
    obtain ⟨inner, found, ⟨properties, rfl, below⟩, inside⟩ :=
      denote.exists_lookup resolved (refs (List.mem_singleton_self _))
    refine ⟨properties, none, below, inside, ?_, fun json => ⟨?_, .reference found⟩⟩
    · rw [Schema.follow, found, Option.getD_some]
    · intro accepts
      obtain ⟨schema, same, valid⟩ := accepts.of_reference
      obtain rfl := Option.some.inj (same.symm.trans found)
      exact valid
  | integer | number | boolean | string | enumeration | map => cases target
  | array ofItems _ _ => cases shape <;> cases ofItems <;> cases target

theorem Renders.of_map {schema : Schema} {value : Shape} (h : Renders index schema (.map value)) :
    ∃ description, schema = .object [] [] description := by
  cases h with
  | map _ description => exact ⟨description, rfl⟩
  | array ofItems _ _ => cases ofItems
  | object target _ _ | reference target _ => cases target

theorem object_of_accepts (denote : definitions.Denote index) {schema : Schema} {shape : Shape}
    {object : ObjectShape} {json : Json} (target : shape.target? index = some object)
    (renders : Renders index schema shape) (refs : schema.refs ⊆ definitions.map (·.1))
    (accepts : Accepts definitions schema json) :
    ∃ members, json = .object members ∧
      ValidMembers index definitions (object.fields.map (·.name)) object.fields members := by
  obtain ⟨properties, description, below, inside, -, same⟩ := renders.of_target denote target refs
  have valid := (same json).1 accepts
  cases (same json).1 accepts with | @object _ _ members _ _ _
  exact ⟨members, rfl, validMembers_of_accepts below inside valid⟩

theorem array_of_accepts {schema : Schema} {shape item : Shape} {json : Json}
    (ofItems : shape.item? = some item) (renders : Renders index schema shape)
    (refs : schema.refs ⊆ definitions.map (·.1)) (accepts : Accepts definitions schema json) :
    ∃ elements items, json = .array elements ∧ Renders index items item ∧
      items.refs ⊆ definitions.map (·.1) ∧ ∀ json ∈ elements, Accepts definitions items json := by
  obtain ⟨items, description, rfl, below⟩ := renders.of_item ofItems
  cases accepts with | @array _ elements each _
  exact ⟨elements, items, rfl, below, refs, each⟩

end ToolChat
