import ToolChat.Proofs.Schema.Agreement

/-!
What schemas require.

Wherever the schema of a tool and its parameters are followed side by side, outside of maps, the
schema of a record type requires all of its fields. So valid arguments never lack what the binder
needs there. All of this rests on names: a schema is generated once for each name of a record type.
-/

set_option autoImplicit false

namespace ToolChat

variable {index : ShapeIndex} {definitions : Definitions}

/-- A schema and a shape are reached side by side from a schema and a shape, outside of maps. -/
inductive Alongside (index : ShapeIndex) (definitions : Definitions) :
    Schema → Shape → Schema → Shape → Prop
  | here {schema : Schema} {shape : Shape} : Alongside index definitions schema shape schema shape
  | item {schema items node : Schema} {shape item place : Shape} {description : Option String}
      (ofItems : shape.item? = some item)
      (array : schema.follow definitions = .array items description)
      (below : Alongside index definitions items item node place) :
      Alongside index definitions schema shape node place
  | field {schema inner node : Schema} {shape place : Shape} {object : ObjectShape} {field : Field}
      (target : shape.target? index = some object) (inside : field ∈ object.fields)
      (property : (schema.follow definitions).property? field.name = some inner)
      (below : Alongside index definitions inner field.shape node place) :
      Alongside index definitions schema shape node place

theorem RendersAll.of_lookup {properties : List (String × Schema)} {fields : List Field}
    (below : RendersAll index properties fields)
    (refs : Schema.refsOf properties ⊆ definitions.map (·.1))
    (distinct : (fields.map (·.name)).Nodup) {field : Field} (inside : field ∈ fields)
    {schema : Schema} (property : properties.lookup field.name = some schema) :
    Renders index schema field.shape ∧ schema.refs ⊆ definitions.map (·.1) := by
  obtain ⟨other, member, renders⟩ := below.exists_property field inside
  rw [← below.names] at distinct
  have stored := Dictionary.lookup_eq_some_of_mem distinct member
  obtain rfl := Option.some.inj (stored.symm.trans property)
  exact ⟨renders, fun id hid => refs (Schema.mem_refsOf.2 ⟨_, member, hid⟩)⟩

/-- A schema that stands for a shape does so wherever the two are followed side by side, and so
requires what it meets. -/
theorem Alongside.requires (denote : definitions.Denote index) {schema node : Schema}
    {shape place : Shape} (h : Alongside index definitions schema shape node place)
    (renders : Renders index schema shape) (refs : schema.refs ⊆ definitions.map (·.1))
    (sound : shape.Sound index) {object : ObjectShape} (target : place.target? index = some object) :
    (node.follow definitions).requiredNames = object.fields.map (·.name) := by
  induction h with
  | here =>
    obtain ⟨properties, description, -, -, followed, -⟩ := renders.of_target denote target refs
    rw [followed]
    rfl
  | item ofItems array _ ih =>
    obtain ⟨items, description, rfl, inner⟩ := renders.of_item ofItems
    cases array
    exact ih inner refs (sound.part (.item ofItems)) target
  | @field _ _ _ shape _ _ field here inside property _ ih =>
    obtain ⟨properties, description, below, inner, followed, -⟩ :=
      renders.of_target denote here refs
    rw [followed] at property
    obtain ⟨renders, refs⟩ := below.of_lookup inner (sound.distinct shape _ .refl here) inside
      property
    exact ih renders refs (sound.part (.field here inside)) target

theorem Violation.cause_of_kind {v : Violation} (h : v.toToolError.kind = .missingField) :
    v.cause = .missing := by
  unfold toToolError at h
  split at h
  · next missing => exact missing
  · cases h

/-- A tool that is registered has a schema which covers what its binder requires, if its record
types are told apart by their names and have identifiers of their own. Arguments that are valid
against the schema can lack a field only inside of an entry of a map, and wherever the schema and
the parameters are followed side by side the schema requires all fields that it meets. -/
theorem register_covers {σ : Type} (tools after : Toolset σ) (tool : Tool σ)
    (agree : NamesAgree (tool.parameters.map (·.shape)))
    (injective : ∀ first second, Occurs (tool.parameters.map (·.shape)) first →
      Occurs (tool.parameters.map (·.shape)) second →
        referenceId first.name = referenceId second.name → first.name = second.name)
    (registered : tools.register tool = .ok after) :
    ∃ entry, after.get? tool.name = some entry ∧
      (∀ text members e, readArguments text = .ok members →
        (∀ schema, entry.specification.parameters = some schema →
          Accepts entry.specification.definitions schema (.object members)) →
        entry.bind text = .error e → e.kind = .missingField →
          ∃ v, bindParameters entry.shapes members (nameParameters entry.parameters) = .error v ∧
            e = v.toToolError ∧ v.path.InMap) ∧
      ∀ schema, entry.specification.parameters = some schema →
        ∀ name parameter, (name, parameter) ∈ nameParameters entry.parameters →
          (parameter.optional = false → name ∈ schema.requiredNames) ∧
          ∀ root node place object, schema.property? name = some root →
            Alongside entry.shapes entry.specification.definitions root parameter.shape node place →
            place.target? entry.shapes = some object →
              (node.follow entry.specification.definitions).requiredNames =
                object.fields.map (·.name) := by
  obtain ⟨entry, made, found⟩ := Toolset.exists_entry_of_register registered
  obtain ⟨-, parameters, shapes, generated, accepted, schemas, defined⟩ :=
    RegisteredTool.of_ofTool_eq_ok made
  refine ⟨entry, found, ?_, ?_⟩
  · intro text members e read valid failed kind
    rcases bindArguments_eq_error failed with unread | ⟨same, v, again, bound, rfl⟩
    · cases unread.symm.trans read
    · cases again.symm.trans read
      refine ⟨v, bound, rfl, ?_⟩
      rw [parameters, shapes] at bound
      cases generated with
      | none =>
        rw [eq_nil_of_generateParameters accepted] at bound
        cases bound
      | some bundle =>
        have describes := describes_of_generateParameters agree injective accepted
        have accepts := valid bundle.schema schemas
        rw [defined] at accepts
        rcases describes.of_bindParameters_eq_error accepts bound with ⟨map, -⟩ | ⟨present, -⟩
        · exact map
        · exact absurd (Violation.cause_of_kind kind) present
  · intro schema given name parameter inside
    rw [schemas] at given
    obtain ⟨bundle, rfl, rfl⟩ := Option.map_eq_some_iff.1 given
    obtain ⟨distinct, sound⟩ := sound_of_generateParameters agree accepted
    obtain ⟨denote, properties, whole, below, refs⟩ :=
      describes_of_generateParameters agree injective accepted
    rw [parameters] at inside
    rw [defined, shapes, whole]
    refine ⟨mem_requiredParameters inside, ?_⟩
    intro root node place object property alongside target
    rw [← names_parameterFields] at distinct
    obtain ⟨renders, refs⟩ := below.of_lookup refs distinct (mem_parameterFields inside) property
    exact alongside.requires denote renders refs
      (sound parameter (mem_parameters_of_mem_nameParameters inside)) target

theorem ship_covers : ∃ after entry, Toolset.empty.register ship = .ok after ∧
    after.get? "ship" = some entry ∧
    ∀ text members e, readArguments text = .ok members →
      (∀ schema, entry.specification.parameters = some schema →
        Accepts entry.specification.definitions schema (.object members)) →
      entry.bind text = .error e → e.kind = .missingField →
        ∃ v, bindParameters entry.shapes members (nameParameters entry.parameters) = .error v ∧
          e = v.toToolError ∧ v.path.InMap := by
  obtain ⟨after, entered⟩ := ship_registered
  have identified : ∀ first second, Occurs (ship.parameters.map (·.shape)) first →
      Occurs (ship.parameters.map (·.shape)) second →
        referenceId first.name = referenceId second.name → first.name = second.name := by
    intro first second one other _
    rw [eq_address_of_occurs one, eq_address_of_occurs other]
  obtain ⟨entry, found, covered, -⟩ :=
    register_covers .empty after ship shipping_names_agree identified entered
  exact ⟨after, entry, entered, found, covered⟩

/-- Two record types of one name, of which only the second has a field. -/
def routing : List Parameter :=
  [{ name := some "from", shape := .object ⟨"Place", []⟩ },
    { name := some "to", shape := .object ⟨"Place", [⟨"city", .string, none, false⟩]⟩ }]

def route : Tool Unit where
  name := "route"
  parameters := routing
  handler := { body := fun _ _ => return .ok (.text "straight on") }

def routeText : String :=
  "\x7b\"from\":\x7b\x7d,\"to\":\x7b\x7d\x7d"

def routeMembers : List (String × Json) :=
  [("from", .object []), ("to", .object [])]

theorem route_text_reads : readArguments routeText = .ok routeMembers := by
  have same : (Json.object routeMembers).text = routeText := by decide +kernel
  have empty : Json.Spelled 1 (.object []) :=
    .object List.nodup_nil fun _ inside => absurd inside List.not_mem_nil
  have whole : Json.Spelled 2 (.object routeMembers) := by
    refine .object (by decide) fun member inside => ?_
    rcases List.mem_pair.1 inside with rfl | rfl <;> exact empty
  rw [← same]
  exact readArguments_text whole (by decide)

/-- If two record types have one name, then the second is given the schema of the first: arguments
that are valid lack its field. -/
theorem route_lacks_city : ∃ after entry schema,
    Toolset.empty.register route = .ok after ∧ after.get? "route" = some entry ∧
    entry.specification.parameters = some schema ∧
    readArguments routeText = .ok routeMembers ∧
    Accepts entry.specification.definitions schema (.object routeMembers) ∧
    entry.bind routeText = .error (.missingField "to.city") ∧
    bindParameters entry.shapes routeMembers (nameParameters entry.parameters) =
      .error ⟨.field (.argument "to") "city", .missing⟩ ∧
    ¬(Path.field (.argument "to") "city").InMap := by
  have given : routing.isEmpty = false := rfl
  have names : nameParameters routing =
      [("from", ⟨some "from", .object ⟨"Place", []⟩, none, false⟩),
        ("to", ⟨some "to", .object ⟨"Place", [⟨"city", .string, none, false⟩]⟩, none, false⟩)] :=
    rfl
  have required : requiredParameters routing = ["from", "to"] := rfl
  have place : generateParameters routing = .ok (some ⟨.object
      [("from", .object [] [] none), ("to", .object [] [] none)] ["from", "to"] none, []⟩) := by
    simp [generateParameters, generateParametersWith, given, names, required, generateProperties,
      Session.generate, Session.withIndex, Session.definitions, generateShape, generateFields,
      settleObject, Memory.initial, Memory.built?, Memory.settle, Schema.describeWith]
  have bound : bindParameters (.ofParameters route.parameters) routeMembers
      (nameParameters route.parameters) = .error ⟨.field (.argument "to") "city", .missing⟩ := by
    simp [route, names, routeMembers, bindParameters, bindParameter, bindValue, bindFields,
      bindField, Json.member?, List.lookup_cons, Except.map]
  obtain ⟨after, entered⟩ : ∃ after, Toolset.empty.register route = .ok after :=
    Toolset.exists_register rfl (by decide) place
  obtain ⟨entry, made, found⟩ := Toolset.exists_entry_of_register entered
  obtain ⟨-, parameters, shapes, generated, accepted, schemas, defined⟩ :=
    RegisteredTool.of_ofTool_eq_ok made
  cases accepted.symm.trans place
  have nothing : Accepts [] (.object [] [] none) (.object []) := by
    refine .object ?_ ?_ none
    · intro name inside
      cases inside
    · intro property inside
      cases inside
  have valid : Accepts [] (.object [("from", .object [] [] none), ("to", .object [] [] none)]
      ["from", "to"] none) (.object routeMembers) := by
    have present : ∀ name ∈ ["from", "to"], name ∈ routeMembers.map (·.1) := fun name inside => inside
    refine .object present ?_ none
    intro property inside json given
    simp only [List.mem_cons, List.not_mem_nil, or_false] at inside
    rcases inside with rfl | rfl
    · cases given
      exact nothing
    · cases given
      exact nothing
  have lacking : entry.bind routeText = .error (.missingField "to.city") := by
    rw [RegisteredTool.bind, parameters, shapes, bindArguments, route_text_reads]
    dsimp only
    rw [bound]
    rfl
  refine ⟨after, entry, _, entered, found, schemas, route_text_reads, ?_, lacking, ?_, id⟩
  · rw [defined]
    exact valid
  · rw [parameters, shapes]
    exact bound

end ToolChat
