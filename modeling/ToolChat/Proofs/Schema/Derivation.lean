import ToolChat.Schema.Parameters

/-!
How schemas are generated.

A derivation has one constructor for each way in which the schema of a shape is made: at once, from
the schema of its items, by a reference to an object around it, from what was built before, or by
expanding its fields. Every call of a session that succeeds has a derivation, so that what holds of
all sessions is proved by induction on derivations.
-/

set_option autoImplicit false

namespace ToolChat

namespace Shape

def plain? : Shape → Option Schema
  | .integer _ => some (.integer none)
  | .number _ => some (.number none)
  | .boolean => some (.boolean none)
  | .string => some (.string none)
  | .enumeration shape => some (.enumeration shape.variants none)
  | _ => none

def item? : Shape → Option Shape
  | .list item | .set item => some item
  | _ => none

def typeName? : Shape → Option String
  | .object shape => some shape.name
  | .ref name => some name
  | _ => none

def target? (index : ShapeIndex) : Shape → Option ObjectShape
  | .object shape => some shape
  | .ref name => index.resolve? name
  | _ => none

end Shape

/-- What a schema is generated for: a shape, or a record type of which some properties are done and
some fields are left. -/
inductive SchemaTask where
  | shape (shape : Shape)
  | fields (done : List (String × Schema)) (fields : List Field)

/-- The schema of a task, generated inside some objects: its memory before and after. -/
inductive Generates (index : ShapeIndex) :
    List String → Memory → SchemaTask → Schema → Memory → Prop
  | plain {expanding : List String} {memory : Memory} {shape : Shape} {schema : Schema}
      (plain : shape.plain? = some schema) :
      Generates index expanding memory (.shape shape) schema memory
  | array {expanding : List String} {memory after : Memory} {shape item : Shape} {schema : Schema}
      (items : shape.item? = some item)
      (below : Generates index expanding memory (.shape item) schema after) :
      Generates index expanding memory (.shape shape) (.array schema none) after
  | map {expanding : List String} {memory : Memory} {value : Shape} {visited : Visited []}
      (bindable : checkBindable index
        (fun name => expanding.contains name || (memory.built? name).isSome) [] value =
          .ok visited) :
      Generates index expanding memory (.shape (.map value)) .anyObject memory
  | again {expanding : List String} {memory : Memory} {shape : Shape} {name : String}
      (named : shape.typeName? = some name) (within : name ∈ expanding) :
      Generates index expanding memory (.shape shape) (.reference (referenceId name))
        (memory.refer name).2
  | built {expanding : List String} {memory : Memory} {shape : Shape} {name : String}
      {schema : Schema} (named : shape.typeName? = some name) (outside : name ∉ expanding)
      (built : memory.built? name = some schema) :
      Generates index expanding memory (.shape shape) schema memory
  | expanded {expanding : List String} {memory after : Memory} {shape : Shape}
      {object : ObjectShape} {schema : Schema} (target : shape.target? index = some object)
      (outside : object.name ∉ expanding) (new : memory.built? object.name = none)
      (below : Generates index (object.name :: expanding) memory (.fields [] object.fields) schema
        after) :
      Generates index expanding memory (.shape shape) schema (after.settle object.name schema)
  | done {expanding : List String} {memory : Memory} {done : List (String × Schema)} :
      Generates index expanding memory (.fields done []) (.object done (done.map (·.1)) none) memory
  | field {expanding : List String} {memory between after : Memory} {done : List (String × Schema)}
      {field : Field} {fields : List Field} {schema whole : Schema}
      (new : field.name ∉ done.map (·.1))
      (first : Generates index expanding memory (.shape field.shape) schema between)
      (rest : Generates index expanding between
        (.fields (done ++ [(field.name, schema.describeWith field.description)]) fields) whole
        after) :
      Generates index expanding memory (.fields done (field :: fields)) whole after

theorem settleObject_eq_ok {name : String} {generated : Generated Schema} {schema : Schema}
    {after : Memory} (h : settleObject name generated = (.ok schema, after)) :
    ∃ between, generated = (.ok schema, between) ∧ after = between.settle name schema := by
  obtain ⟨outcome, between⟩ := generated
  cases outcome with
  | error e => cases h
  | ok made =>
    cases h
    exact ⟨between, rfl, rfl⟩

theorem settleObject_eq_error {name : String} {generated : Generated Schema} {e : SchemaError}
    {after : Memory} (h : settleObject name generated = (.error e, after)) :
    ∃ cause between, generated = (.error cause, between) := by
  obtain ⟨outcome, between⟩ := generated
  cases outcome with
  | error cause => exact ⟨cause, between, rfl⟩
  | ok made => cases h

theorem generateShape_resolved {index : ShapeIndex} {expanding : List String} {memory : Memory}
    {name : String} {target : ObjectShape} (outside : name ∉ expanding)
    (new : memory.built? name = none) (found : index.resolve? name = some target) :
    generateShape index expanding (.ref name) memory =
      settleObject name
        (generateFields index (name :: expanding) name [] target.fields memory) := by
  rw [generateShape, dif_neg outside, new]
  dsimp only
  split
  · next missing =>
    rw [found] at missing
    cases missing
  · next again =>
    rw [found] at again
    cases again
    rfl

private theorem not_mem_names {done : List (String × Schema)} {name : String}
    (h : ¬(done.any fun x => x.1 == name) = true) : name ∉ done.map (·.1) := by
  intro hm
  obtain ⟨pair, hp, same⟩ := List.mem_map.1 hm
  exact h (List.any_eq_true.2 ⟨pair, hp, beq_iff_eq.2 same⟩)

/-- Whatever is generated has a derivation. -/
theorem generates_of_eq_ok (index : ShapeIndex) :
    (∀ expanding shape memory schema after,
      generateShape index expanding shape memory = (.ok schema, after) →
        Generates index expanding memory (.shape shape) schema after) ∧
    ∀ expanding owner done fields memory schema after,
      generateFields index expanding owner done fields memory = (.ok schema, after) →
        Generates index expanding memory (.fields done fields) schema after := by
  apply generateShape.mutual_induct index
    (fun expanding shape memory => ∀ schema after,
      generateShape index expanding shape memory = (.ok schema, after) →
        Generates index expanding memory (.shape shape) schema after)
    (fun expanding owner done fields memory => ∀ schema after,
      generateFields index expanding owner done fields memory = (.ok schema, after) →
        Generates index expanding memory (.fields done fields) schema after)
  case case1 | case2 | case5 =>
    intro expanding memory kind schema after h
    rw [generateShape] at h
    cases h
    exact .plain rfl
  case case3 | case4 =>
    intro expanding memory schema after h
    rw [generateShape] at h
    cases h
    exact .plain rfl
  case case6 | case8 =>
    intro expanding memory item items between made ih schema after h
    rw [generateShape, made] at h
    cases h
    exact .array rfl (ih items _ made)
  case case7 | case9 =>
    intro expanding memory item e between failed _ schema after h
    rw [generateShape, failed] at h
    cases h
  case case10 =>
    intro expanding memory value settled visited bindable schema after h
    rw [generateShape, bindable] at h
    cases h
    exact .map bindable
  case case11 =>
    intro expanding memory value settled e refused schema after h
    rw [generateShape, refused] at h
    cases h
  case case12 =>
    intro expanding memory name fields within reference between _ schema after h
    rw [generateShape, if_pos within] at h
    cases h
    exact .again rfl within
  case case13 =>
    intro expanding memory name fields outside found built schema after h
    rw [generateShape, if_neg outside, built] at h
    cases h
    exact .built rfl outside built
  case case14 =>
    intro expanding memory name fields outside new ih schema after h
    rw [generateShape, if_neg outside, new] at h
    obtain ⟨between, made, rfl⟩ := settleObject_eq_ok h
    have target : Shape.target? index (.object ⟨name, fields⟩) = some ⟨name, fields⟩ := rfl
    exact .expanded target outside new (ih schema between made)
  case case15 =>
    intro expanding memory name within reference between _ schema after h
    rw [generateShape, dif_pos within] at h
    cases h
    exact .again rfl within
  case case16 =>
    intro expanding memory name outside found built schema after h
    rw [generateShape, dif_neg outside, built] at h
    cases h
    exact .built rfl outside built
  case case17 =>
    intro expanding memory name outside new missing schema after h
    rw [generateShape, dif_neg outside, new] at h
    dsimp only at h
    split at h
    · cases h
    · next found =>
      rw [missing] at found
      cases found
  case case18 =>
    intro expanding memory name outside new target found ih schema after h
    rw [generateShape_resolved outside new found] at h
    obtain ⟨between, made, rfl⟩ := settleObject_eq_ok h
    obtain ⟨-, rfl⟩ := ShapeIndex.mem_of_resolve?_eq_some found
    exact .expanded found outside new (ih schema between made)
  case case19 =>
    intro expanding memory name schema after h
    rw [generateShape] at h
    cases h
  case case20 =>
    intro expanding owner done memory schema after h
    rw [generateFields] at h
    cases h
    exact .done
  case case21 =>
    intro expanding owner done memory name shape description nullable fields twice schema after h
    rw [generateFields, if_pos twice] at h
    cases h
  case case22 =>
    intro expanding owner done memory name shape description nullable fields _ e between failed _
      schema after h
    rw [generateFields, failed] at h
    split at h <;> cases h
  case case23 =>
    intro expanding owner done memory name shape description nullable fields new first between made
      ihFirst ihRest schema after h
    rw [generateFields, if_neg new, made] at h
    exact .field (not_mem_names new) (ihFirst first between made) (ihRest schema after h)

theorem generates_of_generate {session after : Session} {shape : Shape} {schema : Schema}
    (h : session.generate shape = (.ok schema, after)) :
    after.index = session.index ∧
      Generates session.index [] session.memory (.shape shape) schema after.memory := by
  unfold Session.generate at h
  cases made : generateShape session.index [] shape session.memory with
  | mk outcome memory =>
    rw [made] at h
    cases h
    exact ⟨rfl, (generates_of_eq_ok session.index).1 [] shape session.memory schema memory made⟩

def parameterFields (named : List (String × Parameter)) : List Field :=
  named.map fun (name, parameter) =>
    ⟨name, parameter.shape, parameter.description, parameter.optional⟩

theorem mem_parameters_of_mem_nameParameters {parameters : List Parameter}
    {pair : String × Parameter} (h : pair ∈ nameParameters parameters) : pair.2 ∈ parameters := by
  obtain ⟨⟨parameter, position⟩, member, rfl⟩ := List.mem_map.1 h
  exact List.fst_mem_of_mem_zipIdx member

theorem exists_name_of_mem_parameters {parameters : List Parameter} {parameter : Parameter}
    (h : parameter ∈ parameters) : ∃ name, (name, parameter) ∈ nameParameters parameters := by
  obtain ⟨position, found⟩ := List.mem_iff_getElem?.1 h
  have member : (parameter, position) ∈ parameters.zipIdx := List.mem_zipIdx_iff_getElem?.2 found
  exact ⟨_, List.mem_map_of_mem member⟩

theorem names_parameterFields (named : List (String × Parameter)) :
    (parameterFields named).map (·.name) = named.map (·.1) := by
  rw [parameterFields, List.map_map]
  rfl

theorem generates_of_generateProperties {session after : Session}
    {done properties : List (String × Schema)} {named : List (String × Parameter)}
    (h : generateProperties session done named = .ok (properties, after)) :
    Generates session.index [] session.memory (.fields done (parameterFields named))
      (.object properties (properties.map (·.1)) none) after.memory := by
  induction named generalizing session done with
  | nil =>
    cases h
    exact .done
  | cons first rest ih =>
    obtain ⟨name, parameter⟩ := first
    rw [generateProperties] at h
    split at h
    · cases h
    · next new =>
      cases made : session.generate parameter.shape with
      | mk outcome between =>
        rw [made] at h
        cases outcome with
        | error e => cases h
        | ok schema =>
          obtain ⟨same, below⟩ := generates_of_generate made
          have others := ih h
          rw [same] at others
          exact Generates.field (not_mem_names new) below others

theorem generates_of_generateParametersWith {index : ShapeIndex} {parameters : List Parameter}
    {bundle : SchemaBundle}
    (h : generateParametersWith index parameters = .ok (some bundle)) :
    ∃ properties after,
      Generates index [] .initial (.fields [] (parameterFields (nameParameters parameters)))
        (.object properties (properties.map (·.1)) none) after ∧
      bundle = ⟨.object properties (requiredParameters parameters) none, after.definitions⟩ := by
  unfold generateParametersWith at h
  split at h
  · cases h
  · cases made : generateProperties (.withIndex index) [] (nameParameters parameters) with
    | error e =>
      rw [made] at h
      cases h
    | ok whole =>
      obtain ⟨properties, session⟩ := whole
      rw [made] at h
      cases h
      exact ⟨properties, session.memory, generates_of_generateProperties made, rfl⟩

end ToolChat
