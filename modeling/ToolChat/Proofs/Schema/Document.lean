import ToolChat.Proofs.Json.Pointer
import ToolChat.Proofs.Schema.Closure
import ToolChat.Tool.Specification

/-!
Documents of generated schemas.

A generated schema refers only by identifiers of type names and gives each property of an object a
name of its own, so its document has a pointer for each of its references. Both documents of a tool
end with the definitions, and the pointers in them are those to the definitions.
-/

set_option autoImplicit false

namespace ToolChat

private theorem mem_of_mem_intercalate {α : Type} {c : α} {between : List α}
    {parts : List (List α)} (h : c ∈ between.intercalate parts) :
    c ∈ between ∨ ∃ part ∈ parts, c ∈ part := by
  induction parts with
  | nil => cases h
  | cons part parts ih =>
    by_cases last : parts = []
    · rw [last, List.intercalate_singleton] at h
      exact .inr ⟨part, List.mem_cons_self, h⟩
    · rw [List.intercalate_cons_of_ne_nil last, List.append_assoc] at h
      rcases List.mem_append.1 h with here | later
      · exact .inr ⟨part, List.mem_cons_self, here⟩
      · rcases List.mem_append.1 later with inside | later
        · exact .inl inside
        · rcases ih later with inside | ⟨other, ho, hc⟩
          · exact .inl inside
          · exact .inr ⟨other, List.mem_cons_of_mem _ ho, hc⟩

theorem mem_referenceId {name : String} {c : Char} (h : c ∈ (referenceId name).toList) :
    c = '-' ∨ ∃ n, c = Nat.digitChar n := by
  unfold referenceId NameId.grouped at h
  rw [String.toList_intercalate] at h
  rcases mem_of_mem_intercalate h with dash | ⟨part, hp, hc⟩
  · exact .inl (List.mem_singleton.1 dash)
  · obtain ⟨group, hg, rfl⟩ := List.mem_map.1 hp
    have digits : ∃ bytes : List UInt8, group = String.ofList (bytes.flatMap NameId.hexByte) := by
      simp only [List.mem_cons, List.not_mem_nil, or_false] at hg
      rcases hg with rfl | rfl | rfl | rfl | rfl <;> exact ⟨_, rfl⟩
    obtain ⟨bytes, rfl⟩ := digits
    rw [String.toList_ofList] at hc
    obtain ⟨byte, -, digit⟩ := List.mem_flatMap.1 hc
    right
    rcases List.mem_cons.1 digit with high | digit
    · exact ⟨_, high⟩
    · exact ⟨_, List.mem_singleton.1 digit⟩

private theorem not_mem_referenceId {name : String} {c : Char} (dash : c ≠ '-')
    (digit : ∀ n, Nat.digitChar n ≠ c) : c ∉ (referenceId name).toList := by
  intro h
  rcases mem_referenceId h with same | ⟨n, same⟩
  · exact dash same
  · exact digit n same.symm

/-- The pointer of a type name leads to the definition under its identifier. -/
theorem resolve?_referenceId (name : String) {members entries : List (String × Json)}
    (found : members.lookup "$defs" = some (.object entries)) :
    (Json.object members).resolve? (Schema.pointer (referenceId name)) =
      entries.lookup (referenceId name) := by
  have slash : '/' ∉ (referenceId name).toList :=
    not_mem_referenceId (by decide) fun n => Nat.digitChar_ne '/' (by decide)
  have tilde : '~' ∉ (referenceId name).toList :=
    not_mem_referenceId (by decide) fun n => Nat.digitChar_ne '~' (by decide)
  exact Json.resolve?_pointer slash tilde found

namespace Schema

mutual

/-- Whether a schema refers only by identifiers of names and has distinct names of properties. -/
def Proper : Schema → Prop
  | .object properties _ _ => (properties.map (·.1)).Nodup ∧ AllProper properties
  | .array items _ => items.Proper
  | .reference id => ∃ name, id = referenceId name
  | _ => True

def AllProper : List (String × Schema) → Prop
  | [] => True
  | (_, schema) :: rest => schema.Proper ∧ AllProper rest

end

theorem allProper_iff {schemas : List (String × Schema)} :
    AllProper schemas ↔ ∀ pair ∈ schemas, pair.2.Proper := by
  induction schemas with
  | nil => exact iff_of_true trivial nofun
  | cons pair schemas ih => rw [AllProper, ih, List.forall_mem_cons]

theorem allProper_append {left right : List (String × Schema)} :
    AllProper (left ++ right) ↔ AllProper left ∧ AllProper right := by
  rw [allProper_iff, allProper_iff, allProper_iff]
  exact List.forall_mem_append

theorem proper_describeWith {schema : Schema} (h : schema.Proper) (description : Option String) :
    (schema.describeWith description).Proper := by
  cases description with
  | none => exact h
  | some text => cases schema <;> exact h

theorem proper_of_plain {shape : Shape} {schema : Schema} (h : shape.plain? = some schema) :
    schema.Proper := by
  cases shape <;> cases h <;> exact trivial

theorem proper_anyObject : anyObject.Proper :=
  ⟨List.nodup_nil, trivial⟩

mutual

theorem exists_name_of_mem_refs : (schema : Schema) → schema.Proper → ∀ id ∈ schema.refs,
    ∃ name, id = referenceId name
  | .object properties _ _, h, id, hid => exists_name_of_mem_refsOf properties h.2 id hid
  | .array items _, h, id, hid => exists_name_of_mem_refs items h id hid
  | .reference _, h, id, hid => by
    rw [List.mem_singleton.1 hid]
    exact h
  | .string _, _, _, hid | .integer _, _, _, hid | .number _, _, _, hid | .boolean _, _, _, hid
  | .enumeration _ _, _, _, hid => by cases hid

theorem exists_name_of_mem_refsOf : (schemas : List (String × Schema)) → AllProper schemas →
    ∀ id ∈ refsOf schemas, ∃ name, id = referenceId name
  | [], _, _, hid => by cases hid
  | (_, schema) :: rest, h, id, hid => by
    rcases List.mem_append.1 hid with first | later
    · exact exists_name_of_mem_refs schema h.1 id first
    · exact exists_name_of_mem_refsOf rest h.2 id later

end

theorem map_documents (schemas : List (String × Schema)) :
    documents schemas = schemas.map fun pair => (pair.1, pair.2.toJson) := by
  induction schemas with
  | nil => rfl
  | cons pair schemas ih => rw [documents, ih, List.map_cons]

theorem lookup_documents (schemas : List (String × Schema)) (id : String) :
    (documents schemas).lookup id = (schemas.lookup id).map toJson := by
  induction schemas with
  | nil => rfl
  | cons pair schemas ih =>
    obtain ⟨name, schema⟩ := pair
    rw [documents, List.lookup_cons, List.lookup_cons, ih]
    cases id == name <;> rfl

theorem names_documents (schemas : List (String × Schema)) :
    (documents schemas).map (·.1) = schemas.map (·.1) := by
  rw [map_documents, List.map_map]
  rfl

theorem pointerOf_toJson (key : String) (schema : Schema) :
    Json.pointerOf key schema.toJson = [] := by
  cases schema <;> rfl

private theorem pointers_keyword {key : String} {value : Option Json}
    (h : ∀ v, value = some v → Json.pointerOf key v = [] ∧ v.pointers = []) :
    Json.pointersOfMembers (keyword key value) = [] := by
  cases value with
  | none => rfl
  | some v =>
    obtain ⟨here, below⟩ := h v rfl
    rw [keyword, Json.pointersOfMembers, here, below, Json.pointersOfMembers]
    rfl

theorem pointers_description (text : Option String) :
    Json.pointersOfMembers (keyword "description" (text.map .string)) = [] := by
  apply pointers_keyword
  intro v hv
  obtain ⟨content, -, rfl⟩ := Option.map_eq_some_iff.1 hv
  exact ⟨Json.pointerOf_string (by decide) content, Json.pointers_string content⟩

theorem pointers_textArray (texts : List String) : (textArray texts).pointers = [] := by
  rw [textArray, Json.pointers]
  induction texts with
  | nil => rfl
  | cons text texts ih =>
    rw [List.map_cons, Json.pointersOfItems, ih, Json.pointers_string, List.append_nil]

theorem pointers_required (required : List String) :
    Json.pointersOfMembers (keyword "required"
      (if required.isEmpty then none else some (textArray required))) = [] := by
  apply pointers_keyword
  intro v hv
  split at hv
  · cases hv
  · cases hv
    exact ⟨rfl, pointers_textArray required⟩

theorem pointers_cons_string {key text : String} (other : key ≠ "$ref")
    (members : List (String × Json)) :
    Json.pointersOfMembers ((key, .string text) :: members) = Json.pointersOfMembers members := by
  rw [Json.pointersOfMembers, Json.pointerOf_string other, Json.pointers_string]
  rfl

def objectMembers (properties : List (String × Schema)) (required : List String)
    (description : Option String) : List (String × Json) :=
  [("type", .string "object"), ("properties", .object (Json.collect (documents properties)))]
    ++ keyword "required" (if required.isEmpty then none else some (textArray required))
    ++ keyword "description" (description.map .string)

theorem pointers_objectMembers {properties : List (String × Schema)}
    (distinct : (properties.map (·.1)).Nodup) (required : List String)
    (description : Option String) :
    Json.pointersOfMembers (objectMembers properties required description) =
      Json.pointersOfMembers (documents properties) := by
  rw [← names_documents] at distinct
  rw [objectMembers, Json.pointersOfMembers_append, Json.pointersOfMembers_append,
    pointers_required, pointers_description, List.append_nil, List.append_nil,
    pointers_cons_string (by decide), Json.pointersOfMembers, Json.collect_of_nodup distinct,
    Json.pointersOfMembers, Json.pointers, List.append_nil]
  rfl

mutual

theorem pointers_toJson : (schema : Schema) → schema.Proper →
    schema.toJson.pointers = schema.refs.map pointer
  | .object properties required description, h => by
    rw [refs, ← pointers_documents properties h.2,
      ← pointers_objectMembers h.1 required description]
    rfl
  | .array items description, h => by
    rw [toJson, Json.pointers, Json.pointersOfMembers_append, pointers_description,
      List.append_nil, pointers_cons_string (by decide), Json.pointersOfMembers, pointerOf_toJson,
      pointers_toJson items h, Json.pointersOfMembers, List.append_nil]
    rfl
  | .string description, _ | .integer description, _ | .number description, _
  | .boolean description, _ => by
    rw [toJson, Json.pointers, pointers_cons_string (by decide), pointers_description]
    rfl
  | .enumeration values description, _ => by
    rw [toJson, Json.pointers, Json.pointersOfMembers_append, pointers_description,
      List.append_nil, pointers_cons_string (by decide), Json.pointersOfMembers,
      pointers_textArray]
    rfl
  | .reference id, _ => rfl

theorem pointers_documents : (schemas : List (String × Schema)) → AllProper schemas →
    Json.pointersOfMembers (documents schemas) = (refsOf schemas).map pointer
  | [], _ => rfl
  | (name, schema) :: rest, h => by
    rw [documents, Json.pointersOfMembers, pointerOf_toJson, pointers_toJson schema h.1,
      pointers_documents rest h.2, refsOf, List.map_append, List.nil_append]

end

end Schema

structure Memory.Proper (memory : Memory) : Prop where
  built : ∀ pair ∈ memory.built, pair.2.Proper
  definitions : ∀ pair ∈ memory.definitions, pair.2.Proper

theorem Memory.proper_initial : Memory.initial.Proper where
  built := nofun
  definitions := nofun

theorem Memory.Proper.settle {memory : Memory} (proper : memory.Proper) (name : String)
    {schema : Schema} (h : schema.Proper) : (memory.settle name schema).Proper where
  built := by
    intro pair hp
    rcases List.mem_cons.1 hp with rfl | old
    · exact h
    · exact proper.built pair old
  definitions := by
    intro pair hp
    rcases Memory.mem_definitions_of_settle hp with rfl | old
    · exact h
    · exact proper.definitions pair old

def SchemaTask.Proper : SchemaTask → Prop
  | .shape _ => True
  | .fields done _ => (done.map (·.1)).Nodup ∧ Schema.AllProper done

/-- All generated schemas are proper. -/
theorem Generates.proper {index : ShapeIndex} {expanding : List String} {memory after : Memory}
    {task : SchemaTask} {schema : Schema}
    (h : Generates index expanding memory task schema after) (proper : memory.Proper)
    (done : task.Proper) : schema.Proper ∧ after.Proper := by
  induction h with
  | plain plain => exact ⟨Schema.proper_of_plain plain, proper⟩
  | array _ _ ih => exact ih proper trivial
  | map _ => exact ⟨Schema.proper_anyObject, proper⟩
  | @again _ _ _ name _ _ => exact ⟨⟨name, rfl⟩, proper.built, proper.definitions⟩
  | @built _ _ _ name schema _ _ built =>
    exact ⟨proper.built (name, schema) (Memory.mem_of_built? built), proper⟩
  | @expanded _ _ _ _ object _ _ _ _ _ ih =>
    obtain ⟨whole, inside⟩ := ih proper ⟨List.nodup_nil, trivial⟩
    exact ⟨whole, inside.settle object.name whole⟩
  | done => exact ⟨done, proper⟩
  | @field _ _ _ _ earlier field _ made _ new _ _ ihFirst ihRest =>
    obtain ⟨first, between⟩ := ihFirst proper trivial
    have names :
        ((earlier ++ [(field.name, made.describeWith field.description)]).map (·.1)).Nodup := by
      rw [List.map_append, List.nodup_append]
      refine ⟨done.1, List.nodup_cons.2 ⟨List.not_mem_nil, List.nodup_nil⟩, ?_⟩
      intro name old other last same
      have known : name = field.name := same.trans (List.mem_singleton.1 last)
      rw [known] at old
      exact new old
    have properties :
        Schema.AllProper (earlier ++ [(field.name, made.describeWith field.description)]) :=
      Schema.allProper_append.2 ⟨done.2, Schema.proper_describeWith first _, trivial⟩
    exact ihRest between ⟨names, properties⟩

/-- What holds of a generated schema with its definitions: the definitions are those that it refers
to, and the definitions refer to no others. -/
structure SchemaBundle.Closed (bundle : SchemaBundle) : Prop where
  proper : bundle.schema.Proper
  definitions : ∀ pair ∈ bundle.definitions, pair.2.Proper
  keys : ∀ id, id ∈ bundle.definitions.map (·.1) ↔ id ∈ bundle.schema.refs
  refs : ∀ pair ∈ bundle.definitions, pair.2.refs ⊆ bundle.definitions.map (·.1)

theorem closed_of_generateParametersWith {index : ShapeIndex} {parameters : List Parameter}
    {bundle : SchemaBundle} (h : generateParametersWith index parameters = .ok (some bundle)) :
    bundle.Closed := by
  obtain ⟨properties, after, made, rfl⟩ := generates_of_generateParametersWith h
  obtain ⟨closed, refs⟩ := made.closed Memory.closed_initial (List.nil_subset _)
  obtain ⟨proper, held⟩ := made.proper Memory.proper_initial ⟨List.nodup_nil, trivial⟩
  refine ⟨proper, held.definitions, ?_, ?_⟩
  · intro id
    rw [← Memory.keys, closed.mem_keys_iff]
    constructor
    · intro referred
      rcases made.mem_referred referred with old | new
      · cases old
      · exact new
    · exact fun inside => refs inside
  · intro pair hp id inside
    exact closed.mem_keys_iff.2 (closed.definitions pair hp inside)

/-- Every pointer in a document leads to the document of a definition, and there is a pointer to
every definition. -/
structure Json.Resolves (document : Json) (definitions : Definitions) : Prop where
  resolved : ∀ pointer ∈ document.pointers, ∃ id schema, pointer = Schema.pointer id ∧
    definitions.lookup id = some schema ∧ document.resolve? pointer = some schema.toJson
  used : ∀ pair ∈ definitions, Schema.pointer pair.1 ∈ document.pointers

theorem pointers_definitionsKeyword {definitions : Definitions}
    (proper : ∀ pair ∈ definitions, pair.2.Proper) :
    Json.pointersOfMembers (Specification.definitionsKeyword definitions) =
      (Schema.refsOf definitions).map Schema.pointer := by
  have documents := Schema.pointers_documents definitions (Schema.allProper_iff.2 proper)
  cases definitions with
  | nil => rfl
  | cons first rest =>
    rw [← documents]
    exact List.append_nil _

theorem resolves_append_definitions {bundle : SchemaBundle} (closed : bundle.Closed)
    {front : List (String × Json)} (fresh : "$defs" ∉ front.map (·.1))
    (pointers : Json.pointersOfMembers front = bundle.schema.refs.map Schema.pointer) :
    (Json.object (front ++ Specification.definitionsKeyword bundle.definitions)).Resolves
      bundle.definitions := by
  have whole : (Json.object (front ++
      Specification.definitionsKeyword bundle.definitions)).pointers =
      (bundle.schema.refs ++ Schema.refsOf bundle.definitions).map Schema.pointer := by
    rw [Json.pointers, Json.pointersOfMembers_append, pointers,
      pointers_definitionsKeyword closed.definitions, List.map_append]
  constructor
  case resolved =>
    intro pointer hp
    rw [whole] at hp
    obtain ⟨id, hid, rfl⟩ := List.mem_map.1 hp
    have key : id ∈ bundle.definitions.map (·.1) := by
      rcases List.mem_append.1 hid with above | below
      · exact (closed.keys id).2 above
      · obtain ⟨pair, hpair, inside⟩ := Schema.mem_refsOf.1 below
        exact closed.refs pair hpair inside
    -- Only identifiers of type names are known to stand in a pointer as they are.
    obtain ⟨name, rfl⟩ := Schema.exists_name_of_mem_refs bundle.schema closed.proper id
      ((closed.keys id).1 key)
    obtain ⟨schema, found⟩ := Option.ne_none_iff_exists'.1 fun none =>
      Dictionary.lookup_eq_none_iff.1 none key
    refine ⟨referenceId name, schema, rfl, found, ?_⟩
    have last : (front ++ Specification.definitionsKeyword bundle.definitions).lookup "$defs" =
        some (.object (Schema.documents bundle.definitions)) := by
      rw [List.lookup_append, Dictionary.lookup_eq_none_iff.2 fresh, Option.none_or]
      cases definitions : bundle.definitions with
      | nil =>
        rw [definitions] at key
        cases key
      | cons first rest => rfl
    rw [resolve?_referenceId name last, Schema.lookup_documents, found, Option.map_some]
  case used =>
    intro pair hp
    rw [whole]
    have referred := (closed.keys pair.1).1 (List.mem_map_of_mem hp)
    exact List.mem_map_of_mem (List.mem_append_left _ referred)

theorem not_mem_keys_append {key : String} {left right : List (String × Json)}
    (hl : key ∉ left.map (·.1)) (hr : key ∉ right.map (·.1)) : key ∉ (left ++ right).map (·.1) := by
  rw [List.map_append, List.mem_append]
  exact not_or.2 ⟨hl, hr⟩

theorem not_mem_keys_keyword {key other : String} (h : key ≠ other) (value : Option Json) :
    key ∉ (Schema.keyword other value).map (·.1) := by
  cases value with
  | none => exact List.not_mem_nil
  | some v => exact fun hk => h (List.mem_singleton.1 hk)

theorem not_mem_keys_pair {key first : String} (h : key ≠ first) (value : Json)
    {rest : List (String × Json)} (hr : key ∉ rest.map (·.1)) :
    key ∉ ((first, value) :: rest).map (·.1) := by
  rw [List.map_cons, List.mem_cons]
  exact not_or.2 ⟨h, hr⟩

theorem exists_members_toJson (schema : Schema) :
    ∃ members, schema.toJson = .object members ∧ "$defs" ∉ members.map (·.1) := by
  have description : ∀ text : Option String,
      "$defs" ∉ (Schema.keyword "description" (text.map .string)).map (·.1) := fun text =>
    not_mem_keys_keyword (by decide) _
  have type : ∀ (value : Json) {rest : List (String × Json)}, "$defs" ∉ rest.map (·.1) →
      "$defs" ∉ (("type", value) :: rest).map (·.1) := fun value => not_mem_keys_pair (by decide) value
  cases schema with
  | object properties required text =>
    refine ⟨_, rfl, not_mem_keys_append (not_mem_keys_append (type _ ?_) ?_) (description text)⟩
    · exact not_mem_keys_pair (by decide) _ List.not_mem_nil
    · exact not_mem_keys_keyword (by decide) _
  | array items text =>
    refine ⟨_, rfl, not_mem_keys_append (type _ ?_) (description text)⟩
    exact not_mem_keys_pair (by decide) _ List.not_mem_nil
  | enumeration values text =>
    refine ⟨_, rfl, not_mem_keys_append (type _ ?_) (description text)⟩
    exact not_mem_keys_pair (by decide) _ List.not_mem_nil
  | string text => exact ⟨_, rfl, type _ (description text)⟩
  | integer text => exact ⟨_, rfl, type _ (description text)⟩
  | number text => exact ⟨_, rfl, type _ (description text)⟩
  | boolean text => exact ⟨_, rfl, type _ (description text)⟩
  | reference id => exact ⟨_, rfl, not_mem_keys_pair (by decide) _ List.not_mem_nil⟩

theorem embedDefinitions_object {members : List (String × Json)}
    (fresh : "$defs" ∉ members.map (·.1)) (definitions : Definitions) :
    Specification.embedDefinitions definitions (.object members) =
      .object (members ++ Specification.definitionsKeyword definitions) := by
  cases definitions with
  | nil => exact congrArg Json.object (List.append_nil members).symm
  | cons first rest => exact congrArg Json.object (Json.put_of_not_mem fresh _)

theorem pointers_before_definitions (name : String) (description : Option String)
    (parameters : Option Json) (bare : ∀ document, parameters = some document →
      Json.pointerOf "parameters" document = []) :
    Json.pointersOfMembers ([("name", .string name)] ++
        Schema.keyword "description" (description.map .string) ++
        Schema.keyword "parameters" parameters) =
      (parameters.elim [] Json.pointers) := by
  rw [Json.pointersOfMembers_append, Json.pointersOfMembers_append, Schema.pointers_description,
    Schema.pointers_cons_string (by decide)]
  cases parameters with
  | none => rfl
  | some document =>
    rw [Schema.keyword, Json.pointersOfMembers, Json.pointersOfMembers, bare document rfl]
    exact List.append_nil _

theorem resolves_toJson {bundle : SchemaBundle} (closed : bundle.Closed) (bare : Specification) :
    (bare.withParameters bundle).toJson.Resolves bundle.definitions := by
  apply resolves_append_definitions closed
  · refine not_mem_keys_append (not_mem_keys_append ?_ ?_) ?_
    · exact not_mem_keys_pair (by decide) _ List.not_mem_nil
    · exact not_mem_keys_keyword (by decide) _
    · exact not_mem_keys_keyword (by decide) _
  · rw [← Schema.pointers_toJson bundle.schema closed.proper]
    apply pointers_before_definitions
    rintro document ⟨⟩
    exact Schema.pointerOf_toJson _ _

theorem resolves_toJson_bare (name : String) (description : Option String) :
    ({ name, description } : Specification).toJson.Resolves [] where
  resolved := by
    intro pointer hp
    have silent := pointers_before_definitions name description none nofun
    rw [Specification.toJson, Json.pointers, Json.pointersOfMembers_append] at hp
    rcases List.mem_append.1 hp with front | definitions
    · rw [Option.map_none, silent] at front
      cases front
    · cases definitions
  used := nofun

theorem resolves_parametersJson {bundle : SchemaBundle} (closed : bundle.Closed)
    (bare : Specification) :
    ∃ document, (bare.withParameters bundle).parametersJson = some document ∧
      document.Resolves bundle.definitions := by
  obtain ⟨members, whole, fresh⟩ := exists_members_toJson bundle.schema
  have pointers : Json.pointersOfMembers members = bundle.schema.refs.map Schema.pointer := by
    rw [← Schema.pointers_toJson bundle.schema closed.proper, whole, Json.pointers]
  refine ⟨Specification.embedDefinitions bundle.definitions bundle.schema.toJson, rfl, ?_⟩
  rw [whole, embedDefinitions_object fresh]
  exact resolves_append_definitions closed fresh pointers

/-- After calls that all succeed, the definitions of a session are those that the returned schemas
refer to, and they refer to no others. So in both documents of a tool every pointer leads to the
document of a definition, and every definition is pointed to. -/
theorem definitions_eq_references :
    (∀ index schemas session, Session.Returned index schemas session →
      (∀ id, id ∈ session.definitions.map (·.1) ↔ ∃ schema ∈ schemas, id ∈ schema.refs) ∧
      ∀ pair ∈ session.definitions, ∀ id ∈ pair.2.refs, id ∈ session.definitions.map (·.1)) ∧
    ∀ index parameters generated name description,
      generateParametersWith index parameters = .ok generated →
        let bare : Specification := { name, description }
        let specification := generated.elim bare bare.withParameters
        specification.toJson.Resolves specification.definitions ∧
        (specification.parametersJson.isSome = generated.isSome ∧
          ∀ document, specification.parametersJson = some document →
            document.Resolves specification.definitions) ∧
        ∀ pair ∈ specification.definitions, ∃ schema, specification.parameters = some schema ∧
          Schema.pointer pair.1 ∈ schema.toJson.pointers := by
  constructor
  · intro index schemas session returned
    have closed := returned.closed
    constructor
    · intro id
      exact closed.mem_keys_iff.trans returned.mem_referred_iff
    · intro pair hp id inside
      exact closed.mem_keys_iff.2 (closed.definitions pair hp inside)
  · intro index parameters generated name description accepted bare specification
    cases generated with
    | none =>
      exact ⟨resolves_toJson_bare name description, ⟨rfl, nofun⟩, nofun⟩
    | some bundle =>
      have closed := closed_of_generateParametersWith accepted
      obtain ⟨document, rendered, resolves⟩ := resolves_parametersJson closed bare
      refine ⟨resolves_toJson closed bare, ⟨rfl, ?_⟩, ?_⟩
      · intro other same
        rw [← Option.some.inj (rendered.symm.trans same)]
        exact resolves
      · intro pair hp
        refine ⟨bundle.schema, rfl, ?_⟩
        rw [Schema.pointers_toJson bundle.schema closed.proper]
        exact List.mem_map_of_mem ((closed.keys pair.1).1 (List.mem_map_of_mem hp))

def treeParameters : List Parameter :=
  [{ name := some "tree"
     shape := .object ⟨"Tree",
       [⟨"label", .string, none, false⟩,
        ⟨"branches", .list (.ref "Tree"), some "What grows from it.", false⟩]⟩ },
   { shape := .ref "Tree", description := some "Where to start.", optional := true }]

theorem tree_generated : ∃ bundle, generateParameters treeParameters = .ok (some bundle) ∧
    bundle.definitions.map (·.1) = [referenceId "Tree"] := by
  have given : treeParameters.isEmpty = false := rfl
  have names : nameParameters treeParameters =
      [("tree", ⟨some "tree", .object ⟨"Tree", [⟨"label", .string, none, false⟩,
          ⟨"branches", .list (.ref "Tree"), some "What grows from it.", false⟩]⟩, none, false⟩),
        ("arg1", ⟨none, .ref "Tree", some "Where to start.", true⟩)] := rfl
  simp [generateParameters, generateParametersWith, given, names, generateProperties,
    Session.generate, Session.withIndex, Session.definitions, generateShape, generateFields,
    settleObject, Memory.initial, Memory.built?, Memory.refer, Memory.settle, Dictionary.insertNew]

theorem tree_definitions_eq_references :
    ∃ bundle, generateParameters treeParameters = .ok (some bundle) ∧
      bundle.definitions.map (·.1) = [referenceId "Tree"] ∧
      (Specification.withParameters { name := "climb" } bundle).toJson.Resolves
        bundle.definitions ∧
      ∃ schema session, Session.Returned (.ofParameters treeParameters) [schema] session ∧
        schema.refs = [referenceId "Tree"] ∧ referenceId "Tree" ∈ session.definitions.map (·.1) := by
  have called : ∃ schema, ((Session.withIndex (.ofParameters treeParameters)).generate
      (.ref "Tree")).1 = .ok schema ∧ schema.refs = [referenceId "Tree"] := by
    rw [Session.generate, Session.withIndex, generateShape_resolved List.not_mem_nil rfl rfl]
    simp [generateShape, generateFields, settleObject, Memory.initial, Memory.refer, Schema.refs,
      Schema.refsOf, Schema.refs_describeWith]
  obtain ⟨sessions, documents⟩ := definitions_eq_references
  obtain ⟨bundle, made, keys⟩ := tree_generated
  obtain ⟨schema, answered, refs⟩ := called
  have returned : Session.Returned (.ofParameters treeParameters) ([] ++ [schema])
      ((Session.withIndex (.ofParameters treeParameters)).generate (.ref "Tree")).2 :=
    .call .start (Prod.ext answered rfl)
  have inside : referenceId "Tree" ∈ schema.refs := by
    rw [refs]
    exact List.mem_singleton_self _
  refine ⟨bundle, made, keys, (documents _ _ _ "climb" none made).1, schema, _, returned, refs, ?_⟩
  exact ((sessions _ _ _ returned).1 _).2 ⟨schema, List.mem_singleton_self _, inside⟩

end ToolChat
