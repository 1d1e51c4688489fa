import ToolChat.Proofs.Argument.RoundTrip
import ToolChat.Proofs.Schema.Acceptance
import ToolChat.Proofs.Schema.Validity

/-!
Schemas and the binder.

Of arguments that are valid against the generated schema the binder refuses only what the schema
leaves open: numbers that are out of range of their kind, and what stands in the entries of a map.
The other way round, bound arguments without a null are valid again.
-/

set_option autoImplicit false

namespace ToolChat

variable {index : ShapeIndex} {definitions : Definitions}

def Path.InMap : Path → Prop
  | .argument _ => False
  | .field parent _ | .item parent _ => parent.InMap
  | .entry _ _ => True

namespace Shape

/-- Whether a number is in range of the kind that a shape asks for. What is not an integer, and
every number in double precision, is in range. -/
def InRange : Shape → Json.Number → Prop
  | .integer kind, n => ∀ m, n.Is m → kind.contains m = true
  | .number .f32, n => FloatKind.f32.contains n.toDouble = true
  | _, _ => True

/-- JSON stands at a shape inside of JSON that stands at a shape, outside of maps. -/
inductive Places (index : ShapeIndex) : Shape → Json → Shape → Json → Prop
  | here {shape : Shape} {json : Json} : Places index shape json shape json
  | item {shape item place : Shape} {items : List Json} {json inner : Json}
      (ofItems : shape.item? = some item) (member : json ∈ items)
      (below : Places index item json place inner) :
      Places index shape (.array items) place inner
  | field {shape place : Shape} {object : ObjectShape} {field : Field}
      {members : List (String × Json)} {json inner : Json}
      (target : shape.target? index = some object) (inside : field ∈ object.fields)
      (present : Json.member? field.name members = some json)
      (below : Places index field.shape json place inner) :
      Places index shape (.object members) place inner

end Shape

def OutOfRange (index : ShapeIndex) (shape : Shape) (json : Json) : Prop :=
  ∃ place n, shape.Places index json place (.number n) ∧ ¬place.InRange n

theorem Violates.inMap {shape : Shape} {path : Path} {json : Json} {v : Violation}
    (h : Violates index shape path json v) (inside : path.InMap) : v.path.InMap := by
  induction h with
  | plain plain refused =>
    rw [(cause_of_plain plain refused).1]
    exact inside
  | notObject | notArray | notMap | undeclared | undescribed | missing => exact inside
  | field _ _ _ _ ih => exact ih inside
  | item _ _ _ ih => exact ih inside
  | entry _ _ _ ih => exact ih trivial

theorem Violates.exists_map {shape : Shape} {path : Path} {json : Json} {v : Violation}
    (h : Violates index shape path json v) (inside : v.path.InMap) (outside : ¬path.InMap) :
    ∃ value, shape.Reaches index (.map value) := by
  induction h with
  | plain plain refused =>
    rw [(cause_of_plain plain refused).1] at inside
    exact absurd inside outside
  | notObject | notArray | notMap | undeclared | undescribed | missing => exact absurd inside outside
  | field target member _ _ ih =>
    obtain ⟨value, steps⟩ := ih inside outside
    exact ⟨value, .head (.part (.field target member)) steps⟩
  | item items _ _ ih =>
    obtain ⟨value, steps⟩ := ih inside outside
    exact ⟨value, .head (.part (.item items)) steps⟩
  | @entry value _ _ _ _ _ _ _ _ _ => exact ⟨value, .refl⟩

theorem outOfRange_of_plain {shape : Shape} {plain schema : Schema} {path : Path} {json : Json}
    {v : Violation} (isPlain : shape.plain? = some plain) (renders : Renders index schema shape)
    (accepts : Accepts definitions schema json)
    (refused : bindValue index shape path json = .error v) :
    ∃ n, json = .number n ∧ ¬shape.InRange n := by
  obtain ⟨description, rfl⟩ := renders.of_plain isPlain
  rw [accepts_describeWith] at accepts
  cases shape with
  | integer kind =>
    cases isPlain
    cases accepts with | @integer n m whole _
    refine ⟨n, rfl, fun range => ?_⟩
    have contained := range m whole
    obtain ⟨low, high⟩ := IntegerKind.inExactRange_of_contains contained
    have magnitude : m.natAbs < 18446744073709551616 := by omega
    rw [bindValue, bindInteger, Json.Number.exactInt?_eq_some_iff.2 ⟨whole, magnitude⟩] at refused
    dsimp only at refused
    rw [if_pos contained] at refused
    cases refused
  | number kind =>
    cases isPlain
    cases accepts with | number n _
    refine ⟨n, rfl, fun range => ?_⟩
    have contained : kind.contains n.toDouble = true := by
      cases kind with
      | f32 => exact range
      | f64 => exact n.contains_toDouble
    rw [bindValue, bindNumber, if_pos contained] at refused
    cases refused
  | boolean =>
    cases isPlain
    cases accepts
    rw [bindValue, bindBoolean] at refused
    cases refused
  | string =>
    cases isPlain
    cases accepts
    rw [bindValue, bindString] at refused
    cases refused
  | enumeration shape =>
    cases isPlain
    cases accepts with | enumeration listed _
    have contained : shape.contains _ = true := List.contains_iff_mem.2 listed
    rw [bindValue, bindConstant, if_pos contained] at refused
    cases refused
  | _ => cases isPlain

/-- What is wrong with valid JSON lies in an entry of a map, or is a number out of range. -/
theorem Violates.of_accepts (denote : definitions.Denote index) {shape : Shape} {path : Path}
    {json : Json} {v : Violation} (h : Violates index shape path json v) :
    ∀ schema, Renders index schema shape → schema.refs ⊆ definitions.map (·.1) →
      Accepts definitions schema json →
        v.path.InMap ∨ v.cause ≠ .missing ∧ OutOfRange index shape json := by
  -- A valid document has all members that the binder asks for and each is of the form it asks for,
  -- so of the ways to violate a shape only two are left.
  induction h with
  | @plain shape _ _ json v isPlain refused =>
    intro schema renders _ accepts
    obtain ⟨n, rfl, out⟩ := outOfRange_of_plain isPlain renders accepts refused
    exact .inr ⟨(cause_of_plain isPlain refused).2.1, shape, n, .here, out⟩
  | notObject target other =>
    intro schema renders refs accepts
    obtain ⟨members, rfl, -⟩ := object_of_accepts denote target renders refs accepts
    exact absurd rfl other
  | notArray ofItems other =>
    intro schema renders refs accepts
    obtain ⟨elements, items, rfl, -⟩ := array_of_accepts ofItems renders refs accepts
    exact absurd rfl other
  | notMap other =>
    intro schema renders _ accepts
    obtain ⟨description, rfl⟩ := renders.of_map
    cases accepts
    exact absurd rfl other
  | @undeclared name _ _ missing =>
    intro schema renders _ _
    have unknown : Shape.target? index (.ref name) = none := missing
    cases renders with
    | array ofItems _ _ => cases ofItems
    | object target _ _ | reference target _ => cases unknown.symm.trans target
  | undescribed =>
    intro schema renders _ _
    cases renders with
    | array ofItems _ _ => cases ofItems
    | object target _ _ | reference target _ => cases target
  | @missing _ _ field _ _ target inside absent _ =>
    intro schema renders refs accepts
    obtain ⟨members, same, valid⟩ := object_of_accepts denote target renders refs accepts
    cases same
    exact absurd absent (valid.present field inside (List.mem_map_of_mem inside))
  | @field _ _ field _ _ json _ target inside present _ ih =>
    intro schema renders refs accepts
    obtain ⟨members, same, valid⟩ := object_of_accepts denote target renders refs accepts
    cases same
    obtain ⟨schema, renders, refs, accepts⟩ := valid.valid field inside json present
    rcases ih schema renders refs accepts with map | ⟨cause, place, n, places, out⟩
    · exact .inl map
    · exact .inr ⟨cause, place, n, .field target inside present places, out⟩
  | @item _ _ _ _ _ json _ ofItems found _ ih =>
    intro schema renders refs accepts
    obtain ⟨elements, items, same, renders, refs, each⟩ :=
      array_of_accepts ofItems renders refs accepts
    cases same
    have member := List.mem_of_getElem? found
    rcases ih items renders refs (each json member) with map | ⟨cause, place, n, places, out⟩
    · exact .inl map
    · exact .inr ⟨cause, place, n, .item ofItems member places, out⟩
  | entry _ _ below => exact fun _ _ _ _ => .inl (below.inMap trivial)

/-- What holds of the schema of some parameters: its properties stand for the parameters, and the
definitions denote the record types of the index. -/
structure SchemaBundle.Describes (index : ShapeIndex) (parameters : List Parameter)
    (bundle : SchemaBundle) : Prop where
  denote : bundle.definitions.Denote index
  properties : ∃ properties,
    bundle.schema = .object properties (requiredParameters parameters) none ∧
    RendersAll index properties (parameterFields (nameParameters parameters)) ∧
    Schema.refsOf properties ⊆ bundle.definitions.map (·.1)

variable {parameters : List Parameter}

theorem describes_of_generateParameters (agree : NamesAgree (parameters.map (·.shape)))
    (injective : ∀ first second, Occurs (parameters.map (·.shape)) first →
      Occurs (parameters.map (·.shape)) second →
        referenceId first.name = referenceId second.name → first.name = second.name)
    {bundle : SchemaBundle} (generated : generateParameters parameters = .ok (some bundle)) :
    bundle.Describes (.ofParameters parameters) parameters := by
  have closed := closed_of_generateParametersWith generated
  obtain ⟨properties, after, made, rfl⟩ := generates_of_generateParametersWith generated
  obtain ⟨⟨own, whole, below⟩, faithful⟩ := made.renders (complete_collect agree) nofun
    (resolved_parameterFields agree) Memory.faithful_initial
  cases whole
  have denote : Definitions.Denote (.ofParameters parameters) after.definitions :=
    { renders := faithful.definitions
      refs := closed.refs
      injective := fun first second one other =>
        injective first second (ShapeIndex.occurs_of_resolve? one)
          (ShapeIndex.occurs_of_resolve? other) }
  exact ⟨denote, own, rfl, below, fun id hid => (closed.keys id).2 hid⟩

theorem mem_requiredParameters {name : String} {parameter : Parameter}
    (inside : (name, parameter) ∈ nameParameters parameters) (required : parameter.optional = false) :
    name ∈ requiredParameters parameters := by
  unfold requiredParameters
  refine List.mem_map.2 ⟨(name, parameter), List.mem_filter.2 ⟨inside, ?_⟩, rfl⟩
  simp [required]

theorem mem_parameterFields {named : List (String × Parameter)} {name : String}
    {parameter : Parameter} (inside : (name, parameter) ∈ named) :
    ⟨name, parameter.shape, parameter.description, parameter.optional⟩ ∈ parameterFields named :=
  List.mem_map.2 ⟨_, inside, rfl⟩

def NumbersInRange (parameters : List Parameter) (members : List (String × Json)) : Prop :=
  ∀ name parameter json, (name, parameter) ∈ nameParameters parameters →
    Json.member? name members = some json →
      ∀ place n, parameter.shape.Places (.ofParameters parameters) json place (.number n) →
        place.InRange n

theorem SchemaBundle.Describes.of_bindParameters_eq_error {bundle : SchemaBundle}
    (describes : bundle.Describes (.ofParameters parameters) parameters)
    {members : List (String × Json)}
    (accepts : Accepts bundle.definitions bundle.schema (.object members)) {v : Violation}
    (failed : bindParameters (.ofParameters parameters) members (nameParameters parameters) =
      .error v) :
    (v.path.InMap ∧ ∃ parameter ∈ parameters, ∃ value,
        parameter.shape.Reaches (.ofParameters parameters) (.map value)) ∨
      v.cause ≠ .missing ∧ ¬NumbersInRange parameters members := by
  obtain ⟨denote, properties, whole, below, refs⟩ := describes
  rw [whole] at accepts
  have valid := validMembers_of_accepts below refs accepts
  obtain ⟨name, parameter, inside, ⟨absent, required, -⟩ | ⟨json, present, violates⟩⟩ :=
    violates_of_bindParameters failed
  · have named := mem_requiredParameters inside required
    exact absurd absent (valid.present _ (mem_parameterFields inside) named)
  · obtain ⟨schema, renders, refs, accepts⟩ :=
      valid.valid _ (mem_parameterFields inside) json present
    rcases violates.of_accepts denote schema renders refs accepts with map |
      ⟨cause, place, n, places, out⟩
    · have member := mem_parameters_of_mem_nameParameters inside
      exact .inl ⟨map, parameter, member, violates.exists_map map id⟩
    · exact .inr ⟨cause, fun range => out (range _ _ json inside present place n places)⟩

namespace Value

inductive Inside : Value → Value → Prop
  | self {value : Value} : Inside value value
  | listed {inner item : Value} {items : List Value} (member : item ∈ items)
      (below : Inside inner item) : Inside inner (.list items)
  | kept {inner item : Value} {items : List Value} (member : item ∈ items)
      (below : Inside inner item) : Inside inner (.set items)
  | entry {inner : Value} {entry : String × Value} {entries : List (String × Value)}
      (member : entry ∈ entries) (below : Inside inner entry.2) : Inside inner (.map entries)
  | field {inner : Value} {field : String × Value} {fields : List (String × Value)}
      (member : field ∈ fields) (below : Inside inner field.2) : Inside inner (.object fields)

end Value

theorem RendersAll.exists_pair : {properties : List (String × Schema)} → {fields : List Field} →
    RendersAll index properties fields → {values : List (String × Value)} →
      values.map (·.1) = fields.map (·.name) → ∀ property ∈ properties,
        ∃ pair ∈ fields.zip values, pair.2.1 = property.1 ∧ Renders index property.2 pair.1.shape
  | _, _, .nil, _, _, _, inside => by cases inside
  | _, _, .cons first rest, [], names, _, _ => by cases names
  | _, _, .cons first rest, value :: values, names, property, inside => by
    obtain ⟨here, later⟩ := List.cons.inj names
    rcases List.mem_cons.1 inside with rfl | inside
    · exact ⟨(_, value), List.mem_cons_self, here, first⟩
    · obtain ⟨pair, member, same, renders⟩ := rest.exists_pair later property inside
      exact ⟨pair, List.mem_cons_of_mem _ member, same, renders⟩

theorem accepts_of_values {properties : List (String × Schema)} {required : List String}
    {fields : List Field} {values : List (String × Value)}
    (below : RendersAll index properties fields)
    (refs : Schema.refsOf properties ⊆ definitions.map (·.1))
    (names : values.map (·.1) = fields.map (·.name)) (distinct : (fields.map (·.name)).Nodup)
    (subset : required ⊆ fields.map (·.name))
    (each : ∀ pair ∈ fields.zip values, ∀ schema, Renders index schema pair.1.shape →
      schema.refs ⊆ definitions.map (·.1) → Accepts definitions schema pair.2.2.toJson)
    (description : Option String) :
    Accepts definitions (.object properties required description)
      (.object (Json.collect (values.map fun (name, value) => (name, value.toJson)))) := by
  have keys : (values.map fun (name, value) => (name, value.toJson)).map (·.1) =
      fields.map (·.name) := by
    rw [List.map_map, ← names]
    rfl
  have unique : ((values.map fun (name, value) => (name, value.toJson)).map (·.1)).Nodup := by
    rw [keys]
    exact distinct
  rw [Json.collect_of_nodup unique]
  refine .object ?_ ?_ description
  · intro name inside
    rw [keys]
    exact subset inside
  · intro property inside json found
    obtain ⟨⟨field, name, value⟩, member, same, renders⟩ := below.exists_pair names property inside
    have inner : property.2.refs ⊆ definitions.map (·.1) := fun id hid =>
      refs (Schema.mem_refsOf.2 ⟨property, inside, hid⟩)
    have given : (property.1, value.toJson) ∈
        values.map fun (name, value) => (name, value.toJson) := by
      rw [← same]
      exact List.mem_map.2 ⟨(name, value), (List.of_mem_zip member).2, rfl⟩
    have stored := Dictionary.lookup_eq_some_of_mem unique given
    obtain rfl := Option.some.inj (stored.symm.trans found)
    exact each _ member property.2 renders inner

theorem accepts_items {items : Schema} {values : List Value}
    (each : ∀ value ∈ values, Accepts definitions items value.toJson)
    (description : Option String) :
    Accepts definitions (.array items description) (.array (Value.itemsJson values)) := by
  rw [Value.itemsJson_eq_map]
  refine .array ?_ description
  intro json member
  obtain ⟨value, inside, rfl⟩ := List.mem_map.1 member
  exact each value inside

theorem Inhabits.accepts_plain {shape : Shape} {bare schema : Schema} {value : Value}
    (h : Inhabits index shape value) (plain : shape.plain? = some bare)
    (renders : Renders index schema shape) : Accepts definitions schema value.toJson := by
  obtain ⟨description, rfl⟩ := renders.of_plain plain
  rw [accepts_describeWith]
  cases h with
  | @integer kind n within =>
    cases plain
    have range := IntegerKind.inExactRange_of_contains within
    have whole : (Json.Number.integer n range).Is n := rfl
    rw [Value.toJson, Json.ofInt, dif_pos range]
    exact .integer whole none
  | number within =>
    cases plain
    obtain ⟨finite, rfl⟩ := exists_finite_of_contains within
    exact .number (.float finite) none
  | boolean b =>
    cases plain
    exact .boolean b none
  | string s =>
    cases plain
    exact .string s none
  | constant listed =>
    cases plain
    exact .enumeration (List.contains_iff_mem.1 listed) none
  | list | set | map => cases plain
  | object target =>
    cases shape with
    | object | ref => cases plain
    | _ => cases target

theorem Inhabits.accepts (denote : definitions.Denote index) {shape : Shape} {value : Value}
    (h : Inhabits index shape value) (sound : shape.Sound index)
    (mapless : ∀ inner, ¬shape.Reaches index (.map inner)) (free : ¬Value.Inside .null value) :
    ∀ schema, Renders index schema shape → schema.refs ⊆ definitions.map (·.1) →
      Accepts definitions schema value.toJson := by
  induction h with
  | integer within =>
    exact fun schema renders _ => Inhabits.accepts_plain (.integer within) rfl renders
  | number within => exact fun schema renders _ => Inhabits.accepts_plain (.number within) rfl renders
  | boolean b => exact fun schema renders _ => Inhabits.accepts_plain (.boolean b) rfl renders
  | string s => exact fun schema renders _ => Inhabits.accepts_plain (.string s) rfl renders
  | constant listed =>
    exact fun schema renders _ => Inhabits.accepts_plain (.constant listed) rfl renders
  | @list item values each ih =>
    intro schema renders refs
    obtain ⟨items, description, rfl, below⟩ := renders.of_item rfl
    have part : (Shape.list item).Part index item := .item rfl
    refine accepts_items (fun value member => ?_) description
    exact ih value member (sound.part part)
      (fun inner steps => mapless inner (.head (.part part) steps))
      (fun null => free (.listed member null)) items below refs
  | @set item values each ih =>
    intro schema renders refs
    obtain ⟨items, description, rfl, below⟩ := renders.of_item rfl
    have part : (Shape.set item).Part index item := .item rfl
    refine accepts_items (fun value member => ?_) description
    exact ih value member (sound.part part)
      (fun inner steps => mapless inner (.head (.part part) steps))
      (fun null => free (.kept member null)) items below refs
  | map each ih => exact absurd .refl (mapless _)
  | @object shape object values target names absent each ih =>
    intro schema renders refs
    obtain ⟨properties, description, below, inside, -, same⟩ := renders.of_target denote target refs
    rw [same, Value.toJson, Value.membersJson_eq_map]
    have distinct := sound.distinct shape object .refl target
    refine accepts_of_values below inside names distinct (List.Subset.refl _) ?_ description
    intro pair member schema renders refs
    have part : shape.Part index pair.1.shape := .field target (List.of_mem_zip member).1
    have within : ∀ inner : Value, inner.Inside pair.2.2 → inner.Inside (.object values) :=
      fun inner below => .field (List.of_mem_zip member).2 below
    have present : pair.2.2 ≠ .null := by
      intro null
      exact free (within .null (null ▸ .self))
    exact ih pair member present (sound.part part)
      (fun inner steps => mapless inner (.head (.part part) steps))
      (fun null => free (within .null null)) schema renders refs

theorem SchemaBundle.Describes.accepts_of_bindParameters_eq_ok {bundle : SchemaBundle}
    (describes : bundle.Describes index parameters)
    (distinct : ((nameParameters parameters).map (·.1)).Nodup)
    (sound : ∀ parameter ∈ parameters, parameter.shape.Sound index)
    (mapless : ∀ parameter ∈ parameters, ∀ value, ¬parameter.shape.Reaches index (.map value))
    {members : List (String × Json)} {values : List (String × Value)}
    (bound : bindParameters index members (nameParameters parameters) = .ok values)
    (free : ∀ pair ∈ values, ¬Value.Inside .null pair.2) :
    Accepts bundle.definitions bundle.schema (Arguments.toJson ⟨values⟩) := by
  obtain ⟨denote, properties, whole, below, refs⟩ := describes
  obtain ⟨names, inhabits⟩ := inhabits_of_bindParameters bound
  rw [← names_parameterFields] at names distinct
  have required : requiredParameters parameters ⊆
      (parameterFields (nameParameters parameters)).map (·.name) := by
    rw [names_parameterFields]
    exact fun name inside =>
      List.map_subset _ (List.filter_subset_self _) inside
  rw [whole]
  refine accepts_of_values below refs names distinct required ?_ none
  intro pair member schema renders refs
  rw [parameterFields, List.zip_map_left] at member
  obtain ⟨⟨⟨name, parameter⟩, value⟩, inside, rfl⟩ := List.mem_map.1 member
  have declared := mem_parameters_of_mem_nameParameters (List.of_mem_zip inside).1
  have nonnull := free value (List.of_mem_zip inside).2
  have present : value.2 ≠ .null := fun null => nonnull (null ▸ .self)
  exact ((inhabits _ inside).2 present).accepts denote (sound parameter declared)
    (mapless parameter declared) nonnull schema renders refs

/-- Schemas and the binder agree. For parameters without maps, whose record types are told apart by
their names and have identifiers of their own, the binder takes all arguments that are valid
against the schema, as long as their numbers are in range; and what it has bound is valid if no null
stands in it. -/
theorem bindArguments_agrees (parameters : List Parameter)
    (agree : NamesAgree (parameters.map (·.shape)))
    (injective : ∀ first second, Occurs (parameters.map (·.shape)) first →
      Occurs (parameters.map (·.shape)) second →
        referenceId first.name = referenceId second.name → first.name = second.name)
    (mapless : ∀ parameter ∈ parameters, ∀ value,
      ¬parameter.shape.Reaches (.ofParameters parameters) (.map value))
    {generated : Option SchemaBundle} (accepted : generateParameters parameters = .ok generated) :
    (∀ text members, readArguments text = .ok members →
      (∀ bundle, generated = some bundle →
        Accepts bundle.definitions bundle.schema (.object members)) →
      NumbersInRange parameters members →
        ∃ arguments, bindArguments parameters (.ofParameters parameters) text = .ok arguments) ∧
    ∀ text arguments, bindArguments parameters (.ofParameters parameters) text = .ok arguments →
      (∀ pair ∈ arguments.values, ¬Value.Inside .null pair.2) →
        ∀ bundle, generated = some bundle →
          Accepts bundle.definitions bundle.schema arguments.toJson := by
  constructor
  · intro text members read valid range
    cases bound : bindArguments parameters (.ofParameters parameters) text with
    | ok arguments => exact ⟨arguments, rfl⟩
    | error e =>
      rcases bindArguments_eq_error bound with unread | ⟨same, v, again, failed, -⟩
      · cases unread.symm.trans read
      · cases again.symm.trans read
        cases generated with
        | none =>
          cases eq_nil_of_generateParameters accepted
          cases failed
        | some bundle =>
          have describes := describes_of_generateParameters agree injective accepted
          rcases describes.of_bindParameters_eq_error (valid bundle rfl) failed with
            ⟨-, parameter, member, value, steps⟩ | ⟨-, out⟩
          · exact absurd steps (mapless parameter member value)
          · exact absurd range out
  · rintro text ⟨values⟩ bound free bundle rfl
    have describes := describes_of_generateParameters agree injective accepted
    obtain ⟨distinct, sound⟩ := sound_of_generateParameters agree accepted
    obtain ⟨members, -, bound⟩ := bindArguments_eq_ok bound
    exact describes.accepts_of_bindParameters_eq_ok distinct sound mapless bound free

def order : ObjectShape :=
  ⟨"Order", [⟨"amount", .integer .u8, none, false⟩, ⟨"parts", .list (.ref "Order"), none, false⟩]⟩

def ordering : List Parameter :=
  [{ name := some "order", shape := .object order }]

def seven : Json.Number :=
  .integer 7 (by decide)

def orderText : String :=
  "\x7b\"order\":\x7b\"amount\":7,\"parts\":[]\x7d\x7d"

def orderMembers : List (String × Json) :=
  [("order", .object [("amount", .number seven), ("parts", .array [])])]

theorem eq_order_of_occurs {object : ObjectShape} (h : Occurs (ordering.map (·.shape)) object) :
    object = order := by
  refine h.eq_of_heads ?_ nofun
  intro shape root object head
  rw [List.mem_singleton.1 root] at head
  cases head
  rfl

theorem order_reaches {reached : Shape}
    (h : (Shape.object order).Reaches (.ofParameters ordering) reached) :
    reached ∈ [.object order, .integer .u8, .list (.ref "Order"), .ref "Order"] := by
  have fields : ∀ field ∈ order.fields,
      field.shape ∈ [.object order, .integer .u8, .list (.ref "Order"), .ref "Order"] := by
    simp [order]
  induction h with
  | refl => exact List.mem_cons_self
  | tail _ step ih =>
    simp only [List.mem_cons, List.not_mem_nil, or_false] at ih
    rcases ih with rfl | rfl | rfl | rfl
    · cases step with
      | part part =>
        cases part with
        | item items => cases items
        | field target inside =>
          cases target
          exact fields _ inside
    · cases step with
      | part part =>
        cases part with
        | item items => cases items
        | field target _ => cases target
    · cases step with
      | part part =>
        cases part with
        | item items =>
          cases items
          simp
        | field target _ => cases target
    · cases step with
      | part part =>
        cases part with
        | item items => cases items
        | field target inside =>
          cases target
          exact fields _ inside

theorem order_numbers_in_range : NumbersInRange ordering orderMembers := by
  intro name parameter json inside present place n places
  cases List.mem_singleton.1 inside
  cases present
  cases places with
  | field target inside present below =>
    cases target
    simp only [order, List.mem_cons, List.not_mem_nil, or_false] at inside
    rcases inside with rfl | rfl
    · cases present
      cases below with
      | here =>
        rintro m rfl
        rfl
    · cases present
      cases below with
      | item _ member _ => cases member

theorem order_text_reads : readArguments orderText = .ok orderMembers := by
  have same : (Json.object orderMembers).text = orderText := by decide +kernel
  have parts : Json.Spelled 1 (.array []) :=
    .array fun _ inside => absurd inside List.not_mem_nil
  have whole : Json.Spelled 3 (.object orderMembers) := by
    refine spelled_member (.object (by decide) fun member inside => ?_)
    rcases List.mem_pair.1 inside with rfl | rfl
    · exact .integer 7 _
    · exact parts
  rw [← same]
  exact readArguments_text whole (by decide)

theorem order_agrees : ∃ bundle arguments, generateParameters ordering = .ok (some bundle) ∧
    readArguments orderText = .ok orderMembers ∧
    Accepts bundle.definitions bundle.schema (.object orderMembers) ∧
    bindArguments ordering (.ofParameters ordering) orderText = .ok arguments := by
  have nonempty : ordering.isEmpty = false := rfl
  have names : nameParameters ordering = [("order", ⟨some "order", .object order, none, false⟩)] :=
    rfl
  have generated : ∃ bundle, generateParameters ordering = .ok (some bundle) := by
    simp [generateParameters, generateParametersWith, nonempty, names, generateProperties,
      Session.generate, Session.withIndex, generateShape, generateFields, settleObject,
      Memory.initial, Memory.built?, Memory.refer, order]
  obtain ⟨bundle, made⟩ := generated
  have fits : IntegerKind.u8.contains 7 = true := by decide
  have bound : bindParameters (.ofParameters ordering) orderMembers (nameParameters ordering) =
      .ok [("order", .object [("amount", .integer 7), ("parts", .list [])])] := by
    simp [names, orderMembers, order, seven, bindParameters, bindParameter, bindValue, bindFields,
      bindField, bindItems, bindInteger, Json.Number.exactInt?, Json.member?, List.lookup_cons,
      Except.map, fits]
  have given : bindArguments ordering (.ofParameters ordering) orderText =
      .ok ⟨[("order", .object [("amount", .integer 7), ("parts", .list [])])]⟩ := by
    rw [bindArguments, order_text_reads]
    dsimp only
    rw [bound]
  obtain ⟨binds, accepts⟩ := bindArguments_agrees ordering
    (fun first second one other _ => by rw [eq_order_of_occurs one, eq_order_of_occurs other])
    (fun first second one other _ => by rw [eq_order_of_occurs one, eq_order_of_occurs other])
    (by
      intro parameter member value steps
      rw [List.mem_singleton.1 member] at steps
      simpa using order_reaches steps)
    made
  have valid : Accepts bundle.definitions bundle.schema (.object orderMembers) := by
    refine accepts orderText _ given ?_ bundle rfl
    intro pair member inside
    rw [List.mem_singleton.1 member] at inside
    cases inside with
    | field member inside =>
      simp only [List.mem_cons, List.not_mem_nil, or_false] at member
      rcases member with rfl | rfl
      · cases inside
      · cases inside with
        | listed member _ => cases member
  obtain ⟨arguments, bound⟩ := binds orderText orderMembers order_text_reads
    (fun other same => Option.some.inj same ▸ valid) order_numbers_in_range
  exact ⟨bundle, arguments, made, order_text_reads, valid, bound⟩

end ToolChat
