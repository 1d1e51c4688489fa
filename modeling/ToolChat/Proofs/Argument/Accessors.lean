import ToolChat.Proofs.Argument.Conformance
import ToolChat.Proofs.Argument.FieldNames
import ToolChat.Proofs.Schema.Coverage

/-!
Typed access to the arguments of a registered tool.

A tool is registered only if its parameters have a schema, and then the names under which they are
passed are distinct: so an argument is found by its name where its parameter stands. Unless it is
missing it has the shape of its parameter, and the accessors of that shape give it.
-/

set_option autoImplicit false

namespace ToolChat

theorem Generates.exists_properties {index : ShapeIndex} {expanding : List String}
    {memory after : Memory} {done : List (String × Schema)} {fields : List Field} {schema : Schema}
    (h : Generates index expanding memory (.fields done fields) schema after) :
    ∃ properties, schema = .object properties (properties.map (·.1)) none ∧
      properties.map (·.1) = done.map (·.1) ++ fields.map (·.name) := by
  generalize same : SchemaTask.fields done fields = task at h
  induction h generalizing done fields with
  | done =>
    cases same
    exact ⟨_, rfl, (List.append_nil _).symm⟩
  | field _ _ _ _ ih =>
    cases same
    obtain ⟨properties, made, names⟩ := ih rfl
    refine ⟨properties, made, ?_⟩
    rw [names, List.map_append, List.append_assoc]
    rfl
  | _ => cases same

theorem names_of_generateParameters {parameters : List Parameter} {bundle : SchemaBundle}
    (accepted : generateParameters parameters = .ok (some bundle)) :
    ∃ properties, bundle.schema = .object properties (requiredParameters parameters) none ∧
      properties.map (·.1) = (nameParameters parameters).map (·.1) ∧
      ((nameParameters parameters).map (·.1)).Nodup := by
  obtain ⟨properties, after, generated, rfl⟩ := generates_of_generateParametersWith accepted
  obtain ⟨whole, same, names⟩ := generated.exists_properties
  have distinct := generated.distinct List.nodup_nil
  cases same
  rw [names_parameterFields, List.map_nil, List.nil_append] at names distinct
  exact ⟨properties, rfl, names, distinct⟩

namespace IntegerKind

theorem least_i64_le (kind : IntegerKind) : IntegerKind.i64.least ≤ kind.least := by
  cases kind <;> decide

theorem greatest_le_i64 {kind : IntegerKind} (signed : kind ≠ .u64) :
    kind.greatest ≤ IntegerKind.i64.greatest := by
  cases kind with
  | u64 => exact absurd rfl signed
  | _ => decide

end IntegerKind

theorem Value.int64?_integer {n : Int} (least : IntegerKind.i64.least ≤ n) :
    (Value.integer n).int64? = if n ≤ IntegerKind.i64.greatest then some n else none := by
  have within : (-9223372036854775808 ≤ n && n < 9223372036854775808) =
      decide (n ≤ IntegerKind.i64.greatest) := by
    rw [Bool.eq_iff_iff, Bool.and_eq_true, decide_eq_true_iff, decide_eq_true_iff,
      decide_eq_true_iff]
    simp only [IntegerKind.least, IntegerKind.greatest] at least ⊢
    omega
  rw [int64?, integer?, Option.filter_some, within]
  simp only [decide_eq_true_eq]

namespace Arguments

variable {arguments : Arguments} {name : String} {value : Value}

structure MissingExactlyIf (arguments : Arguments) (name : String) (absent : Prop) : Prop where
  value : arguments.value name = .error (.missingField name) ↔ absent
  int64 : arguments.int64 name = .error (.missingField name) ↔ absent
  double : arguments.double name = .error (.missingField name) ↔ absent
  boolean : arguments.boolean name = .error (.missingField name) ↔ absent
  text : arguments.text name = .error (.missingField name) ↔ absent

/-- The accessors of a shape give a value. An integer of 64 bits without a sign may be too great for
the accessor of those with one. -/
inductive Serves (arguments : Arguments) (name : String) : Shape → Value → Prop
  | integer {kind : IntegerKind} {n : Int}
      (int64 : arguments.int64 name =
        if n ≤ IntegerKind.i64.greatest then .ok n
        else .error (.coercion name "expected a 64-bit integer"))
      (fits : kind ≠ .u64 → n ≤ IntegerKind.i64.greatest)
      (double : arguments.double name = .ok (.ofInt n)) :
      Serves arguments name (.integer kind) (.integer n)
  | number {kind : FloatKind} {x : Double} (double : arguments.double name = .ok x) :
      Serves arguments name (.number kind) (.number x)
  | boolean {b : Bool} (boolean : arguments.boolean name = .ok b) :
      Serves arguments name .boolean (.boolean b)
  | string {s : String} (text : arguments.text name = .ok s) :
      Serves arguments name .string (.string s)
  | constant {shape : EnumShape} {s : String} (text : arguments.text name = .ok s) :
      Serves arguments name (.enumeration shape) (.constant s)
  /-- A shape with parts has no accessor of its own. -/
  | whole {shape : Shape} {value : Value} (parts : shape.plain? = none) :
      Serves arguments name shape value

theorem value_of_ne_null (found : arguments.get? name = some value) (present : value ≠ .null) :
    arguments.value name = .ok value := by
  have filled : value.isNull = false := by
    cases value with
    | null => exact absurd rfl present
    | _ => rfl
  rw [Arguments.value, found, Option.filter_some, filled]
  rfl

section View

variable {α : Type} {view : Value → Option α} {expected : String}
  (held : arguments.value name = .ok value)
include held

theorem view_of_eq_some {a : α} (seen : view value = some a) :
    arguments.view name expected view = .ok a := by
  simp only [Arguments.view, held, seen]

theorem view_of_eq_none (unseen : view value = none) :
    arguments.view name expected view = .error (.coercion name ("expected " ++ expected)) := by
  simp only [Arguments.view, held, unseen]

end View

theorem coercion_ne_missingField (path message : String) :
    ToolError.coercion path message ≠ .missingField path := by
  intro same
  cases congrArg ToolError.kind same

theorem missing_iff (found : arguments.get? name = some value) :
    arguments.MissingExactlyIf name (value = .null) := by
  have missing : arguments.value name = .error (.missingField name) ↔ value = .null := by
    constructor
    · intro failed
      refine Classical.byContradiction fun present => ?_
      rw [value_of_ne_null found present] at failed
      cases failed
    · rintro rfl
      rw [Arguments.value, found]
      rfl
  have viewed {α : Type} (expected : String) (view : Value → Option α) :
      arguments.view name expected view = .error (.missingField name) ↔ value = .null := by
    constructor
    · intro failed
      refine Classical.byContradiction fun present => ?_
      have held := value_of_ne_null found present
      cases seen : view value with
      | some a =>
        rw [view_of_eq_some held seen] at failed
        cases failed
      | none =>
        rw [view_of_eq_none held seen] at failed
        exact coercion_ne_missingField _ _ (Except.error.inj failed)
    · intro null
      rw [Arguments.view, missing.2 null]
  exact ⟨missing, viewed _ _, viewed _ _, viewed _ _, viewed _ _⟩

theorem serves_of_inhabits {index : ShapeIndex} {shape : Shape}
    (held : arguments.value name = .ok value) (inhabits : Inhabits index shape value) :
    arguments.Serves name shape value := by
  cases inhabits with
  | @integer kind n within =>
    obtain ⟨least, greatest⟩ := IntegerKind.contains_iff.1 within
    have view := Value.int64?_integer (le_trans (IntegerKind.least_i64_le kind) least)
    refine .integer ?_ (fun signed => ?_) (view_of_eq_some held rfl)
    · split_ifs with fits
      · exact view_of_eq_some held (view.trans (if_pos fits))
      · exact view_of_eq_none held (view.trans (if_neg fits))
    · exact le_trans greatest (IntegerKind.greatest_le_i64 signed)
  | number _ => exact .number (view_of_eq_some held rfl)
  | boolean b => exact .boolean (view_of_eq_some held rfl)
  | string s => exact .string (view_of_eq_some held rfl)
  | constant _ => exact .constant (view_of_eq_some held rfl)
  | list _ | set _ | map _ => exact .whole rfl
  | object target _ _ _ =>
    cases shape with
    | object _ | ref _ => exact .whole rfl
    | _ => cases target

end Arguments

theorem nameParameters_getElem? {parameters : List Parameter} {position : Nat}
    {parameter : Parameter} (declared : parameters[position]? = some parameter) :
    (nameParameters parameters)[position]? = some (parameter.nameAt position, parameter) := by
  rw [nameParameters, List.getElem?_map, List.getElem?_zipIdx, declared]
  simp

/-- What typed access to the argument of a parameter gives: an argument that the parameter requires,
or that is given, is served; otherwise it is missing. -/
structure Arguments.Delivers (arguments : Arguments) (members : List (String × Json))
    (name : String) (parameter : Parameter) : Prop where
  missing : arguments.MissingExactlyIf name (Json.member? name members = none)
  optional : Json.member? name members = none → parameter.optional = true
  serves : parameter.optional = false ∨ Json.member? name members ≠ none →
    ∃ value, arguments.get? name = some value ∧ arguments.value name = .ok value ∧
      arguments.Serves name parameter.shape value

/-- Parameters with distinct names are found by their names where they stand. -/
theorem delivers_of_bindParameters {index : ShapeIndex} {members : List (String × Json)}
    {parameters : List Parameter} {arguments : Arguments}
    (distinct : ((nameParameters parameters).map (·.1)).Nodup)
    (bound : bindParameters index members (nameParameters parameters) = .ok arguments.values) :
    arguments.values.map (·.1) = (nameParameters parameters).map (·.1) ∧
      ∀ position parameter, parameters[position]? = some parameter →
        arguments.at? position = arguments.get? (parameter.nameAt position) ∧
        arguments.Delivers members (parameter.nameAt position) parameter := by
  obtain ⟨pairs, named, values, supplied⟩ := bindParameters_eq_ok_iff.1 bound
  have names : arguments.values.map (·.1) = (nameParameters parameters).map (·.1) := by
    rw [← values, ← named, List.map_map, List.map_map]
    rfl
  refine ⟨names, fun position parameter declared => ?_⟩
  have stands := nameParameters_getElem? declared
  rw [← named, List.getElem?_map] at stands
  obtain ⟨⟨_, value⟩, found, rfl⟩ := Option.map_eq_some_iff.1 stands
  have stored : arguments.values[position]? = some (parameter.nameAt position, value) := by
    rw [← values, List.getElem?_map, found]
    rfl
  have got : arguments.get? (parameter.nameAt position) = some value :=
    Dictionary.lookup_eq_some_of_mem (names ▸ distinct) (List.mem_of_getElem? stored)
  have supplies := supplied _ (List.mem_of_getElem? found)
  have null : value = .null ↔ Json.member? (parameter.nameAt position) members = none := by
    refine ⟨fun null => ?_, fun absent => (supplies.absent absent).2⟩
    refine Option.eq_none_iff_forall_ne_some.2 fun json given => ?_
    exact (supplies.present json given).inhabits.ne_null null
  refine ⟨?_, ?_, fun absent => (supplies.absent absent).1, fun required => ?_⟩
  · rw [Arguments.at?, stored, got]
    rfl
  · rw [← null]
    exact Arguments.missing_iff got
  · have given : Json.member? (parameter.nameAt position) members ≠ none := by
      rcases required with required | given
      · intro absent
        rw [(supplies.absent absent).1] at required
        cases required
      · exact given
    obtain ⟨json, given⟩ := Option.ne_none_iff_exists'.1 given
    have inhabits := (supplies.present json given).inhabits
    have held := Arguments.value_of_ne_null got inhabits.ne_null
    exact ⟨value, got, held, Arguments.serves_of_inhabits held inhabits⟩

/-- The arguments that a registered tool binds have one entry for each parameter, in the order of
declaration and under the names of the properties of its schema. Each is found by its name where its
parameter stands, and the accessors of the declared shape give it unless it is missing, which only
that of an optional parameter can be. -/
theorem register_delivers {σ : Type} (tools after : Toolset σ) (tool : Tool σ)
    (registered : tools.register tool = .ok after) :
    ∃ entry, after.get? tool.name = some entry ∧
      ∀ text arguments, entry.bind text = .ok arguments →
        arguments.size = tool.parameters.length ∧
        arguments.values.map (·.1) = (nameParameters tool.parameters).map (·.1) ∧
        (entry.specification.parameters = none → arguments.values = []) ∧
        (∀ schema, entry.specification.parameters = some schema → ∃ properties,
          schema = .object properties (requiredParameters tool.parameters) none ∧
            arguments.values.map (·.1) = properties.map (·.1)) ∧
        ∃ members, readArguments text = .ok members ∧
          ∀ position parameter, tool.parameters[position]? = some parameter →
            arguments.at? position = arguments.get? (parameter.nameAt position) ∧
            arguments.Delivers members (parameter.nameAt position) parameter := by
  obtain ⟨entry, made, found⟩ := Toolset.exists_entry_of_register registered
  obtain ⟨-, parameters, shapes, generated, accepted, schemas, -⟩ :=
    RegisteredTool.of_ofTool_eq_ok made
  refine ⟨entry, found, fun text arguments bind => ?_⟩
  rw [RegisteredTool.bind, parameters] at bind
  obtain ⟨members, read, bound⟩ := bindArguments_eq_ok bind
  cases generated with
  | none =>
    have empty := eq_nil_of_generateParameters accepted
    rw [empty] at bound ⊢
    have nothing : arguments.values = [] := (Except.ok.inj bound).symm
    have names : arguments.values.map (·.1) = [] := congrArg (List.map (·.1)) nothing
    refine ⟨congrArg List.length nothing, names, fun _ => nothing, ?_, members, read, ?_⟩
    · intro schema given
      rw [schemas] at given
      cases given
    · intro position parameter declared
      rw [List.getElem?_nil] at declared
      cases declared
  | some bundle =>
    obtain ⟨properties, whole, same, distinct⟩ := names_of_generateParameters accepted
    obtain ⟨names, delivers⟩ := delivers_of_bindParameters distinct bound
    refine ⟨?_, names, ?_, ?_, members, read, delivers⟩
    · have lengths := congrArg List.length names
      rw [List.length_map, List.length_map, nameParameters, List.length_map,
        List.length_zipIdx] at lengths
      exact lengths
    · intro none
      rw [schemas] at none
      cases none
    · intro schema given
      rw [schemas] at given
      cases given
      exact ⟨properties, whole, names.trans same.symm⟩

def meter : Tool Unit where
  name := "meter"
  parameters :=
    [{ name := some "arg2", shape := .enumeration ⟨"Length", ["metre", "foot"]⟩ },
      { shape := .integer .u64 },
      { name := some "note", shape := .string, optional := true }]
  handler := { body := fun _ _ => return .ok (.text "measured") }

def meterMembers : List (String × Json) :=
  [("note", .null), ("arg1", .number (.integer 9223372036854775808 (by decide))),
    ("arg2", .string "foot")]

def meterValues : List (String × Value) :=
  [("arg2", .constant "foot"), ("arg1", .integer 9223372036854775808), ("note", .null)]

theorem meter_delivers : ∃ after entry, Toolset.empty.register meter = .ok after ∧
    after.get? "meter" = some entry ∧
    entry.bind (Json.object meterMembers).text = .ok ⟨meterValues⟩ ∧
    (∀ position parameter, meter.parameters[position]? = some parameter →
      Arguments.at? ⟨meterValues⟩ position =
          Arguments.get? ⟨meterValues⟩ (parameter.nameAt position) ∧
        Arguments.Delivers ⟨meterValues⟩ meterMembers (parameter.nameAt position) parameter) ∧
    Arguments.text ⟨meterValues⟩ "arg2" = .ok "foot" ∧
    Arguments.int64 ⟨meterValues⟩ "arg1" =
      .error (.coercion "arg1" "expected a 64-bit integer") ∧
    Arguments.double ⟨meterValues⟩ "arg1" = .ok (.ofInt 9223372036854775808) ∧
    Arguments.text ⟨meterValues⟩ "note" = .error (.missingField "note") := by
  have given : meter.parameters.isEmpty = false := rfl
  have names : nameParameters meter.parameters =
      [("arg2", ⟨some "arg2", .enumeration ⟨"Length", ["metre", "foot"]⟩, none, false⟩),
        ("arg1", ⟨none, .integer .u64, none, false⟩),
        ("note", ⟨some "note", .string, none, true⟩)] := rfl
  have generated : ∃ generated, generateParameters meter.parameters = .ok generated := by
    simp [generateParameters, generateParametersWith, given, names, generateProperties,
      Session.generate, Session.withIndex, generateShape]
  obtain ⟨_, generated⟩ := generated
  obtain ⟨after, entered⟩ : ∃ after, Toolset.empty.register meter = .ok after :=
    Toolset.exists_register rfl (by decide) generated
  have fits : IntegerKind.u64.contains 9223372036854775808 = true := by decide
  have bound : bindParameters (.ofParameters meter.parameters) meterMembers
      (nameParameters meter.parameters) = .ok meterValues := by
    simp [names, meterMembers, meterValues, bindParameters, bindParameter, bindValue, bindInteger,
      bindConstant, EnumShape.contains, Json.Number.exactInt?, Json.member?, List.lookup_cons,
      Except.map, fits]
  have spelled : Json.Spelled 1 (.object meterMembers) := by
    refine .object (by decide) ?_
    simp only [meterMembers, List.forall_mem_cons]
    exact ⟨.null, .integer .., .string _, List.forall_mem_nil _⟩
  have read := readArguments_text spelled (by decide)
  obtain ⟨entry, found, delivers⟩ := register_delivers .empty after meter entered
  obtain ⟨same, known, bind⟩ := exists_bind_of_register entered read bound
  obtain rfl : entry = same := Option.some.inj (found.symm.trans known)
  obtain ⟨-, -, -, -, members, again, served⟩ := delivers _ _ bind
  cases read.symm.trans again
  exact ⟨after, entry, entered, found, bind, served, rfl, rfl, rfl, rfl⟩

end ToolChat
