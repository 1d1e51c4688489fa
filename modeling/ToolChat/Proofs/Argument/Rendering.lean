import ToolChat.Proofs.Argument.RoundTrip

/-!
What the JSON of bound values shows.

The JSON of a bound value shows all of it: integers and floating-point numbers exactly, items in
their order, and what stands under each name. It is bound again to the same value, with nothing
printed or read in between, so here numbers in double precision are no exception.
-/

set_option autoImplicit false

namespace ToolChat

namespace Value

/-- The JSON shows the value, and nothing of it is lost or changed. -/
inductive Shows : Value → Json → Prop
  | null : Shows .null .null
  | integer {n : Int} (inRange : Json.InExactRange n) :
      Shows (.integer n) (.number (.integer n inRange))
  | number (x : Finite .double) : Shows (.number (.finite x)) (.number (.float x))
  | boolean (b : Bool) : Shows (.boolean b) (.boolean b)
  | text {value : Value} {s : String} (text : value.text? = some s) : Shows value (.string s)
  | items {value : Value} {items : List Value} {jsons : List Json}
      (stored : value.items? = some items) (each : List.Forall₂ Shows items jsons) :
      Shows value (.array jsons)
  | map {entries : List (String × Value)} {members : List (String × Json)}
      (names : members.map (·.1) = entries.map (·.1))
      (each : List.Forall₂ Shows (entries.map (·.2)) (members.map (·.2))) :
      Shows (.map entries) (.object members)
  | object {fields : List (String × Value)} {members : List (String × Json)}
      (names : members.map (·.1) = fields.map (·.1))
      (each : List.Forall₂ Shows (fields.map (·.2)) (members.map (·.2))) :
      Shows (.object fields) (.object members)

theorem forall₂_shows {values : List Value} (each : ∀ value ∈ values, Shows value value.toJson) :
    List.Forall₂ Shows values (values.map toJson) :=
  List.forall₂_map_right_iff.2 (List.forall₂_same.2 each)

theorem shows_toJson_of_items {value : Value} {items : List Value}
    (stored : value.items? = some items) (each : ∀ item ∈ items, Shows item item.toJson) :
    Shows value value.toJson := by
  have array : value.toJson = .array (items.map toJson) := by
    cases value with
    | list | set =>
      cases stored
      rw [toJson, itemsJson_eq_map]
    | _ => cases stored
  rw [array]
  exact .items stored (forall₂_shows each)

section Members

variable {members : List (String × Value)}
  (each : ∀ member ∈ members, Shows member.2 member.2.toJson)
include each

theorem forall₂_shows_membersJson :
    List.Forall₂ Shows (members.map (·.2)) ((membersJson members).map (·.2)) := by
  have values : (membersJson members).map (·.2) = (members.map (·.2)).map toJson := by
    rw [membersJson_eq_map, List.map_map, List.map_map]
    rfl
  rw [values]
  refine forall₂_shows fun value stored => ?_
  obtain ⟨member, inside, rfl⟩ := List.mem_map.1 stored
  exact each member inside

variable (distinct : (members.map (·.1)).Nodup)
include distinct

theorem shows_toJson_of_fields : Shows (.object members) (Value.object members).toJson := by
  rw [toJson, collect_membersJson distinct]
  exact .object (keys_membersJson members) (forall₂_shows_membersJson each)

theorem shows_toJson_of_entries : Shows (.map members) (Value.map members).toJson := by
  rw [toJson, collect_membersJson distinct]
  exact .map (keys_membersJson members) (forall₂_shows_membersJson each)

end Members

end Value

variable {index : ShapeIndex}

theorem Inhabits.shows_plain {shape : Shape} {schema : Schema} {value : Value}
    (h : Inhabits index shape value) (plain : shape.plain? = some schema) :
    value.Shows value.toJson := by
  cases h with
  | integer within =>
    rw [toJson_integer within]
    exact .integer _
  | number within =>
    obtain ⟨finite, rfl⟩ := exists_finite_of_contains within
    exact .number finite
  | boolean b => exact .boolean b
  | string | constant => exact .text rfl
  | list | set | map => cases plain
  | object target => cases (Shape.target?_of_plain plain).symm.trans target

theorem shows_gather {shape item : Shape} {values : List Value} (ofItems : shape.item? = some item)
    (each : ∀ value ∈ values, value.Shows value.toJson) :
    (shape.gather values).Shows (shape.gather values).toJson := by
  cases shape with
  | list inner => exact Value.shows_toJson_of_items rfl each
  | set inner =>
    have kept : ∀ value ∈ Value.distinct values, value.Shows value.toJson :=
      fun value inside => each value (Value.mem_of_mem_distinct inside)
    exact Value.shows_toJson_of_items rfl kept
  | _ => cases ofItems

theorem Supplies.shows {members : List (String × Json)} {name : String} {shape : Shape}
    {optional : Bool} {value : Value} (h : Supplies index members name shape optional value)
    (present : ∀ json, Json.member? name members = some json → value.Shows value.toJson) :
    value.Shows value.toJson := by
  cases given : Json.member? name members with
  | none =>
    obtain ⟨-, rfl⟩ := h.absent given
    exact .null
  | some json => exact present json given

/-- The JSON of a bound value shows it. -/
theorem Binds.shows {shape : Shape} {json : Json} {value : Value}
    (h : Binds index shape json value) (distinct : shape.FieldsDistinct index) :
    value.Shows value.toJson := by
  induction h with
  | plain plain bound => exact (inhabits_of_plain plain (bound (.argument ""))).shows_plain plain
  | @items shape item bound ofItems each ih =>
    refine shows_gather ofItems fun value stored => ?_
    obtain ⟨pair, inside, rfl⟩ := List.mem_map.1 stored
    exact ih pair inside (distinct.leads (.part (.item ofItems)))
  | @fields shape object members bound target fields absent present ih =>
    have unique := nodup_of_fields fields (distinct shape object .refl target)
    refine Value.shows_toJson_of_fields (fun entry stored => ?_) unique
    obtain ⟨pair, inside, rfl⟩ := List.mem_map.1 stored
    have supplies : Supplies index members pair.1.name pair.1.shape pair.1.nullable pair.2 :=
      ⟨absent pair inside, present pair inside⟩
    have part : shape.Part index pair.1.shape :=
      .field target (fields ▸ List.mem_map_of_mem inside)
    exact supplies.shows fun json given => ih pair inside json given (distinct.leads (.part part))
  | @entries shape bound absent present ih =>
    have ascending := Dictionary.ascending_ofList (bound.map fun pair => (pair.1.1, pair.2))
    refine Value.shows_toJson_of_entries (fun entry stored => ?_) ascending.nodup_keys
    obtain ⟨pair, inside, rfl⟩ := List.mem_map.1 (Dictionary.ofList_subset _ stored)
    by_cases null : pair.1.2 = .null
    · rw [absent pair inside null]
      exact .null
    · exact ih pair inside null (distinct.leads .value)

/-- Let parameters have distinct names, and let the record types that they reach have distinct
names of fields. Then the JSON of arguments that were bound, as it is and without being printed,
shows each of them under its name and is bound again, to the same arguments. -/
theorem bindParameters_toJson (parameters : List Parameter) (index : ShapeIndex)
    (names : ((nameParameters parameters).map (·.1)).Nodup)
    (distinct : ∀ parameter ∈ parameters, parameter.shape.FieldsDistinct index)
    (members : List (String × Json)) (arguments : Arguments)
    (bound : bindParameters index members (nameParameters parameters) = .ok arguments.values) :
    ∃ again, arguments.toJson = .object again ∧
      again.map (·.1) = arguments.values.map (·.1) ∧
      List.Forall₂ Value.Shows (arguments.values.map (·.2)) (again.map (·.2)) ∧
      bindParameters index again (nameParameters parameters) = .ok arguments.values := by
  have distinct : ∀ pair ∈ nameParameters parameters, pair.2.shape.FieldsDistinct index :=
    fun pair inside => distinct pair.2 (mem_parameters_of_mem_nameParameters inside)
  refine ⟨Value.membersJson arguments.values,
    Arguments.toJson_of_nodup (nodup_of_bindParameters names bound),
    Value.keys_membersJson _, ?_, bindParameters_membersJson names distinct bound⟩
  obtain ⟨pairs, named, same, supplies⟩ := bindParameters_eq_ok_iff.1 bound
  refine Value.forall₂_shows_membersJson fun member stored => ?_
  obtain ⟨pair, inside, rfl⟩ := List.mem_map.1 (same ▸ stored)
  refine (supplies pair inside).shows fun json given => ?_
  have declared : pair.1 ∈ nameParameters parameters := named ▸ List.mem_map_of_mem inside
  exact ((supplies pair inside).present json given).shows (distinct pair.1 declared)

def reading : ObjectShape :=
  ⟨"Reading", [⟨"level", .number .f64, none, false⟩, ⟨"serial", .integer .u64, none, false⟩,
    ⟨"next", .ref "Reading", none, true⟩]⟩

def measuring : List Parameter :=
  [{ name := some "reading", shape := .object reading },
    { name := some "limits", shape := .map (.set (.number .f32)) },
    { name := some "unit", shape := .string, optional := true }]

def measuredMembers : List (String × Json) :=
  [("limits", .object [("upper", .null),
      ("lower", .array [.number (.float Finite.zero.neg), .number (.integer 0 (by decide))])]),
    ("reading", .object [("serial", .number (.integer 18446744073709551615 (by decide))),
      ("level", .number (.float Finite.zero.neg))])]

def measured : Arguments :=
  ⟨[("reading", .object [("level", .number (.finite Finite.zero.neg)),
      ("serial", .integer 18446744073709551615), ("next", .null)]),
    ("limits", .map [("lower", .set [.number (.finite Finite.zero.neg)]), ("upper", .null)]),
    ("unit", .null)]⟩

theorem measuring_reaches {parameter : Parameter} (declared : parameter ∈ measuring)
    {reached : Shape} (steps : parameter.shape.Reaches (.ofParameters measuring) reached) :
    reached ∈ [.object reading, .ref "Reading", .number .f64, .integer .u64,
      .map (.set (.number .f32)), .set (.number .f32), .number .f32, .string] := by
  have fields : ∀ field ∈ reading.fields, field.shape ∈ [.object reading, .ref "Reading",
      .number .f64, .integer .u64, .map (.set (.number .f32)), .set (.number .f32), .number .f32,
      .string] := by
    simp [reading]
  induction steps with
  | refl =>
    simp only [measuring, List.mem_cons, List.not_mem_nil, or_false] at declared
    rcases declared with rfl | rfl | rfl <;> simp
  | tail _ step ih =>
    simp only [List.mem_cons, List.not_mem_nil, or_false] at ih
    cases step with
    | value => simp_all
    | part part =>
      cases part with
      | item items =>
        rcases ih with rfl | rfl | rfl | rfl | rfl | rfl | rfl | rfl <;> cases items
        simp
      | field target inside =>
        rcases ih with rfl | rfl | rfl | rfl | rfl | rfl | rfl | rfl <;> cases target
        all_goals exact fields _ inside

theorem bindNumber_zero_neg (kind : FloatKind) (path : Path) :
    bindNumber kind path (.number (.float Finite.zero.neg)) =
      .ok (.number (.finite Finite.zero.neg)) := by
  have within : kind.contains (.finite Finite.zero.neg) = true := by
    cases kind <;> decide +kernel
  exact if_pos within

theorem bindNumber_zero (kind : FloatKind) (path : Path) :
    bindNumber kind path (.number (.integer 0 (by decide))) =
      .ok (.number (.finite Finite.zero)) := by
  have double : (Json.Number.integer 0 (by decide)).toDouble = .finite Finite.zero := by
    decide +kernel
  have within : kind.contains (.finite Finite.zero) = true := by
    cases kind <;> decide +kernel
  rw [bindNumber, double]
  exact if_pos within

theorem distinct_zeros : Value.distinct [.number (.finite Finite.zero.neg),
    .number (.finite Finite.zero)] = [.number (.finite Finite.zero.neg)] := by
  have same : Value.same (.number (.finite Finite.zero.neg)) (.number (.finite Finite.zero)) =
      true := by
    decide +kernel
  simp [Value.distinct, same]

theorem bindParameters_measured :
    bindParameters (.ofParameters measuring) measuredMembers (nameParameters measuring) =
      .ok measured.values := by
  have serial (path : Path) : bindInteger .u64 path
      (.number (.integer 18446744073709551615 (by decide))) = .ok (.integer 18446744073709551615) :=
    rfl
  have named : nameParameters measuring =
      [("reading", { name := some "reading", shape := .object reading }),
        ("limits", { name := some "limits", shape := .map (.set (.number .f32)) }),
        ("unit", { name := some "unit", shape := .string, optional := true })] := rfl
  rw [named]
  have sorted : Dictionary.ofList [("upper", Value.null),
      ("lower", .set [.number (.finite Finite.zero.neg)])] =
        [("lower", .set [.number (.finite Finite.zero.neg)]), ("upper", .null)] := by
    rfl
  simp [bindParameters, bindParameter, bindValue, bindFields, bindField, bindItems, bindEntries,
    bindEntry, Json.member?, List.lookup_cons, measuredMembers, measured, reading, serial,
    bindNumber_zero_neg, bindNumber_zero, distinct_zeros, sorted, Except.map]

theorem measured_toJson :
    bindParameters (.ofParameters measuring) measuredMembers (nameParameters measuring) =
        .ok measured.values ∧
      ∃ again, measured.toJson = .object again ∧
        again.map (·.1) = measured.values.map (·.1) ∧
        List.Forall₂ Value.Shows (measured.values.map (·.2)) (again.map (·.2)) ∧
        bindParameters (.ofParameters measuring) again (nameParameters measuring) =
          .ok measured.values := by
  refine ⟨bindParameters_measured, bindParameters_toJson measuring (.ofParameters measuring)
    (by decide) ?_ measuredMembers measured bindParameters_measured⟩
  intro parameter declared reached object steps target
  have found := measuring_reaches declared steps
  simp only [List.mem_cons, List.not_mem_nil, or_false] at found
  rcases found with rfl | rfl | rfl | rfl | rfl | rfl | rfl | rfl <;> cases target
  all_goals decide

end ToolChat
