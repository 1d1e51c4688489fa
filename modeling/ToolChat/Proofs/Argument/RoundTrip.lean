import ToolChat.Proofs.Argument.Bound
import ToolChat.Proofs.Json.Nesting
import ToolChat.Proofs.Json.ReadBack
import ToolChat.Proofs.Number.Exact
import ToolChat.Proofs.Shape.Reach

/-!
Bound values are bound again.

The JSON of a bound value is bound to the same value. Where no number in double precision is
asked for, its text is read again as well: the value is nested no deeper than the JSON it was bound
from, which the reader has let through.
-/

set_option autoImplicit false

namespace ToolChat

variable {index : ShapeIndex}

namespace Shape

/-- Every record type that a shape reaches has distinct names of fields. -/
def FieldsDistinct (index : ShapeIndex) (shape : Shape) : Prop :=
  ∀ reached object, shape.Reaches index reached → reached.target? index = some object →
    (object.fields.map (·.name)).Nodup

def FloatFree (index : ShapeIndex) (shape : Shape) : Prop :=
  ∀ kind, ¬shape.Reaches index (.number kind)

theorem FieldsDistinct.leads {shape next : Shape} (distinct : shape.FieldsDistinct index)
    (step : Leads index shape next) : next.FieldsDistinct index :=
  fun reached object steps => distinct reached object (.head step steps)

theorem FloatFree.leads {shape next : Shape} (free : shape.FloatFree index)
    (step : Leads index shape next) : next.FloatFree index :=
  fun kind steps => free kind (.head step steps)

theorem target?_of_plain {shape : Shape} {schema : Schema} (plain : shape.plain? = some schema) :
    shape.target? index = none := by
  cases shape with
  | object | ref => cases plain
  | _ => rfl

theorem exists_kept {shape item : Shape} (ofItems : shape.item? = some item)
    (values : List Value) : ∃ kept, kept ⊆ values ∧ shape.gather values = shape.gather kept ∧
      (shape.gather kept).toJson = .array (kept.map Value.toJson) := by
  cases shape with
  | list inner =>
    have whole : (Shape.list inner).gather values = .list values := rfl
    refine ⟨values, List.Subset.refl _, rfl, ?_⟩
    rw [whole, Value.toJson, Value.itemsJson_eq_map]
  | set inner =>
    have same : Value.distinct (Value.distinct values) = Value.distinct values :=
      Value.distinct_of_distinct (Value.distinct_distinct values)
    refine ⟨Value.distinct values, fun _ => Value.mem_of_mem_distinct, ?_, ?_⟩
    · rw [gather, gather, same]
    · rw [gather, same, Value.toJson, Value.itemsJson_eq_map]
  | _ => cases ofItems

end Shape

theorem toJson_integer {kind : IntegerKind} {n : Int} (within : kind.contains n = true) :
    (Value.integer n).toJson =
      .number (.integer n (IntegerKind.inExactRange_of_contains within)) := by
  rw [Value.toJson, Json.ofInt, dif_pos (IntegerKind.inExactRange_of_contains within)]

theorem Inhabits.toJson_ne_null {shape : Shape} {value : Value} (h : Inhabits index shape value) :
    value.toJson ≠ .null := by
  intro null
  cases h with
  | integer within =>
    rw [toJson_integer within] at null
    cases null
  | number within =>
    obtain ⟨finite, rfl⟩ := exists_finite_of_contains within
    cases null
  | boolean | string | constant => cases null
  | list | set | map | object =>
    rw [Value.toJson] at null
    cases null

theorem Inhabits.rebinds_plain {shape : Shape} {schema : Schema} {value : Value}
    (h : Inhabits index shape value) (plain : shape.plain? = some schema) :
    Binds index shape value.toJson value := by
  refine .plain plain fun path => ?_
  cases h with
  | @integer kind n within =>
    rw [toJson_integer within, bindValue]
    exact if_pos within
  | number within =>
    obtain ⟨finite, rfl⟩ := exists_finite_of_contains within
    rw [bindValue]
    exact if_pos within
  | boolean | string => rw [bindValue]; rfl
  | constant listed =>
    rw [bindValue]
    exact if_pos listed
  | list | set | map => cases plain
  | object target => cases (Shape.target?_of_plain plain).symm.trans target

section Members

variable {members : List (String × Json)} {values : List (String × Value)} {name : String}
  {shape : Shape} {optional : Bool} {value : Value} {depth : Nat}

theorem Supplies.again (h : Supplies index members name shape optional value)
    (distinct : (values.map (·.1)).Nodup) (inside : (name, value) ∈ values)
    (rebinds : ∀ json, Json.member? name members = some json →
      Binds index shape value.toJson value) :
    Supplies index (Value.membersJson values) name shape optional value := by
  cases given : Json.member? name members with
  | none =>
    obtain ⟨optional, rfl⟩ := h.absent given
    have missing := Value.member?_membersJson_of_null distinct inside
    exact ⟨fun _ => ⟨optional, rfl⟩, fun json found => by cases missing.symm.trans found⟩
  | some json =>
    have again := rebinds json given
    have stored := Value.member?_membersJson distinct inside again.inhabits.toJson_ne_null
    refine ⟨fun missing => (by cases stored.symm.trans missing), fun json found => ?_⟩
    cases stored.symm.trans found
    exact again

theorem Supplies.spelled (h : Supplies index members name shape optional value)
    (nests : ∀ member ∈ members, Json.Nests depth member.2)
    (below : ∀ json, Json.member? name members = some json → Json.Nests depth json →
      Json.Spelled depth value.toJson) : Json.Spelled depth value.toJson := by
  cases given : Json.member? name members with
  | none =>
    obtain ⟨-, rfl⟩ := h.absent given
    exact .null
  | some json =>
    have member : (name, json) ∈ members :=
      Dictionary.mem_of_lookup_eq_some (Json.lookup_of_member? given)
    exact below json given (nests _ member)

theorem spelled_membersJson (distinct : (values.map (·.1)).Nodup)
    (each : ∀ entry ∈ values, Json.Spelled depth entry.2.toJson) :
    Json.Spelled (depth + 1) (.object (Value.membersJson values)) := by
  refine .object (Value.keys_membersJson values ▸ distinct) fun member inside => ?_
  rw [Value.membersJson_eq_map] at inside
  obtain ⟨entry, stored, rfl⟩ := List.mem_map.1 inside
  exact each entry stored

end Members

theorem nodup_of_fields {object : ObjectShape} {bound : List (Field × Value)}
    (fields : bound.map (·.1) = object.fields) (distinct : (object.fields.map (·.name)).Nodup) :
    ((bound.map fun pair => (pair.1.name, pair.2)).map (·.1)).Nodup := by
  rw [← fields, List.map_map] at distinct
  rw [List.map_map]
  exact distinct

section Collections

variable {shape item : Shape}

theorem binds_gather {kept : List Value} (ofItems : shape.item? = some item)
    (each : ∀ value ∈ kept, Binds index item value.toJson value) :
    Binds index shape (.array (kept.map Value.toJson)) (shape.gather kept) := by
  have again : ∀ pair ∈ kept.map fun value => (value.toJson, value),
      Binds index item pair.1 pair.2 := by
    intro pair inside
    obtain ⟨value, stored, rfl⟩ := List.mem_map.1 inside
    exact each value stored
  have whole := Binds.items ofItems again
  rwa [List.map_map, List.map_map, Function.comp_def, Function.comp_def, List.map_id'] at whole

theorem binds_map {entries : List (String × Value)} (ascending : Dictionary.Ascending entries)
    (each : ∀ entry ∈ entries, entry.2 = .null ∨ Binds index shape entry.2.toJson entry.2) :
    Binds index (.map shape) (.object (Value.membersJson entries)) (.map entries) := by
  have absent : ∀ pair ∈ entries.map fun entry => ((entry.1, entry.2.toJson), entry.2),
      pair.1.2 = .null → pair.2 = .null := by
    intro pair inside null
    obtain ⟨entry, stored, rfl⟩ := List.mem_map.1 inside
    rcases each entry stored with same | binds
    · exact same
    · exact absurd null binds.inhabits.toJson_ne_null
  have present : ∀ pair ∈ entries.map fun entry => ((entry.1, entry.2.toJson), entry.2),
      pair.1.2 ≠ .null → Binds index shape pair.1.2 pair.2 := by
    intro pair inside present
    obtain ⟨entry, stored, rfl⟩ := List.mem_map.1 inside
    rcases each entry stored with null | binds
    · exact absurd (congrArg Value.toJson null) present
    · exact binds
  have whole := Binds.entries absent present
  rw [List.map_map, List.map_map, Function.comp_def, Function.comp_def, List.map_id',
    Dictionary.ofList_of_ascending ascending] at whole
  rw [Value.membersJson_eq_map]
  exact whole

end Collections

/-- What was bound is bound again from its JSON. -/
theorem Binds.rebinds {shape : Shape} {json : Json} {value : Value}
    (h : Binds index shape json value) (distinct : shape.FieldsDistinct index) :
    Binds index shape value.toJson value := by
  -- What was kept or stored stems from a pair that was bound, so its case applies to it.
  induction h with
  | plain plain bound => exact (inhabits_of_plain plain (bound (.argument ""))).rebinds_plain plain
  | @items shape item bound ofItems each ih =>
    obtain ⟨kept, subset, same, json⟩ := Shape.exists_kept ofItems (bound.map (·.2))
    rw [same, json]
    refine binds_gather ofItems fun value stored => ?_
    obtain ⟨pair, inside, rfl⟩ := List.mem_map.1 (subset stored)
    exact ih pair inside (distinct.leads (.part (.item ofItems)))
  | @fields shape object members bound target fields absent present ih =>
    have unique := nodup_of_fields fields (distinct shape object .refl target)
    have again : ∀ pair ∈ bound, Supplies index (Value.membersJson (bound.map fun pair =>
        (pair.1.name, pair.2))) pair.1.name pair.1.shape pair.1.nullable pair.2 := by
      intro pair inside
      have supplies : Supplies index members pair.1.name pair.1.shape pair.1.nullable pair.2 :=
        ⟨absent pair inside, present pair inside⟩
      have part : shape.Part index pair.1.shape :=
        .field target (fields ▸ List.mem_map_of_mem inside)
      exact supplies.again unique (List.mem_map_of_mem inside) fun json given =>
        ih pair inside json given (distinct.leads (.part part))
    rw [Value.toJson, Value.collect_membersJson unique]
    exact .fields target fields (fun pair inside => (again pair inside).absent)
      fun pair inside => (again pair inside).present
  | @entries shape bound absent present ih =>
    have ascending := Dictionary.ascending_ofList (bound.map fun pair => (pair.1.1, pair.2))
    rw [Value.toJson, Value.collect_membersJson ascending.nodup_keys]
    refine binds_map ascending fun entry stored => ?_
    obtain ⟨pair, inside, rfl⟩ := List.mem_map.1 (Dictionary.ofList_subset _ stored)
    by_cases null : pair.1.2 = .null
    · exact .inl (absent pair inside null)
    · exact .inr (ih pair inside null (distinct.leads .value))

theorem Inhabits.spelled_plain {shape : Shape} {schema : Schema} {value : Value} {depth : Nat}
    (h : Inhabits index shape value) (plain : shape.plain? = some schema)
    (free : shape.FloatFree index) : Json.Spelled depth value.toJson := by
  cases h with
  | integer within =>
    rw [toJson_integer within]
    exact .integer _ _
  | number => exact absurd .refl (free _)
  | boolean b => exact .boolean b
  | string s | constant => exact .string _
  | list | set | map => cases plain
  | object target => cases (Shape.target?_of_plain plain).symm.trans target

/-- The JSON of a bound value is spelled out in its text, and nested no deeper than the JSON that
the value was bound from. -/
theorem Binds.spelled {shape : Shape} {json : Json} {value : Value} {depth : Nat}
    (h : Binds index shape json value) (distinct : shape.FieldsDistinct index)
    (free : shape.FloatFree index) (nests : Json.Nests depth json) :
    Json.Spelled depth value.toJson := by
  -- A value opens a bracket only where its JSON does, so both go down in depth together.
  induction h generalizing depth with
  | plain plain bound =>
    exact (inhabits_of_plain plain (bound (.argument ""))).spelled_plain plain free
  | @items shape item bound ofItems each ih =>
    obtain ⟨inner, rfl, below⟩ := nests.items
    obtain ⟨kept, subset, same, json⟩ := Shape.exists_kept ofItems (bound.map (·.2))
    have step : shape.Leads index item := .part (.item ofItems)
    rw [same, json]
    refine .array fun json member => ?_
    obtain ⟨value, stored, rfl⟩ := List.mem_map.1 member
    obtain ⟨pair, inside, rfl⟩ := List.mem_map.1 (subset stored)
    exact ih pair inside (distinct.leads step) (free.leads step)
      (below _ (List.mem_map_of_mem inside))
  | @fields shape object members bound target fields absent present ih =>
    obtain ⟨inner, rfl, below⟩ := nests.members
    have unique := nodup_of_fields fields (distinct shape object .refl target)
    rw [Value.toJson, Value.collect_membersJson unique]
    refine spelled_membersJson unique fun entry stored => ?_
    obtain ⟨pair, inside, rfl⟩ := List.mem_map.1 stored
    have supplies : Supplies index members pair.1.name pair.1.shape pair.1.nullable pair.2 :=
      ⟨absent pair inside, present pair inside⟩
    have step : shape.Leads index pair.1.shape :=
      .part (.field target (fields ▸ List.mem_map_of_mem inside))
    exact supplies.spelled below fun json given =>
      ih pair inside json given (distinct.leads step) (free.leads step)
  | @entries shape bound absent present ih =>
    obtain ⟨inner, rfl, below⟩ := nests.members
    have ascending := Dictionary.ascending_ofList (bound.map fun pair => (pair.1.1, pair.2))
    rw [Value.toJson, Value.collect_membersJson ascending.nodup_keys]
    refine spelled_membersJson ascending.nodup_keys fun entry stored => ?_
    obtain ⟨pair, inside, rfl⟩ := List.mem_map.1 (Dictionary.ofList_subset _ stored)
    by_cases null : pair.1.2 = .null
    · rw [absent pair inside null]
      exact .null
    · exact ih pair inside null (distinct.leads .value) (free.leads .value)
        (below _ (List.mem_map_of_mem inside))

theorem readArguments_of_object {text : String} {members : List (String × Json)}
    (visible : isBlank text = false) (read : Json.read text.toList = .ok (.object members)) :
    readArguments text = .ok members := by
  rw [readArguments, if_neg (Bool.eq_false_iff.1 visible), readJson, read]

theorem holds_of_readArguments {P : Json → Prop} {text : String} {members : List (String × Json)}
    (empty : P (.object [])) (reads : ∀ text json, Json.read text = .ok json → P json)
    (h : readArguments text = .ok members) : P (.object members) := by
  unfold readArguments at h
  split at h
  · cases h
    exact empty
  · split at h
    · cases h
    · next read =>
      cases h
      unfold readJson at read
      split at read
      · next whole =>
        cases read
        exact reads _ _ whole
      · cases read
    · cases h
      exact empty
    · cases h

theorem nests_of_readArguments {text : String} {members : List (String × Json)}
    (h : readArguments text = .ok members) : Json.Nests Json.mostOpen (.object members) :=
  holds_of_readArguments (.object (List.forall_mem_nil _)) (fun _ _ read => Json.nests_of_read read)
    h

theorem isBlank_text_object (members : List (String × Json)) :
    isBlank (Json.object members).text = false := by
  rw [isBlank, Json.text, String.toList_ofList, Json.chars]
  rfl

theorem readArguments_text {depth : Nat} {members : List (String × Json)}
    (spelled : Json.Spelled depth (.object members)) (room : depth ≤ Json.mostOpen) :
    readArguments (Json.object members).text = .ok members :=
  readArguments_of_object (isBlank_text_object members) (spelled.read_text room)

theorem spelled_member {depth : Nat} {name : String} {json : Json} (h : Json.Spelled depth json) :
    Json.Spelled (depth + 1) (.object [(name, json)]) :=
  .object (List.nodup_singleton name) fun _ inside => List.mem_singleton.1 inside ▸ h

namespace Arguments

theorem toJson_of_nodup {arguments : Arguments} (distinct : (arguments.values.map (·.1)).Nodup) :
    arguments.toJson = .object (Value.membersJson arguments.values) := by
  rw [toJson, ← Value.membersJson_eq_map, Value.collect_membersJson distinct]

end Arguments

section Parameters

variable {members : List (String × Json)} {named : List (String × Parameter)}
  {values : List (String × Value)}

theorem nodup_of_bindParameters (names : (named.map (·.1)).Nodup)
    (h : bindParameters index members named = .ok values) : (values.map (·.1)).Nodup := by
  rw [(inhabits_of_bindParameters h).1]
  exact names

theorem bindParameters_membersJson (names : (named.map (·.1)).Nodup)
    (distinct : ∀ pair ∈ named, pair.2.shape.FieldsDistinct index)
    (h : bindParameters index members named = .ok values) :
    bindParameters index (Value.membersJson values) named = .ok values := by
  have unique := nodup_of_bindParameters names h
  obtain ⟨bound, rfl, rfl, supplies⟩ := bindParameters_eq_ok_iff.1 h
  refine bindParameters_eq_ok_iff.2 ⟨bound, rfl, rfl, fun pair inside => ?_⟩
  refine (supplies pair inside).again unique (List.mem_map_of_mem inside) fun json given => ?_
  exact ((supplies pair inside).present json given).rebinds
    (distinct pair.1 (List.mem_map_of_mem inside))

theorem spelled_of_bindParameters {depth : Nat} (names : (named.map (·.1)).Nodup)
    (distinct : ∀ pair ∈ named, pair.2.shape.FieldsDistinct index)
    (free : ∀ pair ∈ named, pair.2.shape.FloatFree index)
    (nests : Json.Nests depth (.object members))
    (h : bindParameters index members named = .ok values) :
    Json.Spelled depth (.object (Value.membersJson values)) := by
  have unique := nodup_of_bindParameters names h
  obtain ⟨bound, rfl, rfl, supplies⟩ := bindParameters_eq_ok_iff.1 h
  obtain ⟨inner, rfl, below⟩ := nests.members
  refine spelled_membersJson unique fun entry stored => ?_
  obtain ⟨pair, inside, rfl⟩ := List.mem_map.1 stored
  have declared : pair.1 ∈ bound.map (·.1) := List.mem_map_of_mem inside
  refine (supplies pair inside).spelled below fun json given => ?_
  exact ((supplies pair inside).present json given).spelled (distinct pair.1 declared)
    (free pair.1 declared)

end Parameters

/-- The text of bound arguments is read again, and bound to the same arguments. -/
theorem bindArguments_text_toJson (parameters : List Parameter) (index : ShapeIndex)
    (names : ((nameParameters parameters).map (·.1)).Nodup)
    (distinct : ∀ parameter ∈ parameters, parameter.shape.FieldsDistinct index)
    (free : ∀ parameter ∈ parameters, parameter.shape.FloatFree index) (text : String)
    {arguments : Arguments} (bound : bindArguments parameters index text = .ok arguments) :
    Json.read arguments.toJson.text.toList = .ok arguments.toJson ∧
      bindArguments parameters index arguments.toJson.text = .ok arguments := by
  obtain ⟨members, read, made⟩ := bindArguments_eq_ok bound
  have distinct : ∀ pair ∈ nameParameters parameters, pair.2.shape.FieldsDistinct index :=
    fun pair inside => distinct pair.2 (mem_parameters_of_mem_nameParameters inside)
  have free : ∀ pair ∈ nameParameters parameters, pair.2.shape.FloatFree index :=
    fun pair inside => free pair.2 (mem_parameters_of_mem_nameParameters inside)
  have spelled := spelled_of_bindParameters names distinct free (nests_of_readArguments read) made
  have again := bindParameters_membersJson names distinct made
  rw [Arguments.toJson_of_nodup (nodup_of_bindParameters names made)]
  have whole := spelled.read_text le_rfl
  have read := readArguments_of_object (isBlank_text_object _) whole
  exact ⟨whole, bindArguments_of_bindParameters read again⟩

def note : ObjectShape :=
  ⟨"Note", [⟨"stars", .integer .u8, none, true⟩, ⟨"tags", .set .string, none, false⟩,
    ⟨"reply", .ref "Note", none, true⟩]⟩

def noting : List Parameter :=
  [{ name := some "note", shape := .object note }]

def noteMembers : List (String × Json) :=
  [("note", .object [("tags", .array [.string "\"\n", .string "\"\n"]),
    ("stars", .number (.integer 5 (by decide)))])]

def noteText : String :=
  "\x7b\"note\":\x7b\"tags\":[\"\\\"\\n\",\"\\\"\\n\"],\"stars\":5\x7d\x7d"

def noteArguments : Arguments :=
  ⟨[("note", .object [("stars", .integer 5), ("tags", .set [.string "\"\n"]), ("reply", .null)])]⟩

theorem note_text_reads : readArguments noteText = .ok noteMembers := by
  have same : (Json.object noteMembers).text = noteText := by decide +kernel
  have tags : Json.Spelled 1 (.array [.string "\"\n", .string "\"\n"]) :=
    .array fun item inside => by
      rcases List.mem_pair.1 inside with rfl | rfl <;> exact .string _
  have fields : Json.Spelled 2 (.object [("tags", .array [.string "\"\n", .string "\"\n"]),
      ("stars", .number (.integer 5 (by decide)))]) := by
    refine .object (by decide) fun member inside => ?_
    rcases List.mem_pair.1 inside with rfl | rfl
    · exact tags
    · exact .integer 5 _
  have whole : Json.Spelled 3 (.object noteMembers) :=
    .object (by decide) fun member inside => List.mem_singleton.1 inside ▸ fields
  have read := whole.read_text (by decide)
  rw [same] at read
  exact readArguments_of_object (by decide) read

theorem note_reaches {reached : Shape}
    (steps : (Shape.object note).Reaches (.ofParameters noting) reached) :
    reached ∈ [.object note, .ref "Note", .set .string, .integer .u8, .string] := by
  have fields : ∀ field ∈ note.fields,
      field.shape ∈ [.object note, .ref "Note", .set .string, .integer .u8, .string] := by
    simp [note]
  induction steps with
  | refl => exact List.mem_cons_self
  | tail _ step ih =>
    simp only [List.mem_cons, List.not_mem_nil, or_false] at ih
    cases step with
    | value => simp at ih
    | part part =>
      cases part with
      | item items =>
        rcases ih with rfl | rfl | rfl | rfl | rfl <;> cases items
        simp
      | field target inside =>
        rcases ih with rfl | rfl | rfl | rfl | rfl <;> cases target
        all_goals exact fields _ inside

theorem note_text_toJson :
    bindArguments noting (.ofParameters noting) noteText = .ok noteArguments ∧
      Json.read noteArguments.toJson.text.toList = .ok noteArguments.toJson ∧
      bindArguments noting (.ofParameters noting) noteArguments.toJson.text =
        .ok noteArguments := by
  have names : nameParameters noting = [("note", ⟨some "note", .object note, none, false⟩)] := rfl
  have fits : IntegerKind.u8.contains 5 = true := by decide
  have made : bindParameters (.ofParameters noting) noteMembers (nameParameters noting) =
      .ok noteArguments.values := by
    simp [names, noteMembers, noteArguments, note, bindParameters, bindParameter, bindValue,
      bindFields, bindField, bindItems, bindInteger, bindString, Json.Number.exactInt?,
      Json.member?, List.lookup_cons, Except.map, Value.distinct, Value.same, fits]
  have bound : bindArguments noting (.ofParameters noting) noteText = .ok noteArguments :=
    bindArguments_of_bindParameters note_text_reads made
  refine ⟨bound, bindArguments_text_toJson noting (.ofParameters noting) (by decide) ?_ ?_ noteText
    bound⟩
  · intro parameter member reached object steps target
    rw [List.mem_singleton.1 member] at steps
    have found := note_reaches steps
    simp only [List.mem_cons, List.not_mem_nil, or_false] at found
    rcases found with rfl | rfl | rfl | rfl | rfl <;> cases target
    all_goals decide
  · intro parameter member kind steps
    rw [List.mem_singleton.1 member] at steps
    simpa using note_reaches steps

/-- The fields stand in their order, the tag once, and null for the reply. -/
example : noteArguments.toJson.text =
    "\x7b\"note\":\x7b\"stars\":5,\"tags\":[\"\\\"\\n\"],\"reply\":null\x7d\x7d" := by
  decide +kernel

end ToolChat
