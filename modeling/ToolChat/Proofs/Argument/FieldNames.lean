import ToolChat.Proofs.Argument.RoundTrip
import ToolChat.Proofs.Schema.Acceptance

/-!
Field names of bound records.

The JSON of a record shows under each name what the record has there if its field names are
distinct. A record that is bound has the field names of its record type, and these were found to be
distinct if a schema was generated for the type: so they are for every record outside of the
entries of maps, and for every record of a type that is reached outside of maps at all.
-/

set_option autoImplicit false

namespace ToolChat

namespace Value

/-- The field names of a record are distinct, and each shows the same value in the record and in its
JSON. -/
structure Unambiguous (fields : List (String × Value)) : Prop where
  distinct : (fields.map (·.1)).Nodup
  json : ∃ members, (Value.object fields).toJson = .object members ∧
    ∀ name, members.lookup name = ((Value.object fields).field? name).map toJson

theorem lookup_membersJson_eq (members : List (String × Value)) (name : String) :
    (membersJson members).lookup name = (members.lookup name).map toJson := by
  induction members with
  | nil => rfl
  | cons member members ih =>
    obtain ⟨key, value⟩ := member
    rw [membersJson, List.lookup_cons, List.lookup_cons]
    by_cases same : name == key
    · rw [same, Option.map_some]
    · simp only [same, ih]

theorem unambiguous_of_nodup {fields : List (String × Value)}
    (distinct : (fields.map (·.1)).Nodup) : Unambiguous fields := by
  refine ⟨distinct, membersJson fields, ?_, fun name => lookup_membersJson_eq fields name⟩
  rw [toJson, collect_membersJson distinct]

/-- A value contains another without looking into the entries of maps. -/
inductive Contains : Value → Value → Prop
  | here (value : Value) : Contains value value
  | item {value next inner : Value} {items : List Value} (stored : value.items? = some items)
      (inside : next ∈ items) (below : Contains next inner) : Contains value inner
  | field {inner : Value} {entry : String × Value} {fields : List (String × Value)}
      (inside : entry ∈ fields) (below : Contains entry.2 inner) : Contains (.object fields) inner

/-- Somewhere in a value of a shape, also in the entries of maps, stands a value of a part of the
shape. -/
inductive Holds (index : ShapeIndex) : Shape → Value → Shape → Value → Prop
  | here (shape : Shape) (value : Value) : Holds index shape value shape value
  | item {shape item part : Shape} {value next inner : Value} {items : List Value}
      (ofItems : shape.item? = some item) (stored : value.items? = some items)
      (inside : next ∈ items) (below : Holds index item next part inner) :
      Holds index shape value part inner
  | field {shape part : Shape} {object : ObjectShape} {field : Field} {inner : Value}
      {entry : String × Value} {fields : List (String × Value)}
      (target : shape.target? index = some object)
      (inside : (field, entry) ∈ object.fields.zip fields)
      (below : Holds index field.shape entry.2 part inner) :
      Holds index shape (.object fields) part inner
  | entry {shape part : Shape} {inner : Value} {entry : String × Value}
      {entries : List (String × Value)} (inside : entry ∈ entries)
      (below : Holds index shape entry.2 part inner) :
      Holds index (.map shape) (.map entries) part inner

theorem Contains.ne_null {value inner : Value} (h : Contains value inner)
    (present : inner ≠ .null) : value ≠ .null := by
  rintro rfl
  cases h with
  | here => exact present rfl
  | item stored => cases stored

theorem Holds.ne_null {index : ShapeIndex} {shape part : Shape} {value inner : Value}
    (h : Holds index shape value part inner) (present : inner ≠ .null) : value ≠ .null := by
  rintro rfl
  cases h with
  | here => exact present rfl
  | item _ stored => cases stored

end Value

variable {index : ShapeIndex} {shape part : Shape} {value inner : Value}

theorem Inhabits.exists_item {items : List Value} (h : Inhabits index shape value)
    (stored : value.items? = some items) :
    ∃ item, shape.item? = some item ∧ ∀ next ∈ items, Inhabits index item next := by
  cases h with
  | list each =>
    cases stored
    exact ⟨_, rfl, each⟩
  | set each =>
    cases stored
    exact ⟨_, rfl, each⟩
  | _ => cases stored

theorem Inhabits.item {item : Shape} {items : List Value} (h : Inhabits index shape value)
    (ofItems : shape.item? = some item) (stored : value.items? = some items) :
    ∀ next ∈ items, Inhabits index item next := by
  obtain ⟨other, known, each⟩ := h.exists_item stored
  cases known.symm.trans ofItems
  exact each

theorem Inhabits.exists_object {fields : List (String × Value)}
    (h : Inhabits index shape (.object fields)) :
    ∃ object, shape.target? index = some object ∧
      fields.map (·.1) = object.fields.map (·.name) ∧
      ∀ pair ∈ object.fields.zip fields, pair.2.2 ≠ .null →
        Inhabits index pair.1.shape pair.2.2 := by
  cases h with
  | object target names _ each => exact ⟨_, target, names, each⟩

theorem Inhabits.contains (h : Inhabits index shape value) (inside : value.Contains inner)
    (present : inner ≠ .null) :
    ∃ part, shape.ReachesOutside index part ∧ Inhabits index part inner := by
  induction inside generalizing shape with
  | here => exact ⟨shape, .refl, h⟩
  | item stored member _ ih =>
    obtain ⟨item, ofItems, each⟩ := h.exists_item stored
    obtain ⟨part, steps, inhabits⟩ := ih (each _ member) present
    exact ⟨part, .head (.item ofItems) steps, inhabits⟩
  | @field _ entry fields member below ih =>
    obtain ⟨object, target, names, each⟩ := h.exists_object
    have lengths : fields.length ≤ object.fields.length := by
      have same := congrArg List.length names
      rw [List.length_map, List.length_map] at same
      omega
    rw [← List.map_snd_zip lengths] at member
    obtain ⟨⟨field, entry⟩, paired, rfl⟩ := List.mem_map.1 member
    obtain ⟨part, steps, inhabits⟩ := ih (each _ paired (below.ne_null present)) present
    exact ⟨part, .head (.field target (List.of_mem_zip paired).1) steps, inhabits⟩

theorem Inhabits.holds (h : Inhabits index shape value)
    (inside : value.Holds index shape part inner) (present : inner ≠ .null) :
    Inhabits index part inner := by
  induction inside with
  | here => exact h
  | item ofItems stored member _ ih => exact ih (h.item ofItems stored _ member) present
  | @field shape _ object field _ entry fields target paired below ih =>
    obtain ⟨other, known, -, each⟩ := h.exists_object
    cases known.symm.trans target
    exact ih (each _ paired (below.ne_null present)) present
  | @entry _ _ _ entry entries member below ih =>
    cases h with
    | map each => exact ih (each entry member (below.ne_null present)) present

/-- A record of a type that is reached outside of maps shows each field under its name. -/
theorem Inhabits.unambiguous {fields : List (String × Value)} {root outside : Shape}
    (h : Inhabits index shape (.object fields)) (sound : root.Sound index)
    (reached : root.ReachesOutside index outside)
    (same : outside.target? index = shape.target? index) : Value.Unambiguous fields := by
  obtain ⟨object, target, names, -⟩ := h.exists_object
  apply Value.unambiguous_of_nodup
  rw [names]
  exact sound.distinct outside object reached (same.trans target)

/-- The shapes of the parameters of a registered tool are sound. -/
theorem sound_of_register {σ : Type} {tools after : Toolset σ} {tool : Tool σ}
    (agree : NamesAgree (tool.parameters.map (·.shape)))
    (registered : tools.register tool = .ok after) :
    ∃ entry, after.get? tool.name = some entry ∧ entry.parameters = tool.parameters ∧
      entry.shapes = .ofParameters tool.parameters ∧
      ∀ parameter ∈ tool.parameters, parameter.shape.Sound (.ofParameters tool.parameters) := by
  obtain ⟨entry, made, found⟩ := Toolset.exists_entry_of_register registered
  obtain ⟨-, parameters, shapes, generated, accepted, -⟩ := RegisteredTool.of_ofTool_eq_ok made
  refine ⟨entry, found, parameters, shapes, ?_⟩
  cases generated with
  | none =>
    rw [eq_nil_of_generateParameters accepted]
    exact nofun
  | some bundle => exact (sound_of_generateParameters agree accepted).2

/-- In the arguments that a registered tool binds, each record outside of the entries of maps shows
its fields under their names, and so does each record anywhere whose type is reached outside of maps
as well. -/
theorem register_unambiguous {σ : Type} (tools after : Toolset σ) (tool : Tool σ)
    (agree : NamesAgree (tool.parameters.map (·.shape)))
    (registered : tools.register tool = .ok after) :
    ∃ entry, after.get? tool.name = some entry ∧
      ∀ text arguments, entry.bind text = .ok arguments →
        (∀ argument ∈ arguments.values, ∀ fields, argument.2.Contains (.object fields) →
          Value.Unambiguous fields) ∧
        ∀ pair ∈ (nameParameters tool.parameters).zip arguments.values, ∀ part fields,
          Value.Holds (.ofParameters tool.parameters) pair.1.2.shape pair.2.2 part
            (.object fields) →
          (∃ parameter ∈ tool.parameters, ∃ outside,
            parameter.shape.ReachesOutside (.ofParameters tool.parameters) outside ∧
            outside.target? (.ofParameters tool.parameters) =
              part.target? (.ofParameters tool.parameters)) →
          Value.Unambiguous fields := by
  obtain ⟨entry, found, parameters, shapes, sound⟩ := sound_of_register agree registered
  refine ⟨entry, found, fun text arguments bind => ?_⟩
  rw [RegisteredTool.bind, parameters, shapes] at bind
  obtain ⟨members, -, bound⟩ := bindArguments_eq_ok bind
  obtain ⟨names, each⟩ := inhabits_of_bindParameters bound
  constructor
  · intro argument member fields inside
    have lengths : arguments.values.length ≤ (nameParameters tool.parameters).length := by
      have same := congrArg List.length names
      rw [List.length_map, List.length_map] at same
      omega
    rw [← List.map_snd_zip lengths] at member
    obtain ⟨⟨⟨name, parameter⟩, argument⟩, paired, rfl⟩ := List.mem_map.1 member
    have filled := inside.ne_null nofun
    have declared := mem_parameters_of_mem_nameParameters (List.of_mem_zip paired).1
    obtain ⟨part, reached, inhabits⟩ := ((each _ paired).2 filled).contains inside nofun
    exact inhabits.unambiguous (sound parameter declared) reached rfl
  · rintro ⟨⟨name, parameter⟩, argument⟩ paired part fields inside
      ⟨other, declared, outside, reached, same⟩
    have filled := inside.ne_null nofun
    have inhabits := ((each _ paired).2 filled).holds inside nofun
    exact inhabits.unambiguous (sound other declared) reached same

theorem exists_bind_of_register {σ : Type} {tools after : Toolset σ} {tool : Tool σ} {text : String}
    {members : List (String × Json)} {values : List (String × Value)}
    (registered : tools.register tool = .ok after) (read : readArguments text = .ok members)
    (bound : bindParameters (.ofParameters tool.parameters) members
      (nameParameters tool.parameters) = .ok values) :
    ∃ entry, after.get? tool.name = some entry ∧ entry.bind text = .ok ⟨values⟩ := by
  obtain ⟨entry, made, found⟩ := Toolset.exists_entry_of_register registered
  obtain ⟨-, parameters, shapes, -⟩ := RegisteredTool.of_ofTool_eq_ok made
  refine ⟨entry, found, ?_⟩
  rw [RegisteredTool.bind, parameters, shapes, bindArguments, read]
  dsimp only
  rw [bound]

def parcelMembers : List (String × Json) :=
  [("home", .object [("city", .string "Rome")]),
    ("others", .object [("work", .object [("city", .string "Bern")])])]

def parcelText : String :=
  "\x7b\"home\":\x7b\"city\":\"Rome\"\x7d,\"others\":\x7b\"work\":\x7b\"city\":\"Bern\"\x7d\x7d\x7d"

theorem parcel_text_reads : readArguments parcelText = .ok parcelMembers := by
  have same : (Json.object parcelMembers).text = parcelText := by decide +kernel
  have home : Json.Spelled 2 (.object [("city", .string "Rome")]) := spelled_member (.string _)
  have others : Json.Spelled 2 (.object [("work", .object [("city", .string "Bern")])]) :=
    spelled_member (spelled_member (.string _))
  have whole : Json.Spelled 3 (.object parcelMembers) := by
    refine .object (by decide) fun member inside => ?_
    rcases List.mem_pair.1 inside with rfl | rfl
    · exact home
    · exact others
  rw [← same]
  exact readArguments_text whole (by decide)

theorem parcel_unambiguous : ∃ after entry, Toolset.empty.register ship = .ok after ∧
    after.get? "ship" = some entry ∧
    entry.bind parcelText = .ok
      ⟨[("home", .object [("city", .string "Rome"), ("lines", .null)]),
        ("others", .map [("work", .object [("city", .string "Bern"), ("lines", .null)])])]⟩ ∧
    Value.Unambiguous [("city", .string "Rome"), ("lines", .null)] ∧
    Value.Unambiguous [("city", .string "Bern"), ("lines", .null)] := by
  obtain ⟨after, entered⟩ := ship_registered
  have bound : bindParameters (.ofParameters ship.parameters) parcelMembers
      (nameParameters ship.parameters) = .ok
        [("home", .object [("city", .string "Rome"), ("lines", .null)]),
          ("others", .map [("work", .object [("city", .string "Bern"), ("lines", .null)])])] := by
    have names : nameParameters ship.parameters =
        [("home", ⟨some "home", .object address, none, false⟩),
          ("others", ⟨some "others", .map (.ref "Address"), none, true⟩)] := rfl
    have found : (ShapeIndex.ofParameters ship.parameters).resolve? "Address" = some address := rfl
    simp [names, found, parcelMembers, address, bindParameters, bindParameter, bindValue,
      bindFields, bindField, bindEntries, bindEntry, bindString, Json.member?, List.lookup_cons,
      Except.map, Dictionary.ofList, Dictionary.insert]
  obtain ⟨entry, found, shows⟩ :=
    register_unambiguous .empty after ship shipping_names_agree entered
  obtain ⟨same, known, bind⟩ := exists_bind_of_register entered parcel_text_reads bound
  obtain rfl : entry = same := Option.some.inj (found.symm.trans known)
  obtain ⟨outside, anywhere⟩ := shows _ _ bind
  refine ⟨after, entry, entered, found, bind, ?_, ?_⟩
  · exact outside _ List.mem_cons_self _ (.here _)
  · refine anywhere _ (List.mem_cons_of_mem _ List.mem_cons_self) (.ref "Address") _
      (.entry List.mem_cons_self (.here _ _)) ?_
    exact ⟨_, List.mem_cons_self, .object address, .refl, rfl⟩

def marks : ObjectShape :=
  ⟨"Marks", [⟨"given", .list .boolean, none, false⟩, ⟨"given", .set .boolean, none, false⟩]⟩

def marking : Tool Unit where
  name := "mark"
  parameters := [{ name := some "before", shape := .object ⟨"Marks", []⟩ },
    { name := some "after", shape := .object marks }]
  handler := { body := fun _ _ => return .ok (.text "marked") }

def tallying : Tool Unit where
  name := "tally"
  parameters := [{ name := some "by", shape := .map (.object marks) }]
  handler := { body := fun _ _ => return .ok (.text "tallied") }

def markMembers : List (String × Json) :=
  [("before", .object []), ("after", .object [("given", .array [.boolean true, .boolean true])])]

def markText : String :=
  "\x7b\"before\":\x7b\x7d,\"after\":\x7b\"given\":[true,true]\x7d\x7d"

def tallyMembers : List (String × Json) :=
  [("by", .object [("me", .object [("given", .array [.boolean true, .boolean true])])])]

def tallyText : String :=
  "\x7b\"by\":\x7b\"me\":\x7b\"given\":[true,true]\x7d\x7d\x7d"

def givenTwice : List (String × Value) :=
  [("given", .list [.boolean true, .boolean true]), ("given", .set [.boolean true])]

private theorem spelled_given {depth : Nat} : Json.Spelled (depth + 2)
    (.object [("given", .array [.boolean true, .boolean true])]) := by
  refine spelled_member (.array fun item inside => ?_)
  rcases List.mem_pair.1 inside with rfl | rfl <;> exact .boolean true

theorem mark_text_reads : readArguments markText = .ok markMembers := by
  have same : (Json.object markMembers).text = markText := by decide +kernel
  have empty : Json.Spelled 2 (.object []) :=
    .object List.nodup_nil fun _ inside => absurd inside List.not_mem_nil
  have whole : Json.Spelled 3 (.object markMembers) := by
    refine .object (by decide) fun member inside => ?_
    rcases List.mem_pair.1 inside with rfl | rfl
    · exact empty
    · exact spelled_given
  rw [← same]
  exact readArguments_text whole (by decide)

theorem tally_text_reads : readArguments tallyText = .ok tallyMembers := by
  have same : (Json.object tallyMembers).text = tallyText := by decide +kernel
  have whole : Json.Spelled 4 (.object tallyMembers) :=
    spelled_member (spelled_member spelled_given)
  rw [← same]
  exact readArguments_text whole (by decide)

theorem bindFields_marks (index : ShapeIndex) (path : Path) :
    bindFields index marks.fields path [("given", .array [.boolean true, .boolean true])] =
      .ok givenTwice := by
  simp [marks, givenTwice, bindFields, bindField, bindValue, bindItems, bindBoolean, Json.member?,
    List.lookup_cons, Except.map, Value.distinct, Value.same]

theorem marking_registered : ∃ after, Toolset.empty.register marking = .ok after := by
  have given : marking.parameters.isEmpty = false := rfl
  have names : nameParameters marking.parameters =
      [("before", ⟨some "before", .object ⟨"Marks", []⟩, none, false⟩),
        ("after", ⟨some "after", .object marks, none, false⟩)] := rfl
  have generated : ∃ generated, generateParameters marking.parameters = .ok generated := by
    simp [generateParameters, generateParametersWith, given, names, generateProperties,
      Session.generate, Session.withIndex, generateShape, generateFields, settleObject,
      Memory.initial, Memory.built?, Memory.settle, marks]
  obtain ⟨_, generated⟩ := generated
  exact Toolset.exists_register rfl (by decide) generated

theorem tallying_registered : ∃ after, Toolset.empty.register tallying = .ok after := by
  have given : tallying.parameters.isEmpty = false := rfl
  have names : nameParameters tallying.parameters =
      [("by", ⟨some "by", .map (.object marks), none, false⟩)] := rfl
  have generated : ∃ generated, generateParameters tallying.parameters = .ok generated := by
    simp [generateParameters, generateParametersWith, given, names, generateProperties,
      Session.generate, Session.withIndex, generateShape, checkBindable, checkFieldsBindable, marks]
  obtain ⟨_, generated⟩ := generated
  exact Toolset.exists_register rfl (by decide) generated

/-- A record type that declares one field twice is bound where the schema of its name was generated
from another type, and in maps. The record then shows the first of the two under the name, and its
JSON the last. -/
theorem given_twice_ambiguous :
    (∃ after entry, Toolset.empty.register marking = .ok after ∧
      after.get? "mark" = some entry ∧
      entry.bind markText = .ok ⟨[("before", .object []), ("after", .object givenTwice)]⟩) ∧
    (∃ after entry, Toolset.empty.register tallying = .ok after ∧
      after.get? "tally" = some entry ∧
      entry.bind tallyText = .ok ⟨[("by", .map [("me", .object givenTwice)])]⟩) ∧
    ¬(givenTwice.map (·.1)).Nodup ∧
    (Value.object givenTwice).field? "given" = some (.list [.boolean true, .boolean true]) ∧
    (Value.object givenTwice).toJson = .object [("given", .array [.boolean true])] ∧
    ¬Value.Unambiguous givenTwice := by
  have repeated : ¬(givenTwice.map (·.1)).Nodup := by decide
  refine ⟨?_, ?_, repeated, rfl, rfl, fun shows => repeated shows.distinct⟩
  · obtain ⟨after, entered⟩ := marking_registered
    have names : nameParameters marking.parameters =
        [("before", ⟨some "before", .object ⟨"Marks", []⟩, none, false⟩),
          ("after", ⟨some "after", .object marks, none, false⟩)] := rfl
    have bound : bindParameters (.ofParameters marking.parameters) markMembers
        (nameParameters marking.parameters) =
          .ok [("before", .object []), ("after", .object givenTwice)] := by
      simp [names, markMembers, bindParameters, bindParameter, bindValue, bindFields,
        bindFields_marks, Json.member?, List.lookup_cons, Except.map]
    obtain ⟨entry, found, bind⟩ := exists_bind_of_register entered mark_text_reads bound
    exact ⟨after, entry, entered, found, bind⟩
  · obtain ⟨after, entered⟩ := tallying_registered
    have names : nameParameters tallying.parameters =
        [("by", ⟨some "by", .map (.object marks), none, false⟩)] := rfl
    have bound : bindParameters (.ofParameters tallying.parameters) tallyMembers
        (nameParameters tallying.parameters) = .ok [("by", .map [("me", .object givenTwice)])] := by
      simp [names, tallyMembers, bindParameters, bindParameter, bindValue, bindEntries, bindEntry,
        bindFields_marks, Json.member?, Except.map, Dictionary.ofList, Dictionary.insert]
    obtain ⟨entry, found, bind⟩ := exists_bind_of_register entered tally_text_reads bound
    exact ⟨after, entry, entered, found, bind⟩

end ToolChat
