import Mathlib.Data.List.Basic
import ToolChat.Proofs.Argument.Bound
import ToolChat.Proofs.Argument.Values
import ToolChat.Proofs.Number.Exact
import ToolChat.Proofs.Text.Dictionary

/-!
Conformance to shapes.

JSON conforms to a shape by rules that know neither paths nor values nor an order of checks. What
conforms is what can be bound: each rule gives a value from those of the parts, and each binding is
an instance of a rule. The value that a binding gives is one of the shape, with its sets and its
maps in order everywhere inside of it.
-/

set_option autoImplicit false

namespace ToolChat

/-- JSON conforms to a shape. Members that a record type does not declare do not matter. -/
inductive Conforms (index : ShapeIndex) : Shape → Json → Prop
  | integer {kind : IntegerKind} {n : Json.Number} {m : Int} (whole : n.Is m)
      (low : kind.least ≤ m) (high : m ≤ kind.greatest) :
      Conforms index (.integer kind) (.number n)
  /-- Rounded to the kind the number is still finite. -/
  | number {kind : FloatKind} {n : Json.Number} {x : Finite kind.format}
      (rounded : n.toDouble.convert kind.format = .finite x) :
      Conforms index (.number kind) (.number n)
  | boolean (b : Bool) : Conforms index .boolean (.boolean b)
  | string (s : String) : Conforms index .string (.string s)
  | constant {shape : EnumShape} {s : String} (listed : s ∈ shape.variants) :
      Conforms index (.enumeration shape) (.string s)
  | list {item : Shape} {items : List Json} (each : ∀ json ∈ items, Conforms index item json) :
      Conforms index (.list item) (.array items)
  | set {item : Shape} {items : List Json} (each : ∀ json ∈ items, Conforms index item json) :
      Conforms index (.set item) (.array items)
  | map {value : Shape} {members : List (String × Json)}
      (each : ∀ member ∈ members, member.2 ≠ .null → Conforms index value member.2) :
      Conforms index (.map value) (.object members)
  | object {object : ObjectShape} {members : List (String × Json)}
      (required : ∀ field ∈ object.fields, field.nullable = false →
        ∃ json, members.lookup field.name = some json ∧ json ≠ .null)
      (given : ∀ field ∈ object.fields, ∀ json, members.lookup field.name = some json →
        json ≠ .null → Conforms index field.shape json) :
      Conforms index (.object object) (.object members)
  | ref {name : String} {object : ObjectShape} {json : Json}
      (declared : index.resolve? name = some object)
      (conforms : Conforms index (.object object) json) : Conforms index (.ref name) json

namespace Value

/-- In a value and everywhere inside of it, the items of sets are distinct and the keys of maps
ascend. -/
inductive WellFormed : Value → Prop
  | null : WellFormed .null
  | integer (n : Int) : WellFormed (.integer n)
  | number (x : Double) : WellFormed (.number x)
  | boolean (b : Bool) : WellFormed (.boolean b)
  | string (s : String) : WellFormed (.string s)
  | constant (s : String) : WellFormed (.constant s)
  | list {items : List Value} (each : ∀ item ∈ items, WellFormed item) : WellFormed (.list items)
  | set {items : List Value} (distinct : Distinct items) (each : ∀ item ∈ items, WellFormed item) :
      WellFormed (.set items)
  | map {entries : List (String × Value)} (ascending : Dictionary.Ascending entries)
      (each : ∀ entry ∈ entries, WellFormed entry.2) : WellFormed (.map entries)
  | object {fields : List (String × Value)} (each : ∀ field ∈ fields, WellFormed field.2) :
      WellFormed (.object fields)

end Value

variable {index : ShapeIndex}

section Members

variable {members : List (String × Json)} {name : String}

theorem Json.member?_eq_some_iff {json : Json} :
    Json.member? name members = some json ↔ members.lookup name = some json ∧ json ≠ .null := by
  constructor
  · intro present
    have found := Json.lookup_of_member? present
    refine ⟨found, ?_⟩
    rintro rfl
    rw [Json.member?, found] at present
    cases present
  · rintro ⟨found, present⟩
    exact Json.member?_of_lookup found present

theorem Json.exists_member?_iff : (∃ json, Json.member? name members = some json) ↔
    ∃ json, members.lookup name = some json ∧ json ≠ .null := by
  simp only [Json.member?_eq_some_iff]

end Members

theorem exists_pairs {α β : Type} {P : α → β → Prop} {list : List α}
    (each : ∀ a ∈ list, ∃ b, P a b) :
    ∃ pairs : List (α × β), pairs.map (·.1) = list ∧ ∀ pair ∈ pairs, P pair.1 pair.2 := by
  induction list with
  | nil => exact ⟨[], rfl, List.forall_mem_nil _⟩
  | cons a list ih =>
    obtain ⟨⟨b, here⟩, rest⟩ := List.forall_mem_cons.1 each
    obtain ⟨pairs, rfl, later⟩ := ih rest
    exact ⟨(a, b) :: pairs, rfl, List.forall_mem_cons.2 ⟨here, later⟩⟩

section Plain

theorem IntegerKind.contains_iff {kind : IntegerKind} {m : Int} :
    kind.contains m = true ↔ kind.least ≤ m ∧ m ≤ kind.greatest := by
  rw [contains, Bool.and_eq_true, decide_eq_true_iff, decide_eq_true_iff]

theorem FloatKind.contains_iff {kind : FloatKind} {x : Double} :
    kind.contains x = true ↔ ∃ y, x.convert kind.format = .finite y := by
  rw [contains]
  cases x.convert kind.format with
  | finite y => exact iff_of_true rfl ⟨y, rfl⟩
  | nan | infinite => exact iff_of_false Bool.false_ne_true (by rintro ⟨_, ⟨⟩⟩)

theorem BindsPlain.binds {shape : Shape} {schema : Schema} {json : Json} {value : Value}
    (plain : shape.plain? = some schema) (h : BindsPlain shape json value) :
    Binds index shape json value :=
  .plain plain h.bindValue

theorem BindsPlain.conforms {shape : Shape} {json : Json} {value : Value}
    (h : BindsPlain shape json value) : Conforms index shape json := by
  cases h with
  | integer exact within =>
    obtain ⟨low, high⟩ := IntegerKind.contains_iff.1 within
    exact .integer (Json.Number.exactInt?_eq_some_iff.1 exact).1 low high
  | number within =>
    obtain ⟨x, rounded⟩ := FloatKind.contains_iff.1 within
    exact .number rounded
  | boolean b => exact .boolean b
  | string s => exact .string s
  | constant listed => exact .constant (List.contains_iff_mem.1 listed)

end Plain

section Parts

variable {shape : Shape} {object : ObjectShape} {members : List (String × Json)}

theorem Conforms.of_target? {json : Json} (target : shape.target? index = some object)
    (conforms : Conforms index (.object object) json) : Conforms index shape json := by
  cases shape with
  | object =>
    cases target
    exact conforms
  | ref => exact .ref target conforms
  | _ => cases target

theorem Conforms.of_item? {item : Shape} {items : List Json} (ofItems : shape.item? = some item)
    (each : ∀ json ∈ items, Conforms index item json) : Conforms index shape (.array items) := by
  cases shape with
  | list =>
    cases ofItems
    exact .list each
  | set =>
    cases ofItems
    exact .set each
  | _ => cases ofItems

theorem exists_binds_items {item : Shape} {items : List Json} (ofItems : shape.item? = some item)
    (each : ∀ json ∈ items, ∃ value, Binds index item json value) :
    ∃ value, Binds index shape (.array items) value := by
  obtain ⟨pairs, rfl, binds⟩ := exists_pairs each
  exact ⟨_, .items ofItems binds⟩

theorem exists_binds_entries
    (each : ∀ member ∈ members, member.2 ≠ .null → ∃ value, Binds index shape member.2 value) :
    ∃ value, Binds index (.map shape) (.object members) value := by
  have partner : ∀ member ∈ members, ∃ value, (member.2 = .null → value = .null) ∧
      (member.2 ≠ .null → Binds index shape member.2 value) := by
    intro member inside
    by_cases null : member.2 = .null
    · exact ⟨.null, fun _ => rfl, fun present => absurd null present⟩
    · obtain ⟨value, binds⟩ := each member inside null
      exact ⟨value, fun same => absurd same null, fun _ => binds⟩
  obtain ⟨pairs, rfl, partners⟩ := exists_pairs partner
  exact ⟨_, .entries (fun pair inside => (partners pair inside).1)
    fun pair inside => (partners pair inside).2⟩

theorem exists_binds_fields
    (required : ∀ field ∈ object.fields, Json.member? field.name members = none →
      field.nullable = true)
    (given : ∀ field ∈ object.fields, ∀ json, Json.member? field.name members = some json →
      ∃ value, Binds index field.shape json value) :
    ∃ value, Binds index (.object object) (.object members) value := by
  have partner : ∀ field ∈ object.fields, ∃ value,
      Supplies index members field.name field.shape field.nullable value := by
    intro field inside
    cases found : Json.member? field.name members with
    | none =>
      exact ⟨.null, fun _ => ⟨required field inside found, rfl⟩, fun json present => by
        cases found.symm.trans present⟩
    | some json =>
      obtain ⟨value, binds⟩ := given field inside json found
      refine ⟨value, fun absent => (by cases found.symm.trans absent), fun other present => ?_⟩
      cases found.symm.trans present
      exact binds
  obtain ⟨pairs, fields, supplies⟩ := exists_pairs partner
  exact ⟨_, .fields rfl fields (fun pair inside => (supplies pair inside).absent)
    fun pair inside => (supplies pair inside).present⟩

theorem Binds.of_target? {json : Json} {value : Value} (target : shape.target? index = some object)
    (binds : Binds index (.object object) json value) : Binds index shape json value := by
  have bound := binds.bindValue (.argument "")
  rw [bindValue_of_target? rfl, ← bindValue_of_target? target] at bound
  exact binds_of_bindValue bound

end Parts

theorem Binds.conforms {shape : Shape} {json : Json} {value : Value}
    (h : Binds index shape json value) : Conforms index shape json := by
  induction h with
  | plain plain bound => exact (bindsPlain_of_bindValue plain (bound (.argument ""))).conforms
  | items ofItems each ih =>
    refine .of_item? ofItems fun json inside => ?_
    obtain ⟨pair, member, rfl⟩ := List.mem_map.1 inside
    exact ih pair member
  | @fields shape object members bound target fields absent present ih =>
    refine .of_target? target (.object (fun field inside required => ?_)
      fun field inside json found filled => ?_)
    · rw [← fields] at inside
      obtain ⟨pair, member, rfl⟩ := List.mem_map.1 inside
      rw [← Json.exists_member?_iff, ← Option.ne_none_iff_exists']
      intro missing
      rw [(absent pair member missing).1] at required
      cases required
    · rw [← fields] at inside
      obtain ⟨pair, member, rfl⟩ := List.mem_map.1 inside
      exact ih pair member json (Json.member?_of_lookup found filled)
  | @entries shape bound absent present ih =>
    refine .map fun member inside filled => ?_
    obtain ⟨pair, stored, rfl⟩ := List.mem_map.1 inside
    exact ih pair stored filled

theorem Conforms.exists_binds {shape : Shape} {json : Json} (h : Conforms index shape json) :
    ∃ value, Binds index shape json value := by
  induction h with
  | integer whole low high =>
    have within := IntegerKind.contains_iff.2 ⟨low, high⟩
    have exact := (exactInt?_eq_some_iff_of_contains within).2 whole
    exact ⟨_, BindsPlain.binds rfl (.integer exact within)⟩
  | number rounded =>
    have within := FloatKind.contains_iff.2 ⟨_, rounded⟩
    exact ⟨_, BindsPlain.binds rfl (.number within)⟩
  | boolean b => exact ⟨_, BindsPlain.binds rfl (.boolean b)⟩
  | string s => exact ⟨_, BindsPlain.binds rfl (.string s)⟩
  | constant listed => exact ⟨_, BindsPlain.binds rfl (.constant (List.contains_iff_mem.2 listed))⟩
  | list _ ih => exact exists_binds_items rfl ih
  | set _ ih => exact exists_binds_items rfl ih
  | map _ ih => exact exists_binds_entries ih
  | @object object members required given ih =>
    refine exists_binds_fields (fun field inside missing => ?_) fun field inside json present => ?_
    · by_contra strict
      obtain ⟨json, present⟩ := Json.exists_member?_iff.2
        (required field inside (Bool.eq_false_iff.2 strict))
      cases missing.symm.trans present
    · obtain ⟨found, filled⟩ := Json.member?_eq_some_iff.1 present
      exact ih field inside json found filled
  | ref declared _ ih =>
    obtain ⟨value, binds⟩ := ih
    exact ⟨value, binds.of_target? declared⟩

/-- JSON can be bound exactly if it conforms. -/
theorem exists_bindValue_iff {shape : Shape} {path : Path} {json : Json} :
    (∃ value, bindValue index shape path json = .ok value) ↔ Conforms index shape json := by
  constructor
  · rintro ⟨value, bound⟩
    exact (binds_of_bindValue bound).conforms
  · intro conforms
    obtain ⟨value, binds⟩ := conforms.exists_binds
    exact ⟨value, binds.bindValue path⟩

theorem Inhabits.wellFormed_plain {shape : Shape} {schema : Schema} {value : Value}
    (h : Inhabits index shape value) (plain : shape.plain? = some schema) : value.WellFormed := by
  cases h with
  | integer => exact .integer _
  | number => exact .number _
  | boolean b => exact .boolean b
  | string s => exact .string s
  | constant => exact .constant _
  | list | set | map => cases plain
  | object target =>
    cases shape with
    | object | ref => cases plain
    | _ => cases target

theorem wellFormed_gather {shape item : Shape} {values : List Value}
    (ofItems : shape.item? = some item) (each : ∀ value ∈ values, value.WellFormed) :
    (shape.gather values).WellFormed := by
  cases shape with
  | list => exact .list each
  | set =>
    exact .set (Value.distinct_distinct values) fun value inside =>
      each value (Value.mem_of_mem_distinct inside)
  | _ => cases ofItems

theorem Binds.wellFormed {shape : Shape} {json : Json} {value : Value}
    (h : Binds index shape json value) : value.WellFormed := by
  induction h with
  | plain plain bound =>
    exact (inhabits_of_plain plain (bound (.argument ""))).wellFormed_plain plain
  | items ofItems each ih =>
    refine wellFormed_gather ofItems fun value inside => ?_
    obtain ⟨pair, member, rfl⟩ := List.mem_map.1 inside
    exact ih pair member
  | @fields shape object members bound target fields absent present ih =>
    refine .object fun entry inside => ?_
    obtain ⟨pair, member, rfl⟩ := List.mem_map.1 inside
    cases found : Json.member? pair.1.name members with
    | none =>
      rw [(absent pair member found).2]
      exact .null
    | some json => exact ih pair member json found
  | @entries shape bound absent present ih =>
    refine .map (Dictionary.ascending_ofList _) fun entry inside => ?_
    obtain ⟨pair, member, rfl⟩ := List.mem_map.1 (Dictionary.ofList_subset _ inside)
    by_cases null : pair.1.2 = .null
    · rw [absent pair member null]
      exact .null
    · exact ih pair member null

/-- JSON is bound exactly if it conforms to the shape, and the value that it is bound to is one of
the shape: nothing in it is null but nullable fields and entries of maps, and its sets and maps keep
their promises. -/
theorem bindValue_ok_iff_conforms (index : ShapeIndex) (shape : Shape) (path : Path) (json : Json) :
    ((∃ value, bindValue index shape path json = .ok value) ↔ Conforms index shape json) ∧
      ∀ value, bindValue index shape path json = .ok value →
        Inhabits index shape value ∧ value.WellFormed :=
  ⟨exists_bindValue_iff, fun _ bound =>
    ⟨inhabits_of_bindValue bound, (binds_of_bindValue bound).wellFormed⟩⟩

/-- Null stands for an absent field or entry, but for no item. -/
example : bindValue .empty (.list .boolean) (.argument "flags") (.array [.null]) =
    .error ⟨.item (.argument "flags") 0, .mismatch .boolean .null⟩ := by
  cbv

def folder : ObjectShape :=
  ⟨"Folder", [⟨"labels", .set .string, none, false⟩, ⟨"sizes", .map (.integer .u8), none, true⟩,
    ⟨"inner", .ref "Folder", none, true⟩]⟩

def folderJson : Json :=
  .object [("inner", .object [("labels", .array [])]),
    ("labels", .array [.string "a", .string "b", .string "a"]), ("owner", .null),
    ("sizes", .object [("big", .number (.integer 255 (by decide))), ("aside", .null)])]

def folderValue : Value :=
  .object [("labels", .set [.string "a", .string "b"]),
    ("sizes", .map [("aside", .null), ("big", .integer 255)]),
    ("inner", .object [("labels", .set []), ("sizes", .null), ("inner", .null)])]

theorem folder_conforms :
    bindValue ⟨[folder]⟩ (.ref "Folder") (.argument "root") folderJson = .ok folderValue ∧
      Conforms ⟨[folder]⟩ (.ref "Folder") folderJson ∧
      Inhabits ⟨[folder]⟩ (.ref "Folder") folderValue ∧ folderValue.WellFormed := by
  have bound : bindValue ⟨[folder]⟩ (.ref "Folder") (.argument "root") folderJson =
      .ok folderValue := by cbv
  obtain ⟨conforms, value⟩ :=
    bindValue_ok_iff_conforms ⟨[folder]⟩ (.ref "Folder") (.argument "root") folderJson
  exact ⟨bound, conforms.1 ⟨_, bound⟩, value _ bound⟩

end ToolChat
