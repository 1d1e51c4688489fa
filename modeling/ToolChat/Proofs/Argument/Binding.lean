import Mathlib.Data.List.Forall2
import ToolChat.Argument.Binder
import ToolChat.Proofs.Argument.Values
import ToolChat.Proofs.Schema.Derivation

/-!
What the binder does.

A binding that fails has a violation: there is a place below the argument, reached through fields,
items and entries, where the JSON does not have its shape. A binding that succeeds gives a value of
the shape. Both are derivations that follow the shape and the JSON together.
-/

set_option autoImplicit false

namespace ToolChat

variable {index : ShapeIndex}

namespace Shape

def gather : Shape → List Value → Value
  | .set _, values => .set (Value.distinct values)
  | _, values => .list values

theorem eq_cases (index : ShapeIndex) (shape : Shape) :
    (∃ schema, shape.plain? = some schema) ∨ (∃ item, shape.item? = some item) ∨
      (∃ object, shape.target? index = some object) ∨ (∃ value, shape = .map value) ∨
      (∃ name, shape = .ref name ∧ index.resolve? name = none) ∨
      ∃ name, shape = .undescribed name := by
  cases shape with
  | integer | number | boolean | string | enumeration => exact .inl ⟨_, rfl⟩
  | list item | set item => exact .inr (.inl ⟨item, rfl⟩)
  | object object => exact .inr (.inr (.inl ⟨object, rfl⟩))
  | map value => exact .inr (.inr (.inr (.inl ⟨value, rfl⟩)))
  | undescribed name => exact .inr (.inr (.inr (.inr (.inr ⟨name, rfl⟩))))
  | ref name =>
    cases found : index.resolve? name with
    | some object => exact .inr (.inr (.inl ⟨object, found⟩))
    | none => exact .inr (.inr (.inr (.inr (.inl ⟨name, rfl, found⟩))))

end Shape

section Steps

variable {path : Path}

theorem bindValue_of_target? {shape : Shape} {object : ObjectShape}
    (target : shape.target? index = some object) (json : Json) :
    bindValue index shape path json = match json with
      | .object members => (bindFields index object.fields path members).map .object
      | found => .error ⟨path, .mismatch .object found.kind⟩ := by
  cases shape with
  | object record =>
    cases target
    cases json <;> simp only [bindValue]
  | ref name =>
    have found : index.resolve? name = some object := target
    cases json <;> simp only [bindValue, found]
  | _ => cases target

theorem bindValue_of_item? {shape item : Shape} (items : shape.item? = some item) (json : Json) :
    bindValue index shape path json = match json with
      | .array elements => (bindItems index item path 0 elements).map shape.gather
      | found => .error ⟨path, .mismatch .array found.kind⟩ := by
  cases shape with
  | list inner =>
    cases items
    cases json <;> simp only [bindValue]
    rfl
  | set inner =>
    cases items
    cases json <;> simp only [bindValue]
    rfl
  | _ => cases items

private theorem of_map_eq_error {α β : Type} {f : α → β} {outcome : Except Violation α}
    {v : Violation} (h : outcome.map f = .error v) : outcome = .error v := by
  cases outcome with
  | error e =>
    cases h
    rfl
  | ok a => cases h

theorem of_map_eq_ok {α β : Type} {f : α → β} {outcome : Except Violation α} {b : β}
    (h : outcome.map f = .ok b) : ∃ a, outcome = .ok a ∧ f a = b := by
  cases outcome with
  | error e => cases h
  | ok a =>
    cases h
    exact ⟨a, rfl, rfl⟩

theorem exists_of_mapM_eq_error {α β : Type} {f : α → Except Violation β} {list : List α}
    {v : Violation} (h : list.mapM f = .error v) : ∃ a ∈ list, f a = .error v := by
  induction list with
  | nil => cases h
  | cons a list ih =>
    rw [List.mapM_cons] at h
    cases first : f a with
    | error cause =>
      rw [first] at h
      cases h
      exact ⟨a, List.mem_cons_self, first⟩
    | ok b =>
      cases rest : list.mapM f with
      | error cause =>
        rw [first, rest] at h
        cases h
        obtain ⟨other, inside, failed⟩ := ih rest
        exact ⟨other, List.mem_cons_of_mem _ inside, failed⟩
      | ok bs =>
        rw [first, rest] at h
        cases h

theorem forall₂_of_mapM_eq_ok {α β : Type} {f : α → Except Violation β} {list : List α}
    {bs : List β} (h : list.mapM f = .ok bs) : List.Forall₂ (fun a b => f a = .ok b) list bs := by
  induction list generalizing bs with
  | nil =>
    cases h
    exact .nil
  | cons a list ih =>
    rw [List.mapM_cons] at h
    cases first : f a with
    | error cause =>
      rw [first] at h
      cases h
    | ok b =>
      cases rest : list.mapM f with
      | error cause =>
        rw [first, rest] at h
        cases h
      | ok others =>
        rw [first, rest] at h
        cases h
        exact .cons first (ih rest)

theorem exists_of_mem_of_mapM_eq_ok {α β : Type} {f : α → Except Violation β} {list : List α}
    {bs : List β} {b : β} (h : list.mapM f = .ok bs) (inside : b ∈ bs) :
    ∃ a ∈ list, f a = .ok b := by
  have paired := forall₂_of_mapM_eq_ok h
  clear h
  induction paired with
  | nil => cases inside
  | cons first _ ih =>
    rcases List.mem_cons.1 inside with rfl | later
    · exact ⟨_, List.mem_cons_self, first⟩
    · obtain ⟨a, member, same⟩ := ih later
      exact ⟨a, List.mem_cons_of_mem _ member, same⟩

private theorem map_eq_of_forall₂ {α β γ : Type} {f : α → γ} {g : β → γ} {as : List α}
    {bs : List β} (h : List.Forall₂ (fun a b => g b = f a) as bs) : bs.map g = as.map f := by
  induction h with
  | nil => rfl
  | cons same _ ih => rw [List.map_cons, List.map_cons, same, ih]

theorem bindFields_eq_mapM (fields : List Field) (members : List (String × Json)) :
    bindFields index fields path members = fields.mapM fun field =>
      (bindField index field path members).map (field.name, ·) := by
  induction fields with
  | nil =>
    rw [bindFields]
    rfl
  | cons field fields ih =>
    rw [bindFields, List.mapM_cons, ← ih]
    cases bindField index field path members with
    | error v => rfl
    | ok value => cases bindFields index fields path members <;> rfl

theorem forall₂_of_bindFields_eq_ok {fields : List Field} {members : List (String × Json)}
    {values : List (String × Value)} (h : bindFields index fields path members = .ok values) :
    List.Forall₂ (fun field value => value.1 = field.name ∧
      bindField index field path members = .ok value.2) fields values := by
  rw [bindFields_eq_mapM] at h
  apply (forall₂_of_mapM_eq_ok h).imp
  intro field value made
  obtain ⟨bound, same, rfl⟩ := of_map_eq_ok made
  exact ⟨rfl, same⟩

theorem bindItems_eq_mapM (item : Shape) (position : Nat) (items : List Json) :
    bindItems index item path position items = (items.zipIdx position).mapM fun (json, place) =>
      bindValue index item (.item path place) json := by
  induction items generalizing position with
  | nil =>
    rw [bindItems]
    rfl
  | cons json items ih =>
    rw [bindItems, List.zipIdx_cons, List.mapM_cons, ← ih]
    dsimp only
    cases bindValue index item (.item path position) json with
    | error v => rfl
    | ok value => cases bindItems index item path (position + 1) items <;> rfl

theorem bindEntries_eq_mapM (shape : Shape) (members : List (String × Json)) :
    bindEntries index shape path members = members.mapM fun (key, json) =>
      (bindEntry index shape (.entry path key) json).map (key, ·) := by
  induction members with
  | nil =>
    rw [bindEntries]
    rfl
  | cons entry members ih =>
    obtain ⟨key, json⟩ := entry
    rw [bindEntries, List.mapM_cons, ← ih]
    dsimp only
    cases bindEntry index shape (.entry path key) json with
    | error v => rfl
    | ok value => cases bindEntries index shape path members <;> rfl

theorem bindParameters_eq_mapM (members : List (String × Json))
    (named : List (String × Parameter)) :
    bindParameters index members named = named.mapM fun (name, parameter) =>
      (bindParameter index members name parameter).map (name, ·) := by
  induction named with
  | nil => rfl
  | cons pair named ih =>
    obtain ⟨name, parameter⟩ := pair
    rw [bindParameters, List.mapM_cons, ← ih]
    dsimp only
    cases bindParameter index members name parameter with
    | error v => rfl
    | ok value => cases bindParameters index members named <;> rfl

theorem bindField_of_present {field : Field} {members : List (String × Json)} {json : Json}
    (present : Json.member? field.name members = some json) :
    bindField index field path members =
      bindValue index field.shape (.field path field.name) json := by
  rw [bindField]
  split
  · next found =>
    rw [present] at found
    cases found
    rfl
  · next missing =>
    rw [present] at missing
    cases missing

theorem bindField_of_absent {field : Field} {members : List (String × Json)}
    (absent : Json.member? field.name members = none) :
    bindField index field path members =
      if field.nullable then .ok .null else .error ⟨.field path field.name, .missing⟩ := by
  rw [bindField]
  split
  · next found =>
    rw [absent] at found
    cases found
  · rfl

theorem bindEntry_of_ne_null {shape : Shape} {json : Json} (present : json ≠ .null) :
    bindEntry index shape path json = bindValue index shape path json := by
  cases json with
  | null => exact absurd rfl present
  | _ => simp only [bindEntry]

end Steps

/-- The JSON at a path does not have its shape: there or below there is a violation. -/
inductive Violates (index : ShapeIndex) : Shape → Path → Json → Violation → Prop
  | plain {shape : Shape} {schema : Schema} {path : Path} {json : Json} {v : Violation}
      (plain : shape.plain? = some schema) (refused : bindValue index shape path json = .error v) :
      Violates index shape path json v
  | notObject {shape : Shape} {object : ObjectShape} {path : Path} {json : Json}
      (target : shape.target? index = some object) (other : json.kind ≠ .object) :
      Violates index shape path json ⟨path, .mismatch .object json.kind⟩
  | notArray {shape item : Shape} {path : Path} {json : Json} (items : shape.item? = some item)
      (other : json.kind ≠ .array) :
      Violates index shape path json ⟨path, .mismatch .array json.kind⟩
  | notMap {value : Shape} {path : Path} {json : Json} (other : json.kind ≠ .object) :
      Violates index (.map value) path json ⟨path, .mismatch .object json.kind⟩
  | undeclared {name : String} {path : Path} {json : Json} (missing : index.resolve? name = none) :
      Violates index (.ref name) path json ⟨path, .undeclaredType name⟩
  | undescribed {name : String} {path : Path} {json : Json} :
      Violates index (.undescribed name) path json ⟨path, .undescribedType name⟩
  | missing {shape : Shape} {object : ObjectShape} {field : Field} {path : Path}
      {members : List (String × Json)} (target : shape.target? index = some object)
      (inside : field ∈ object.fields) (absent : Json.member? field.name members = none)
      (required : field.nullable = false) :
      Violates index shape path (.object members) ⟨.field path field.name, .missing⟩
  | field {shape : Shape} {object : ObjectShape} {field : Field} {path : Path}
      {members : List (String × Json)} {json : Json} {v : Violation}
      (target : shape.target? index = some object) (inside : field ∈ object.fields)
      (present : Json.member? field.name members = some json)
      (below : Violates index field.shape (.field path field.name) json v) :
      Violates index shape path (.object members) v
  | item {shape item : Shape} {path : Path} {position : Nat} {items : List Json} {json : Json}
      {v : Violation} (ofItems : shape.item? = some item) (found : items[position]? = some json)
      (below : Violates index item (.item path position) json v) :
      Violates index shape path (.array items) v
  | entry {value : Shape} {path : Path} {key : String} {members : List (String × Json)}
      {json : Json} {v : Violation} (inside : (key, json) ∈ members) (present : json ≠ .null)
      (below : Violates index value (.entry path key) json v) :
      Violates index (.map value) path (.object members) v

theorem Json.size_induction {motive : Json → Prop} (json : Json)
    (step : ∀ json, (∀ inner : Json, sizeOf inner < sizeOf json → motive inner) → motive json) :
    motive json :=
  step json fun inner _ => size_induction inner step
termination_by sizeOf json

section Smaller

variable {json : Json} {items : List Json} {key : String} {members : List (String × Json)}

theorem Json.sizeOf_lt_array (h : json ∈ items) : sizeOf json < sizeOf (Json.array items) := by
  have smaller := List.sizeOf_lt_of_mem h
  rw [Json.array.sizeOf_spec]
  omega

theorem Json.sizeOf_lt_object (h : (key, json) ∈ members) :
    sizeOf json < sizeOf (Json.object members) := by
  have smaller := Json.sizeOf_lt_of_mem h
  rw [Json.object.sizeOf_spec]
  omega

theorem Json.sizeOf_lt_object_of_member? (h : Json.member? key members = some json) :
    sizeOf json < sizeOf (Json.object members) := by
  have smaller := Json.sizeOf_lt_of_member?_eq_some h
  rw [Json.object.sizeOf_spec]
  omega

end Smaller

/-- A binding fails with a violation. -/
theorem violates_of_bindValue {shape : Shape} {path : Path} {json : Json} {v : Violation}
    (h : bindValue index shape path json = .error v) : Violates index shape path json v := by
  -- A shape may refer to itself, so the induction is on the JSON alone.
  induction json using Json.size_induction generalizing shape path with | step json ih
  rcases shape.eq_cases index with ⟨schema, plain⟩ | ⟨item, ofItems⟩ | ⟨object, target⟩ |
    ⟨value, rfl⟩ | ⟨name, rfl, missing⟩ | ⟨name, rfl⟩
  · exact .plain plain h
  · rw [bindValue_of_item? ofItems] at h
    cases json with
    | array items =>
      have failed := of_map_eq_error h
      rw [bindItems_eq_mapM] at failed
      obtain ⟨⟨json, position⟩, inside, failed⟩ := exists_of_mapM_eq_error failed
      have found : items[position]? = some json := List.mem_zipIdx_iff_getElem?.1 inside
      have smaller := Json.sizeOf_lt_array (List.mem_of_getElem? found)
      exact .item ofItems found (ih json smaller failed)
    | _ =>
      cases h
      exact .notArray ofItems nofun
  · rw [bindValue_of_target? target] at h
    cases json with
    | object members =>
      have failed := of_map_eq_error h
      rw [bindFields_eq_mapM] at failed
      obtain ⟨field, inside, failed⟩ := exists_of_mapM_eq_error failed
      have failed := of_map_eq_error failed
      cases given : Json.member? field.name members with
      | none =>
        rw [bindField_of_absent given] at failed
        split at failed
        · cases failed
        · next required =>
          cases failed
          exact .missing target inside given (Bool.eq_false_iff.2 required)
      | some json =>
        rw [bindField_of_present given] at failed
        have smaller := Json.sizeOf_lt_object_of_member? given
        exact .field target inside given (ih json smaller failed)
    | _ =>
      cases h
      exact .notObject target nofun
  · cases json with
    | object members =>
      rw [bindValue] at h
      have failed := of_map_eq_error h
      rw [bindEntries_eq_mapM] at failed
      obtain ⟨⟨key, json⟩, inside, failed⟩ := exists_of_mapM_eq_error failed
      have failed := of_map_eq_error failed
      have smaller := Json.sizeOf_lt_object inside
      by_cases present : json = .null
      · rw [present, bindEntry] at failed
        cases failed
      · rw [bindEntry_of_ne_null present] at failed
        exact .entry inside present (ih json smaller failed)
    | _ =>
      simp only [bindValue] at h
      cases h
      exact .notMap nofun
  · rw [bindValue, missing] at h
    cases h
    exact .undeclared missing
  · rw [bindValue] at h
    cases h
    exact .undescribed

theorem violates_of_bindParameters {members : List (String × Json)}
    {named : List (String × Parameter)} {v : Violation}
    (h : bindParameters index members named = .error v) :
    ∃ name parameter, (name, parameter) ∈ named ∧
      (Json.member? name members = none ∧ parameter.optional = false ∧
          v = ⟨.argument name, .missing⟩ ∨
        ∃ json, Json.member? name members = some json ∧
          Violates index parameter.shape (.argument name) json v) := by
  rw [bindParameters_eq_mapM] at h
  obtain ⟨⟨name, parameter⟩, inside, failed⟩ := exists_of_mapM_eq_error h
  have failed := of_map_eq_error failed
  refine ⟨name, parameter, inside, ?_⟩
  rw [bindParameter] at failed
  cases given : Json.member? name members with
  | none =>
    rw [given] at failed
    dsimp only at failed
    split at failed
    · cases failed
    · next required =>
      cases failed
      exact .inl ⟨rfl, Bool.eq_false_iff.2 required, rfl⟩
  | some json =>
    rw [given] at failed
    exact .inr ⟨json, rfl, violates_of_bindValue failed⟩

theorem bindArguments_eq_error {parameters : List Parameter} {text : String} {e : ToolError}
    (h : bindArguments parameters index text = .error e) :
    readArguments text = .error e ∨
      ∃ members v, readArguments text = .ok members ∧
        bindParameters index members (nameParameters parameters) = .error v ∧
        e = v.toToolError := by
  unfold bindArguments at h
  split at h
  · next unread =>
    cases h
    exact .inl unread
  · next members read =>
    split at h
    · next v failed =>
      cases h
      exact .inr ⟨members, v, read, failed, rfl⟩
    · cases h

theorem bindArguments_eq_ok {parameters : List Parameter} {text : String} {arguments : Arguments}
    (h : bindArguments parameters index text = .ok arguments) :
    ∃ members, readArguments text = .ok members ∧
      bindParameters index members (nameParameters parameters) = .ok arguments.values := by
  unfold bindArguments at h
  split at h
  · cases h
  · next members read =>
    split at h
    · cases h
    · next values bound =>
      cases h
      exact ⟨members, read, bound⟩

theorem bindArguments_of_bindParameters {parameters : List Parameter} {text : String}
    {members : List (String × Json)} {values : List (String × Value)}
    (read : readArguments text = .ok members)
    (bound : bindParameters index members (nameParameters parameters) = .ok values) :
    bindArguments parameters index text = .ok ⟨values⟩ := by
  rw [bindArguments, read]
  dsimp only
  rw [bound]

theorem cause_of_plain {shape : Shape} {schema : Schema} {path : Path} {json : Json} {v : Violation}
    (plain : shape.plain? = some schema) (h : bindValue index shape path json = .error v) :
    v.path = path ∧ v.cause ≠ .missing ∧
      ∀ name, v.cause ≠ .undeclaredType name ∧ v.cause ≠ .undescribedType name := by
  cases shape with
  | integer kind =>
    rw [bindValue, bindInteger.eq_def] at h
    repeat' split at h
    all_goals cases h <;> simp
  | number kind =>
    rw [bindValue, bindNumber.eq_def] at h
    repeat' split at h
    all_goals cases h <;> simp
  | boolean =>
    rw [bindValue, bindBoolean.eq_def] at h
    split at h <;> cases h
    simp
  | string =>
    rw [bindValue, bindString.eq_def] at h
    split at h <;> cases h
    simp
  | enumeration shape =>
    rw [bindValue, bindConstant.eq_def] at h
    repeat' split at h
    all_goals cases h <;> simp
  | _ => cases plain

inductive BindsPlain : Shape → Json → Value → Prop
  | integer {kind : IntegerKind} {n : Json.Number} {m : Int} (exact : n.exactInt? = some m)
      (within : kind.contains m = true) : BindsPlain (.integer kind) (.number n) (.integer m)
  | number {kind : FloatKind} {n : Json.Number} (within : kind.contains n.toDouble = true) :
      BindsPlain (.number kind) (.number n) (.number n.toDouble)
  | boolean (b : Bool) : BindsPlain .boolean (.boolean b) (.boolean b)
  | string (s : String) : BindsPlain .string (.string s) (.string s)
  | constant {shape : EnumShape} {s : String} (listed : shape.contains s = true) :
      BindsPlain (.enumeration shape) (.string s) (.constant s)

theorem bindsPlain_of_bindValue {shape : Shape} {schema : Schema} {path : Path} {json : Json}
    {value : Value} (plain : shape.plain? = some schema)
    (h : bindValue index shape path json = .ok value) : BindsPlain shape json value := by
  cases shape with
  | integer kind =>
    rw [bindValue] at h
    cases json with
    | number n =>
      rw [bindInteger] at h
      cases exact : n.exactInt? with
      | none =>
        rw [exact] at h
        cases h
      | some m =>
        rw [exact] at h
        dsimp only at h
        split at h
        · next within =>
          cases h
          exact .integer exact within
        · cases h
    | _ => cases h
  | number kind =>
    rw [bindValue] at h
    cases json with
    | number n =>
      rw [bindNumber] at h
      split at h
      · next within =>
        cases h
        exact .number within
      · cases h
    | _ => cases h
  | boolean =>
    rw [bindValue] at h
    cases json with
    | boolean b =>
      cases h
      exact .boolean b
    | _ => cases h
  | string =>
    rw [bindValue] at h
    cases json with
    | string s =>
      cases h
      exact .string s
    | _ => cases h
  | enumeration shape =>
    rw [bindValue] at h
    cases json with
    | string s =>
      rw [bindConstant] at h
      split at h
      · next listed =>
        cases h
        exact .constant listed
      · cases h
    | _ => cases h
  | _ => cases plain

theorem BindsPlain.bindValue {shape : Shape} {json : Json} {value : Value}
    (h : BindsPlain shape json value) (path : Path) :
    bindValue index shape path json = .ok value := by
  cases h with
  | integer exact within =>
    rw [ToolChat.bindValue, bindInteger, exact]
    exact if_pos within
  | number within =>
    rw [ToolChat.bindValue]
    exact if_pos within
  | boolean | string =>
    rw [ToolChat.bindValue]
    rfl
  | constant listed =>
    rw [ToolChat.bindValue]
    exact if_pos listed

/-- A value is one of a shape. The fields of a record stand in their declared order, and one that is
null is nullable. -/
inductive Inhabits (index : ShapeIndex) : Shape → Value → Prop
  | integer {kind : IntegerKind} {n : Int} (within : kind.contains n = true) :
      Inhabits index (.integer kind) (.integer n)
  | number {kind : FloatKind} {x : Double} (within : kind.contains x = true) :
      Inhabits index (.number kind) (.number x)
  | boolean (b : Bool) : Inhabits index .boolean (.boolean b)
  | string (s : String) : Inhabits index .string (.string s)
  | constant {shape : EnumShape} {s : String} (listed : shape.contains s = true) :
      Inhabits index (.enumeration shape) (.constant s)
  | list {item : Shape} {values : List Value} (each : ∀ value ∈ values, Inhabits index item value) :
      Inhabits index (.list item) (.list values)
  | set {item : Shape} {values : List Value} (each : ∀ value ∈ values, Inhabits index item value) :
      Inhabits index (.set item) (.set values)
  | map {shape : Shape} {entries : List (String × Value)}
      (each : ∀ entry ∈ entries, entry.2 ≠ .null → Inhabits index shape entry.2) :
      Inhabits index (.map shape) (.map entries)
  | object {shape : Shape} {object : ObjectShape} {values : List (String × Value)}
      (target : shape.target? index = some object)
      (names : values.map (·.1) = object.fields.map (·.name))
      (absent : ∀ pair ∈ object.fields.zip values, pair.2.2 = .null → pair.1.nullable = true)
      (each : ∀ pair ∈ object.fields.zip values, pair.2.2 ≠ .null →
        Inhabits index pair.1.shape pair.2.2) :
      Inhabits index shape (.object values)

theorem Inhabits.ne_null {shape : Shape} {value : Value} (h : Inhabits index shape value) :
    value ≠ .null := by
  rintro rfl
  cases h

theorem inhabits_of_plain {shape : Shape} {schema : Schema} {path : Path} {json : Json}
    {value : Value} (plain : shape.plain? = some schema)
    (h : bindValue index shape path json = .ok value) : Inhabits index shape value := by
  cases bindsPlain_of_bindValue plain h with
  | integer _ within => exact .integer within
  | number within => exact .number within
  | boolean b => exact .boolean b
  | string s => exact .string s
  | constant listed => exact .constant listed

/-- A binding that succeeds gives a value of the shape. -/
theorem inhabits_of_bindValue {shape : Shape} {path : Path} {json : Json} {value : Value}
    (h : bindValue index shape path json = .ok value) : Inhabits index shape value := by
  induction json using Json.size_induction generalizing shape path value with | step json ih
  rcases shape.eq_cases index with ⟨schema, plain⟩ | ⟨item, ofItems⟩ | ⟨object, target⟩ |
    ⟨inner, rfl⟩ | ⟨name, rfl, missing⟩ | ⟨name, rfl⟩
  · exact inhabits_of_plain plain h
  · rw [bindValue_of_item? ofItems] at h
    cases json with
    | array items =>
      obtain ⟨values, bound, rfl⟩ := of_map_eq_ok h
      rw [bindItems_eq_mapM] at bound
      have each : ∀ value ∈ values, Inhabits index item value := by
        intro value inside
        obtain ⟨⟨json, position⟩, member, bound⟩ := exists_of_mem_of_mapM_eq_ok bound inside
        have found : items[position]? = some json := List.mem_zipIdx_iff_getElem?.1 member
        exact ih json (Json.sizeOf_lt_array (List.mem_of_getElem? found)) bound
      cases shape with
      | list inner =>
        cases ofItems
        exact .list each
      | set inner =>
        cases ofItems
        exact .set fun value inside => each value (Value.mem_of_mem_distinct inside)
      | _ => cases ofItems
    | _ => cases h
  · rw [bindValue_of_target? target] at h
    cases json with
    | object members =>
      obtain ⟨values, bound, rfl⟩ := of_map_eq_ok h
      have fields := forall₂_of_bindFields_eq_ok bound
      refine .object target ?_ ?_ ?_
      · exact map_eq_of_forall₂ (fields.imp fun _ _ h => h.1)
      · rintro ⟨field, value⟩ inside null
        have bound := (List.forall₂_zip fields inside).2
        cases given : Json.member? field.name members with
        | none =>
          rw [bindField_of_absent given] at bound
          split at bound
          · next nullable => exact nullable
          · cases bound
        | some json =>
          rw [bindField_of_present given] at bound
          have inhabits := ih json (Json.sizeOf_lt_object_of_member? given) bound
          exact absurd null inhabits.ne_null
      · rintro ⟨field, value⟩ inside present
        have bound := (List.forall₂_zip fields inside).2
        cases given : Json.member? field.name members with
        | none =>
          rw [bindField_of_absent given] at bound
          split at bound
          · exact absurd (Except.ok.inj bound).symm present
          · cases bound
        | some json =>
          rw [bindField_of_present given] at bound
          exact ih json (Json.sizeOf_lt_object_of_member? given) bound
    | _ => cases h
  · cases json with
    | object members =>
      rw [bindValue] at h
      obtain ⟨entries, bound, rfl⟩ := of_map_eq_ok h
      rw [bindEntries_eq_mapM] at bound
      refine .map ?_
      intro entry inside present
      obtain ⟨⟨key, json⟩, member, bound⟩ :=
        exists_of_mem_of_mapM_eq_ok bound (Dictionary.ofList_subset _ inside)
      obtain ⟨value, made, rfl⟩ := of_map_eq_ok bound
      by_cases null : json = .null
      · rw [null, bindEntry] at made
        exact absurd (Except.ok.inj made).symm present
      · rw [bindEntry_of_ne_null null] at made
        exact ih json (Json.sizeOf_lt_object member) made
    | _ =>
      simp only [bindValue] at h
      cases h
  · rw [bindValue, missing] at h
    cases h
  · rw [bindValue] at h
    cases h

theorem inhabits_of_bindParameters {members : List (String × Json)}
    {named : List (String × Parameter)} {values : List (String × Value)}
    (h : bindParameters index members named = .ok values) :
    values.map (·.1) = named.map (·.1) ∧ ∀ pair ∈ named.zip values,
      (pair.2.2 = .null → pair.1.2.optional = true) ∧
        (pair.2.2 ≠ .null → Inhabits index pair.1.2.shape pair.2.2) := by
  rw [bindParameters_eq_mapM] at h
  have paired : List.Forall₂ (fun pair value => value.1 = pair.1 ∧
      bindParameter index members pair.1 pair.2 = .ok value.2) named values := by
    apply (forall₂_of_mapM_eq_ok h).imp
    rintro ⟨name, parameter⟩ value made
    obtain ⟨bound, same, rfl⟩ := of_map_eq_ok made
    exact ⟨rfl, same⟩
  refine ⟨map_eq_of_forall₂ (paired.imp fun _ _ h => h.1), ?_⟩
  rintro ⟨⟨name, parameter⟩, value⟩ inside
  have bound := (List.forall₂_zip paired inside).2
  rw [bindParameter] at bound
  cases given : Json.member? name members with
  | none =>
    rw [given] at bound
    dsimp only at bound
    split at bound
    · next optional =>
      exact ⟨fun _ => optional, fun present => absurd (Except.ok.inj bound).symm present⟩
    · cases bound
  | some json =>
    rw [given] at bound
    have inhabits := inhabits_of_bindValue bound
    exact ⟨fun null => absurd null inhabits.ne_null, fun _ => inhabits⟩

end ToolChat
