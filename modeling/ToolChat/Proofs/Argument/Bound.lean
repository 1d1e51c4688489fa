import ToolChat.Proofs.Argument.Binding

/-!
Bindings that succeed.

JSON is bound to a value of a shape by a derivation that follows the three together. It does not
speak of paths, which only tell where a binding fails: if there is a derivation, then the binder
gives the value at every path.
-/

set_option autoImplicit false

namespace ToolChat

variable {index : ShapeIndex}

/-- The JSON is bound to the value. What is bound stands in pairs: JSON items with their values,
fields with theirs, and members with the values of their entries, null going with null. -/
inductive Binds (index : ShapeIndex) : Shape → Json → Value → Prop
  | plain {shape : Shape} {schema : Schema} {json : Json} {value : Value}
      (plain : shape.plain? = some schema)
      (bound : ∀ path, bindValue index shape path json = .ok value) : Binds index shape json value
  | items {shape item : Shape} {bound : List (Json × Value)} (ofItems : shape.item? = some item)
      (each : ∀ pair ∈ bound, Binds index item pair.1 pair.2) :
      Binds index shape (.array (bound.map (·.1))) (shape.gather (bound.map (·.2)))
  | fields {shape : Shape} {object : ObjectShape} {members : List (String × Json)}
      {bound : List (Field × Value)} (target : shape.target? index = some object)
      (fields : bound.map (·.1) = object.fields)
      (absent : ∀ pair ∈ bound, Json.member? pair.1.name members = none →
        pair.1.nullable = true ∧ pair.2 = .null)
      (present : ∀ pair ∈ bound, ∀ json, Json.member? pair.1.name members = some json →
        Binds index pair.1.shape json pair.2) :
      Binds index shape (.object members) (.object (bound.map fun pair => (pair.1.name, pair.2)))
  | entries {shape : Shape} {bound : List ((String × Json) × Value)}
      (absent : ∀ pair ∈ bound, pair.1.2 = .null → pair.2 = .null)
      (present : ∀ pair ∈ bound, pair.1.2 ≠ .null → Binds index shape pair.1.2 pair.2) :
      Binds index (.map shape) (.object (bound.map (·.1)))
        (.map (Dictionary.ofList (bound.map fun pair => (pair.1.1, pair.2))))

/-- What is taken from the members of an object under a name is bound to the value, or absent where
it may be. -/
structure Supplies (index : ShapeIndex) (members : List (String × Json)) (name : String)
    (shape : Shape) (optional : Bool) (value : Value) : Prop where
  absent : Json.member? name members = none → optional = true ∧ value = .null
  present : ∀ json, Json.member? name members = some json → Binds index shape json value

section Pairs

variable {α β γ : Type} {f : α → Except Violation β} {g : α → β → γ}

theorem mapM_map_eq_ok_iff {list : List α} {results : List γ} :
    (list.mapM fun a => (f a).map (g a)) = .ok results ↔
      ∃ bound : List (α × β), bound.map (·.1) = list ∧
        bound.map (fun pair => g pair.1 pair.2) = results ∧
          ∀ pair ∈ bound, f pair.1 = .ok pair.2 := by
  constructor
  · intro h
    have paired := forall₂_of_mapM_eq_ok h
    clear h
    induction paired with
    | nil => exact ⟨[], rfl, rfl, List.forall_mem_nil _⟩
    | cons first _ ih =>
      obtain ⟨b, made, rfl⟩ := of_map_eq_ok first
      obtain ⟨bound, rfl, rfl, each⟩ := ih
      exact ⟨(_, b) :: bound, rfl, rfl, List.forall_mem_cons.2 ⟨made, each⟩⟩
  · rintro ⟨bound, rfl, rfl, each⟩
    induction bound with
    | nil => rfl
    | cons pair bound ih =>
      obtain ⟨made, each⟩ := List.forall_mem_cons.1 each
      rw [List.map_cons, List.mapM_cons, made, ih each]
      rfl

end Pairs

section Steps

variable {path : Path} {members : List (String × Json)} {field : Field} {value : Value}

theorem exists_of_bindItems_eq_ok {item : Shape} {position : Nat} {items : List Json}
    {values : List Value} (h : bindItems index item path position items = .ok values) :
    ∃ bound : List (Json × Value), bound.map (·.1) = items ∧ bound.map (·.2) = values ∧
      ∀ pair ∈ bound, ∃ path, bindValue index item path pair.1 = .ok pair.2 := by
  induction items generalizing position values with
  | nil =>
    rw [bindItems] at h
    cases h
    exact ⟨[], rfl, rfl, List.forall_mem_nil _⟩
  | cons json items ih =>
    rw [bindItems] at h
    split at h
    · cases h
    · next value made =>
      obtain ⟨values, rest, rfl⟩ := of_map_eq_ok h
      obtain ⟨bound, rfl, rfl, each⟩ := ih rest
      exact ⟨(json, value) :: bound, rfl, rfl, List.forall_mem_cons.2 ⟨⟨_, made⟩, each⟩⟩

theorem bindItems_of_pairs {item : Shape} {bound : List (Json × Value)} (position : Nat)
    (each : ∀ pair ∈ bound, ∀ path, bindValue index item path pair.1 = .ok pair.2) :
    bindItems index item path position (bound.map (·.1)) = .ok (bound.map (·.2)) := by
  induction bound generalizing position with
  | nil =>
    rw [List.map_nil, bindItems]
    rfl
  | cons pair bound ih =>
    obtain ⟨made, each⟩ := List.forall_mem_cons.1 each
    rw [List.map_cons, bindItems, made]
    dsimp only
    rw [ih (position + 1) each]
    rfl

theorem supplies_of_bindField (h : bindField index field path members = .ok value)
    (binds : ∀ json, Json.member? field.name members = some json → ∀ path,
      bindValue index field.shape path json = .ok value → Binds index field.shape json value) :
    Supplies index members field.name field.shape field.nullable value where
  absent missing := by
    rw [bindField_of_absent missing] at h
    split at h
    · next nullable => exact ⟨nullable, (Except.ok.inj h).symm⟩
    · cases h
  present json given := by
    rw [bindField_of_present given] at h
    exact binds json given _ h

theorem bindField_of_supplies (absent : Json.member? field.name members = none →
      field.nullable = true ∧ value = .null)
    (present : ∀ json, Json.member? field.name members = some json →
      ∀ path, bindValue index field.shape path json = .ok value) :
    bindField index field path members = .ok value := by
  cases given : Json.member? field.name members with
  | none =>
    obtain ⟨nullable, rfl⟩ := absent given
    rw [bindField_of_absent given, if_pos nullable]
  | some json =>
    rw [bindField_of_present given]
    exact present json given _

end Steps

/-- A binding that succeeds has a derivation. -/
theorem binds_of_bindValue {shape : Shape} {path : Path} {json : Json} {value : Value}
    (h : bindValue index shape path json = .ok value) : Binds index shape json value := by
  -- On the JSON alone, as a shape may refer to itself.
  induction json using Json.size_induction generalizing shape path value with | step json ih
  rcases shape.eq_cases index with ⟨schema, plain⟩ | ⟨item, ofItems⟩ | ⟨object, target⟩ |
    ⟨inner, rfl⟩ | ⟨name, rfl, missing⟩ | ⟨name, rfl⟩
  · exact .plain plain (bindsPlain_of_bindValue plain h).bindValue
  · rw [bindValue_of_item? ofItems] at h
    cases json with
    | array items =>
      obtain ⟨values, made, rfl⟩ := of_map_eq_ok h
      obtain ⟨bound, rfl, rfl, each⟩ := exists_of_bindItems_eq_ok made
      refine .items ofItems fun pair inside => ?_
      obtain ⟨path, made⟩ := each pair inside
      exact ih pair.1 (Json.sizeOf_lt_array (List.mem_map_of_mem inside)) made
    | _ => cases h
  · rw [bindValue_of_target? target] at h
    cases json with
    | object members =>
      obtain ⟨values, made, rfl⟩ := of_map_eq_ok h
      rw [bindFields_eq_mapM] at made
      obtain ⟨bound, fields, rfl, each⟩ := mapM_map_eq_ok_iff.1 made
      have supplies : ∀ pair ∈ bound,
          Supplies index members pair.1.name pair.1.shape pair.1.nullable pair.2 :=
        fun pair inside => supplies_of_bindField (each pair inside) fun json given _ made =>
          ih json (Json.sizeOf_lt_object_of_member? given) made
      exact .fields target fields (fun pair inside => (supplies pair inside).absent)
        fun pair inside => (supplies pair inside).present
    | _ => cases h
  · cases json with
    | object members =>
      rw [bindValue] at h
      obtain ⟨entries, made, rfl⟩ := of_map_eq_ok h
      rw [bindEntries_eq_mapM] at made
      obtain ⟨bound, rfl, rfl, each⟩ := mapM_map_eq_ok_iff.1 made
      refine .entries (fun pair inside null => ?_) fun pair inside present => ?_
      · have made := each pair inside
        rw [null, bindEntry] at made
        exact (Except.ok.inj made).symm
      · have made := each pair inside
        rw [bindEntry_of_ne_null present] at made
        exact ih pair.1.2 (Json.sizeOf_lt_object (List.mem_map_of_mem inside)) made
    | _ =>
      simp only [bindValue] at h
      cases h
  · rw [bindValue, missing] at h
    cases h
  · rw [bindValue] at h
    cases h

/-- What has a derivation is bound at every path. -/
theorem Binds.bindValue {shape : Shape} {json : Json} {value : Value}
    (h : Binds index shape json value) : ∀ path, bindValue index shape path json = .ok value := by
  induction h with
  | plain _ bound => exact bound
  | items ofItems each ih =>
    intro path
    rw [bindValue_of_item? ofItems]
    dsimp only
    rw [bindItems_of_pairs 0 ih]
    rfl
  | @fields shape object members bound target fields absent present ih =>
    intro path
    have made : bindFields index object.fields path members =
        .ok (bound.map fun pair => (pair.1.name, pair.2)) := by
      rw [bindFields_eq_mapM]
      exact mapM_map_eq_ok_iff.2 ⟨bound, fields, rfl, fun pair inside =>
        bindField_of_supplies (absent pair inside) (ih pair inside)⟩
    rw [bindValue_of_target? target]
    dsimp only
    rw [made]
    rfl
  | @entries shape bound absent present ih =>
    intro path
    have made : bindEntries index shape path (bound.map (·.1)) =
        .ok (bound.map fun pair => (pair.1.1, pair.2)) := by
      rw [bindEntries_eq_mapM]
      refine mapM_map_eq_ok_iff.2 ⟨bound, rfl, rfl, fun pair inside => ?_⟩
      by_cases null : pair.1.2 = .null
      · rw [null, bindEntry, absent pair inside null]
      · rw [bindEntry_of_ne_null null]
        exact ih pair inside null _
    rw [ToolChat.bindValue, made]
    rfl

theorem Binds.inhabits {shape : Shape} {json : Json} {value : Value}
    (h : Binds index shape json value) : Inhabits index shape value :=
  inhabits_of_bindValue (h.bindValue (.argument ""))

theorem bindParameter_eq_ok_iff {members : List (String × Json)} {name : String}
    {parameter : Parameter} {value : Value} :
    bindParameter index members name parameter = .ok value ↔
      Supplies index members name parameter.shape parameter.optional value := by
  rw [bindParameter]
  cases given : Json.member? name members with
  | none =>
    dsimp only
    constructor
    · intro h
      split at h
      · next optional =>
        exact ⟨fun _ => ⟨optional, (Except.ok.inj h).symm⟩, fun json some => by
          cases given.symm.trans some⟩
      · cases h
    · intro supplies
      obtain ⟨optional, rfl⟩ := supplies.absent given
      exact if_pos optional
  | some json =>
    dsimp only
    constructor
    · intro h
      refine ⟨fun none => (by cases given.symm.trans none), fun found some => ?_⟩
      cases given.symm.trans some
      exact binds_of_bindValue h
    · exact fun supplies => (supplies.present json given).bindValue _

theorem bindParameters_eq_ok_iff {members : List (String × Json)}
    {named : List (String × Parameter)} {values : List (String × Value)} :
    bindParameters index members named = .ok values ↔
      ∃ bound : List ((String × Parameter) × Value), bound.map (·.1) = named ∧
        bound.map (fun pair => (pair.1.1, pair.2)) = values ∧ ∀ pair ∈ bound,
          Supplies index members pair.1.1 pair.1.2.shape pair.1.2.optional pair.2 := by
  rw [bindParameters_eq_mapM, mapM_map_eq_ok_iff]
  simp only [bindParameter_eq_ok_iff]

end ToolChat
