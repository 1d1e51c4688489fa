import Mathlib.Data.List.Perm.Subperm
import ToolChat.Proofs.Argument.Conformance
import ToolChat.Proofs.Argument.RoundTrip
import ToolChat.Proofs.Json.Keys

/-!
What does not matter to a binding.

The order of keys does not matter anywhere, nor does a member that is not declared where it stands,
nor whether what is declared is null or left out. In a map every member is declared, so that there
only the order of keys does not matter, and null is not the same as nothing.
-/

set_option autoImplicit false

namespace ToolChat

variable {index : ShapeIndex}

/-- Members give what is alike under a name, or both give nothing but null. -/
structure GivesAlike (alike : Json → Json → Prop) (first second : List (String × Json))
    (name : String) : Prop where
  absent : Json.member? name first = none ↔ Json.member? name second = none
  present : ∀ a b, Json.member? name first = some a → Json.member? name second = some b → alike a b

/-- At a shape the one JSON says the same as the other. -/
inductive Interchangeable (index : ShapeIndex) : Shape → Json → Json → Prop
  | reordered {shape : Shape} {a b : Json} (same : a.Reordered b) : Interchangeable index shape a b
  | items {shape item : Shape} {pairs : List (Json × Json)} (ofItems : shape.item? = some item)
      (each : ∀ pair ∈ pairs, Interchangeable index item pair.1 pair.2) :
      Interchangeable index shape (.array (pairs.map (·.1))) (.array (pairs.map (·.2)))
  /-- Only the declared fields of a record type are looked at. -/
  | fields {shape : Shape} {object : ObjectShape} {first second : List (String × Json)}
      (target : shape.target? index = some object)
      (absent : ∀ field ∈ object.fields,
        Json.member? field.name first = none ↔ Json.member? field.name second = none)
      (present : ∀ field ∈ object.fields, ∀ a b, Json.member? field.name first = some a →
        Json.member? field.name second = some b → Interchangeable index field.shape a b) :
      Interchangeable index shape (.object first) (.object second)
  | entries {shape : Shape} {first second : List (String × Json)}
      (keys : (first.map (·.1)).Perm (second.map (·.1)))
      (each : ∀ key a b, first.lookup key = some a → second.lookup key = some b →
        Interchangeable index shape a b) :
      Interchangeable index (.map shape) (.object first) (.object second)

/-- The members of two argument objects say the same under each parameter's name. -/
def InterchangeableMembers (parameters : List Parameter) (index : ShapeIndex)
    (first second : List (String × Json)) : Prop :=
  ∀ pair ∈ nameParameters parameters,
    GivesAlike (Interchangeable index pair.2.shape) first second pair.1

/-- The first JSON can be replaced by the second: what it is bound to, the second is bound to. -/
def Replaceable (index : ShapeIndex) (shape : Shape) (a b : Json) : Prop :=
  ∀ value, Binds index shape a value → Binds index shape b value

theorem Json.member?_eq_none_iff {members : List (String × Json)} {name : String} {json : Json}
    (found : members.lookup name = some json) :
    Json.member? name members = none ↔ json = .null := by
  rw [Json.member?, found]
  cases json <;> simp

namespace GivesAlike

variable {alike other : Json → Json → Prop} {first second : List (String × Json)} {name : String}

theorem symm (h : GivesAlike alike first second name) (turns : ∀ a b, alike a b → other b a) :
    GivesAlike other second first name :=
  ⟨h.absent.symm, fun b a given found => turns a b (h.present a b found given)⟩

theorem of_lookup (same : first.lookup name = second.lookup name) (refl : ∀ a, alike a a) :
    GivesAlike alike first second name := by
  have same : Json.member? name first = Json.member? name second := by
    rw [Json.member?, Json.member?, same]
  refine ⟨by rw [same], fun a b given found => ?_⟩
  cases given.symm.trans (same.trans found)
  exact refl a

theorem of_keys (keys : (first.map (·.1)).Perm (second.map (·.1)))
    (each : ∀ a b, first.lookup name = some a → second.lookup name = some b → alike a b)
    (null : ∀ a b, first.lookup name = some a → second.lookup name = some b →
      (a = .null ↔ b = .null)) : GivesAlike alike first second name := by
  refine ⟨?_, fun a b given found =>
    each a b (Json.lookup_of_member? given) (Json.lookup_of_member? found)⟩
  cases here : first.lookup name with
  | none =>
    have there : second.lookup name = none :=
      Dictionary.lookup_eq_none_iff.2 fun inside =>
        Dictionary.lookup_eq_none_iff.1 here (keys.mem_iff.2 inside)
    rw [Json.member?, Json.member?, here, there]
  | some a =>
    cases there : second.lookup name with
    | none =>
      exact absurd (keys.mem_iff.1 (List.mem_map_of_mem (Dictionary.mem_of_lookup_eq_some here)))
        (Dictionary.lookup_eq_none_iff.1 there)
    | some b =>
      rw [Json.member?_eq_none_iff here, Json.member?_eq_none_iff there]
      exact null a b here there

end GivesAlike

section Inversion

variable {shape : Shape} {items : List Json} {members : List (String × Json)} {value : Value}

theorem Binds.items_of_array (h : Binds index shape (.array items) value) :
    ∃ (item : Shape) (bound : List (Json × Value)), shape.item? = some item ∧
      bound.map (·.1) = items ∧ shape.gather (bound.map (·.2)) = value ∧
        ∀ pair ∈ bound, Binds index item pair.1 pair.2 := by
  cases h with
  | plain plain bound =>
    cases bindsPlain_of_bindValue plain (bound (.argument ""))
  | items ofItems each => exact ⟨_, _, ofItems, rfl, rfl, each⟩

theorem Binds.fields_or_entries_of_object (h : Binds index shape (.object members) value) :
    (∃ (object : ObjectShape) (bound : List (Field × Value)),
      shape.target? index = some object ∧ bound.map (·.1) = object.fields ∧
        .object (bound.map fun pair => (pair.1.name, pair.2)) = value ∧ ∀ pair ∈ bound,
          Supplies index members pair.1.name pair.1.shape pair.1.nullable pair.2) ∨
      ∃ (inner : Shape) (bound : List ((String × Json) × Value)), shape = .map inner ∧
        bound.map (·.1) = members ∧
        .map (Dictionary.ofList (bound.map fun pair => (pair.1.1, pair.2))) = value ∧
          ∀ pair ∈ bound, (pair.1.2 = .null → pair.2 = .null) ∧
            (pair.1.2 ≠ .null → Binds index inner pair.1.2 pair.2) := by
  cases h with
  | plain plain bound =>
    cases bindsPlain_of_bindValue plain (bound (.argument ""))
  | fields target fields absent present =>
    exact .inl ⟨_, _, target, fields, rfl, fun pair inside =>
      ⟨absent pair inside, present pair inside⟩⟩
  | entries absent present =>
    exact .inr ⟨_, _, rfl, rfl, rfl, fun pair inside =>
      ⟨absent pair inside, present pair inside⟩⟩

end Inversion

section Replacing

variable {shape : Shape} {first second : List (String × Json)} {value : Value}

theorem exists_rebound {item : Shape} {pairs : List (Json × Json)} {bound : List (Json × Value)}
    (same : bound.map (·.1) = pairs.map (·.1))
    (each : ∀ pair ∈ pairs, Replaceable index item pair.1 pair.2)
    (binds : ∀ pair ∈ bound, Binds index item pair.1 pair.2) :
    ∃ again : List (Json × Value), again.map (·.1) = pairs.map (·.2) ∧
      again.map (·.2) = bound.map (·.2) ∧ ∀ pair ∈ again, Binds index item pair.1 pair.2 := by
  induction pairs generalizing bound with
  | nil =>
    rw [List.map_nil, List.map_eq_nil_iff] at same
    subst same
    exact ⟨[], rfl, rfl, List.forall_mem_nil _⟩
  | cons pair pairs ih =>
    obtain ⟨⟨json, value⟩, bound, rfl, same_json, same⟩ := List.map_eq_cons_iff.1 same
    obtain ⟨replaces, each⟩ := List.forall_mem_cons.1 each
    obtain ⟨here, binds⟩ := List.forall_mem_cons.1 binds
    obtain ⟨again, jsons, values, later⟩ := ih same each binds
    dsimp only at same_json here
    subst same_json
    exact ⟨(pair.2, value) :: again, congrArg (pair.2 :: ·) jsons, congrArg (value :: ·) values,
      List.forall_mem_cons.2 ⟨replaces value here, later⟩⟩

theorem replaceable_array {pairs : List (Json × Json)}
    (each : ∀ item, shape.item? = some item →
      ∀ pair ∈ pairs, Replaceable index item pair.1 pair.2) :
    Replaceable index shape (.array (pairs.map (·.1))) (.array (pairs.map (·.2))) := by
  intro value whole
  obtain ⟨item, bound, ofItems, same, rfl, binds⟩ := whole.items_of_array
  obtain ⟨again, jsons, values, binds⟩ := exists_rebound same (each item ofItems) binds
  rw [← jsons, ← values]
  exact .items ofItems binds

theorem Supplies.of_givesAlike {name : String} {optional : Bool}
    (h : Supplies index first name shape optional value)
    (alike : GivesAlike (Replaceable index shape) first second name) :
    Supplies index second name shape optional value where
  absent missing := h.absent (alike.absent.2 missing)
  present b found := by
    cases given : Json.member? name first with
    | none => cases found.symm.trans (alike.absent.1 given)
    | some a => exact alike.present a b given found value (h.present a given)

theorem replaceable_record {object : ObjectShape} (target : shape.target? index = some object)
    (each : ∀ field ∈ object.fields,
      GivesAlike (Replaceable index field.shape) first second field.name) :
    Replaceable index shape (.object first) (.object second) := by
  intro value binds
  rcases binds.fields_or_entries_of_object with
    ⟨found, bound, declared, fields, rfl, supplies⟩ | ⟨inner, bound, rfl, -⟩
  · cases target.symm.trans declared
    have again : ∀ pair ∈ bound,
        Supplies index second pair.1.name pair.1.shape pair.1.nullable pair.2 :=
      fun pair inside => (supplies pair inside).of_givesAlike
        (each pair.1 (fields ▸ List.mem_map_of_mem inside))
    exact .fields target fields (fun pair inside => (again pair inside).absent)
      fun pair inside => (again pair inside).present
  · cases target

theorem replaceable_map {inner : Shape} (distinct : (first.map (·.1)).Nodup)
    (also : (second.map (·.1)).Nodup) (keys : (first.map (·.1)).Perm (second.map (·.1)))
    (each : ∀ key a b, first.lookup key = some a → second.lookup key = some b →
      Replaceable index inner a b ∧ (a = .null ↔ b = .null)) :
    Replaceable index (.map inner) (.object first) (.object second) := by
  intro value whole
  rcases whole.fields_or_entries_of_object with
    ⟨object, bound, target, -⟩ | ⟨inner, bound, ⟨⟩, rfl, rfl, binds⟩
  · cases target
  have partner : ∀ member ∈ second, ∃ value,
      (member.1, value) ∈ bound.map (fun pair => (pair.1.1, pair.2)) ∧
        (member.2 = .null → value = .null) ∧
        (member.2 ≠ .null → Binds index inner member.2 value) := by
    rintro ⟨key, b⟩ inside
    have old : key ∈ (bound.map (·.1)).map (·.1) := keys.mem_iff.2 (List.mem_map_of_mem inside)
    obtain ⟨⟨k, a⟩, stored, same⟩ := List.mem_map.1 old
    obtain ⟨⟨_, value⟩, taken, rfl⟩ := List.mem_map.1 stored
    dsimp only at same
    subst same
    obtain ⟨replaces, null⟩ := each k a b (Dictionary.lookup_eq_some_of_mem distinct stored)
      (Dictionary.lookup_eq_some_of_mem also inside)
    obtain ⟨absent, present⟩ := binds _ taken
    exact ⟨value, List.mem_map_of_mem taken, fun same => absent (null.2 same),
      fun given => replaces value (present fun same => given (null.1 same))⟩
  obtain ⟨again, rfl, partners⟩ := exists_pairs partner
  -- Both lists of entries have the same distinct keys, and the new one has no other entries.
  have subset : (again.map fun pair => (pair.1.1, pair.2)) ⊆
      bound.map fun pair => (pair.1.1, pair.2) := by
    intro entry inside
    obtain ⟨pair, member, rfl⟩ := List.mem_map.1 inside
    exact (partners pair member).1
  have unique : ((again.map fun pair => (pair.1.1, pair.2)).map (·.1)).Nodup := by
    rw [List.map_map] at also ⊢
    exact also
  have length : bound.length = again.length := by
    have same := keys.length_eq
    simpa only [List.length_map] using same
  have perm := (List.subperm_of_subset (List.Nodup.of_map _ unique) subset).perm_of_length_le (by
    rw [List.length_map, List.length_map, length])
  rw [← Dictionary.ofList_eq_of_perm unique perm]
  exact .entries (fun pair inside => (partners pair inside).2.1)
    fun pair inside => (partners pair inside).2.2

end Replacing

theorem Json.Reordered.eq_null_iff {a b : Json} (h : Reordered a b) : a = .null ↔ b = .null := by
  cases h with
  | same => rfl
  | array | object => exact iff_of_false nofun nofun

theorem Interchangeable.eq_null_iff {shape : Shape} {a b : Json}
    (h : Interchangeable index shape a b) : a = .null ↔ b = .null := by
  cases h with
  | reordered same => exact same.eq_null_iff
  | items | fields | entries => exact iff_of_false nofun nofun

namespace Json.KeysDistinct

variable {members : List (String × Json)} {name : String} {json : Json}

theorem of_lookup (h : KeysDistinct (.object members)) (found : members.lookup name = some json) :
    json.KeysDistinct :=
  h.members.2 _ (Dictionary.mem_of_lookup_eq_some found)

theorem of_member? (h : KeysDistinct (.object members))
    (found : Json.member? name members = some json) : json.KeysDistinct :=
  h.of_lookup (Json.lookup_of_member? found)

end Json.KeysDistinct

theorem Json.Reordered.replaceable {a b : Json} (h : Reordered a b) (distinct : a.KeysDistinct)
    (also : b.KeysDistinct) (shape : Shape) : Replaceable index shape a b := by
  induction h generalizing shape with
  | same => exact fun _ binds => binds
  | array each ih =>
    exact replaceable_array fun item _ pair inside =>
      ih pair inside (distinct.items _ (List.mem_map_of_mem inside))
        (also.items _ (List.mem_map_of_mem inside)) item
  | @object first second keys each ih =>
    have entries : ∀ (inner : Shape) (key : String) (a b : Json), first.lookup key = some a →
        second.lookup key = some b → Replaceable index inner a b ∧ (a = .null ↔ b = .null) :=
      fun inner key a b given found =>
        ⟨ih key a b given found (distinct.of_lookup given) (also.of_lookup found) inner,
          (each key a b given found).eq_null_iff⟩
    intro value binds
    rcases binds.fields_or_entries_of_object with ⟨object, _, target, -⟩ | ⟨inner, _, rfl, -⟩
    · refine replaceable_record target (fun field _ => ?_) value binds
      exact .of_keys keys (fun a b given found => (entries field.shape _ a b given found).1)
        fun a b given found => (entries field.shape _ a b given found).2
    · exact replaceable_map distinct.members.1 also.members.1 keys (entries inner) value binds

/-- What says the same is bound to the same. -/
theorem Interchangeable.replaceable {shape : Shape} {a b : Json}
    (h : Interchangeable index shape a b) (distinct : a.KeysDistinct) (also : b.KeysDistinct) :
    Replaceable index shape a b := by
  induction h with
  | reordered same => exact same.replaceable distinct also _
  | items ofItems each ih =>
    refine replaceable_array fun item found pair inside => ?_
    cases ofItems.symm.trans found
    exact ih pair inside (distinct.items _ (List.mem_map_of_mem inside))
      (also.items _ (List.mem_map_of_mem inside))
  | fields target absent present ih =>
    exact replaceable_record target fun field inside =>
      ⟨absent field inside, fun a b given found =>
        ih field inside a b given found (distinct.of_member? given) (also.of_member? found)⟩
  | entries keys each ih =>
    exact replaceable_map distinct.members.1 also.members.1 keys fun key a b given found =>
      ⟨ih key a b given found (distinct.of_lookup given) (also.of_lookup found),
        (each key a b given found).eq_null_iff⟩

theorem Interchangeable.symm {shape : Shape} {a b : Json} (h : Interchangeable index shape a b) :
    Interchangeable index shape b a := by
  induction h with
  | reordered same => exact .reordered same.symm
  | @items shape item pairs ofItems _ ih =>
    have swapped : Interchangeable index shape (.array ((pairs.map Prod.swap).map (·.1)))
        (.array ((pairs.map Prod.swap).map (·.2))) := by
      refine .items ofItems fun pair inside => ?_
      obtain ⟨other, member, rfl⟩ := List.mem_map.1 inside
      exact ih other member
    rwa [List.map_map, List.map_map] at swapped
  | fields target absent _ ih =>
    exact .fields target (fun field inside => (absent field inside).symm)
      fun field inside a b found given => ih field inside b a given found
  | entries keys _ ih =>
    exact .entries keys.symm fun key a b found given => ih key b a given found

theorem Interchangeable.refl (shape : Shape) (json : Json) :
    Interchangeable index shape json json :=
  .reordered (.same json)

theorem Interchangeable.of_givesAlike {shape : Shape} {object : ObjectShape}
    {first second : List (String × Json)} (target : shape.target? index = some object)
    (each : ∀ field ∈ object.fields,
      GivesAlike (Interchangeable index field.shape) first second field.name) :
    Interchangeable index shape (.object first) (.object second) :=
  .fields target (fun field inside => (each field inside).absent)
    fun field inside => (each field inside).present

namespace InterchangeableMembers

variable {parameters : List Parameter} {first second : List (String × Json)}

theorem symm (h : InterchangeableMembers parameters index first second) :
    InterchangeableMembers parameters index second first :=
  fun pair inside => (h pair inside).symm fun _ _ alike => alike.symm

theorem bindParameters (alike : InterchangeableMembers parameters index first second)
    (distinct : (Json.object first).KeysDistinct) (also : (Json.object second).KeysDistinct)
    {values : List (String × Value)}
    (h : bindParameters index first (nameParameters parameters) = .ok values) :
    ToolChat.bindParameters index second (nameParameters parameters) = .ok values := by
  obtain ⟨bound, named, rfl, supplies⟩ := bindParameters_eq_ok_iff.1 h
  refine bindParameters_eq_ok_iff.2 ⟨bound, named, rfl, fun pair inside => ?_⟩
  have given := alike pair.1 (named ▸ List.mem_map_of_mem inside)
  exact (supplies pair inside).of_givesAlike ⟨given.absent, fun a b here there =>
    (given.present a b here there).replaceable (distinct.of_member? here) (also.of_member? there)⟩

end InterchangeableMembers

theorem keysDistinct_of_readArguments {text : String} {members : List (String × Json)}
    (h : readArguments text = .ok members) : (Json.object members).KeysDistinct :=
  holds_of_readArguments (.object List.nodup_nil (List.forall_mem_nil _))
    (fun _ _ read => Json.keysDistinct_of_read read) h

/-- Argument objects that say the same under each parameter's name are bound to the same arguments,
or both are not bound. -/
theorem bindArguments_ignores_undeclared (parameters : List Parameter) (index : ShapeIndex)
    {first second : String} {members others : List (String × Json)}
    (readFirst : readArguments first = .ok members) (readSecond : readArguments second = .ok others)
    (alike : InterchangeableMembers parameters index members others) (arguments : Arguments) :
    bindArguments parameters index first = .ok arguments ↔
      bindArguments parameters index second = .ok arguments := by
  have distinct := keysDistinct_of_readArguments readFirst
  have also := keysDistinct_of_readArguments readSecond
  constructor
  · intro bound
    obtain ⟨found, read, made⟩ := bindArguments_eq_ok bound
    cases readFirst.symm.trans read
    exact bindArguments_of_bindParameters readSecond (alike.bindParameters distinct also made)
  · intro bound
    obtain ⟨found, read, made⟩ := bindArguments_eq_ok bound
    cases readSecond.symm.trans read
    exact bindArguments_of_bindParameters readFirst (alike.symm.bindParameters also distinct made)

def recipeStep : ObjectShape :=
  ⟨"Step", [⟨"action", .string, none, false⟩, ⟨"minutes", .integer .u8, none, true⟩]⟩

def recipe : ObjectShape :=
  ⟨"Recipe", [⟨"steps", .set (.ref "Step"), none, false⟩, ⟨"spices", .map .boolean, none, false⟩,
    ⟨"note", .string, none, true⟩]⟩

def cooking : List Parameter :=
  [{ name := some "recipe", shape := .ref "Recipe" },
    { name := some "guests", shape := .integer .u8, optional := true }]

def recipeSteps : List (Json × Json) :=
  [(.object [("action", .string "stir")], .object [("minutes", .null), ("action", .string "stir")]),
    (.object [("action", .string "stir"), ("minutes", .null)],
      .object [("done", .boolean true), ("action", .string "stir")])]

def recipeMembers : List (String × Json) :=
  [("recipe", .object [("steps", .array (recipeSteps.map (·.1))),
      ("spices", .object [("salt", .boolean true), ("mace", .null)])]),
    ("guests", .null)]

def recipeOtherwise : List (String × Json) :=
  [("author", .string "me"),
    ("recipe", .object [("note", .null),
      ("spices", .object [("mace", .null), ("salt", .boolean true)]),
      ("steps", .array (recipeSteps.map (·.2)))])]

def recipeArguments : Arguments :=
  ⟨[("recipe", .object [
      ("steps", .set [.object [("action", .string "stir"), ("minutes", .null)]]),
      ("spices", .map [("mace", .null), ("salt", .boolean true)]), ("note", .null)]),
    ("guests", .null)]⟩

theorem recipe_read : readArguments (Json.object recipeMembers).text = .ok recipeMembers := by
  have steps : Json.Spelled 3 (.array (recipeSteps.map (·.1))) :=
    .array (List.forall_mem_cons.2 ⟨spelled_member (.string _),
      List.forall_mem_singleton.2 (.object (by decide) (by simpa using ⟨.string _, .null⟩))⟩)
  have spices : Json.Spelled 3 (.object [("salt", .boolean true), ("mace", .null)]) :=
    .object (by decide) (by simpa using ⟨.boolean true, .null⟩)
  have whole : Json.Spelled 5 (.object recipeMembers) :=
    .object (by decide) (List.forall_mem_cons.2 ⟨.object (by decide)
      (List.forall_mem_cons.2 ⟨steps, List.forall_mem_singleton.2 spices⟩),
        List.forall_mem_singleton.2 .null⟩)
  exact readArguments_text whole (by decide)

theorem recipeOtherwise_read :
    readArguments (Json.object recipeOtherwise).text = .ok recipeOtherwise := by
  have steps : Json.Spelled 3 (.array (recipeSteps.map (·.2))) :=
    .array (List.forall_mem_cons.2 ⟨.object (by decide) (by simpa using ⟨.null, .string _⟩),
      List.forall_mem_singleton.2
        (.object (by decide) (by simpa using ⟨.boolean true, .string _⟩))⟩)
  have spices : Json.Spelled 3 (.object [("mace", .null), ("salt", .boolean true)]) :=
    .object (by decide) (by simpa using ⟨.null, .boolean true⟩)
  have whole : Json.Spelled 5 (.object recipeOtherwise) :=
    .object (by decide) (List.forall_mem_cons.2 ⟨.string _, List.forall_mem_singleton.2
      (.object (by decide) (List.forall_mem_cons.2 ⟨.null,
        List.forall_mem_cons.2 ⟨spices, List.forall_mem_singleton.2 steps⟩⟩))⟩)
  exact readArguments_text whole (by decide)

theorem recipe_steps_interchangeable : ∀ pair ∈ recipeSteps,
    Interchangeable ⟨[recipe, recipeStep]⟩ (.ref "Step") pair.1 pair.2 := by
  intro pair inside
  rcases List.mem_pair.1 inside with rfl | rfl <;>
  · refine .of_givesAlike rfl fun field inside => ?_
    rcases List.mem_pair.1 inside with rfl | rfl
    · exact .of_lookup rfl (Interchangeable.refl .string)
    · exact ⟨by decide, nofun⟩

theorem recipe_interchangeable :
    InterchangeableMembers cooking ⟨[recipe, recipeStep]⟩ recipeMembers recipeOtherwise := by
  refine List.forall_mem_cons.2 ⟨⟨by decide, ?_⟩, List.forall_mem_singleton.2 ⟨by decide, nofun⟩⟩
  rintro a b ⟨⟩ ⟨⟩
  refine .of_givesAlike rfl (List.forall_mem_cons.2 ⟨⟨by decide, ?_⟩,
    List.forall_mem_cons.2 ⟨⟨by decide, ?_⟩, List.forall_mem_singleton.2 ⟨by decide, nofun⟩⟩⟩)
  · rintro a b ⟨⟩ ⟨⟩
    exact .items rfl recipe_steps_interchangeable
  · rintro a b ⟨⟩ ⟨⟩
    exact .reordered (.of_perm (by decide) (.swap _ _ _))

theorem recipe_otherwise_binds :
    bindArguments cooking ⟨[recipe, recipeStep]⟩ (Json.object recipeMembers).text =
        .ok recipeArguments ∧
      bindArguments cooking ⟨[recipe, recipeStep]⟩ (Json.object recipeOtherwise).text =
        .ok recipeArguments := by
  have made : bindParameters ⟨[recipe, recipeStep]⟩ recipeMembers (nameParameters cooking) =
      .ok recipeArguments.values := by
    have names : nameParameters cooking =
        [("recipe", ⟨some "recipe", .ref "Recipe", none, false⟩),
          ("guests", ⟨some "guests", .integer .u8, none, true⟩)] := rfl
    have spices : Dictionary.ofList [("salt", Value.boolean true), ("mace", .null)] =
        [("mace", .null), ("salt", .boolean true)] := rfl
    simp [names, spices, recipeMembers, recipe, recipeStep, recipeSteps, recipeArguments,
      bindParameters, bindParameter, bindValue, bindFields, bindField, bindItems, bindEntries,
      bindEntry, bindString, bindBoolean, Json.member?, List.lookup_cons, ShapeIndex.resolve?,
      Except.map, Value.distinct, Value.same, Value.sameMembers]
  have bound := bindArguments_of_bindParameters recipe_read made
  exact ⟨bound, (bindArguments_ignores_undeclared cooking ⟨[recipe, recipeStep]⟩ recipe_read
    recipeOtherwise_read recipe_interchangeable recipeArguments).1 bound⟩

end ToolChat
