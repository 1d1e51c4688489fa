import ToolChat.Argument.Value
import ToolChat.Proofs.Json.Pointer
import ToolChat.Proofs.Text.Dictionary

/-!
Values as JSON.

The JSON of a record or a map has the JSON of the values under their names, if these are distinct;
a member that is null counts as absent. Items that were made distinct are distinct.
-/

set_option autoImplicit false

namespace ToolChat.Value

def Distinct (items : List Value) : Prop :=
  items.Pairwise fun earlier later => same earlier later = false

variable {items : List Value} {value : Value}

theorem mem_of_mem_distinct (h : value ∈ Value.distinct items) : value ∈ items := by
  have kept : ∀ (rest before : List Value), value ∈ rest.foldl (fun kept item =>
      if kept.any (Value.same · item) then kept else kept ++ [item]) before →
        value ∈ before ∨ value ∈ rest := by
    intro rest
    induction rest with
    | nil => exact fun before h => .inl h
    | cons item rest ih =>
      intro before h
      rcases ih _ h with old | later
      · dsimp only at old
        split at old
        · exact .inl old
        · rcases List.mem_append.1 old with old | new
          · exact .inl old
          · exact .inr (List.mem_singleton.1 new ▸ List.mem_cons_self)
      · exact .inr (List.mem_cons_of_mem _ later)
  rcases kept items [] h with none | inside
  · cases none
  · exact inside

private theorem distinct_foldl (rest : List Value) {before : List Value} (h : Distinct before) :
    Distinct (rest.foldl (fun kept item =>
      if kept.any (Value.same · item) then kept else kept ++ [item]) before) := by
  induction rest generalizing before with
  | nil => exact h
  | cons item rest ih =>
    apply ih
    dsimp only
    split
    · exact h
    · next new =>
      rw [List.any_eq_true, not_exists] at new
      refine List.pairwise_append.2
        ⟨h, List.pairwise_singleton _ _, fun kept inside last here => ?_⟩
      rw [List.mem_singleton.1 here]
      exact Bool.eq_false_iff.2 fun repeated => new kept ⟨inside, repeated⟩

theorem distinct_distinct (items : List Value) : Distinct (distinct items) :=
  distinct_foldl items .nil

private theorem foldl_of_distinct {rest before : List Value} (h : Distinct (before ++ rest)) :
    rest.foldl (fun kept item =>
      if kept.any (Value.same · item) then kept else kept ++ [item]) before = before ++ rest := by
  induction rest generalizing before with
  | nil => rw [List.foldl_nil, List.append_nil]
  | cons item rest ih =>
    have new : ¬before.any (Value.same · item) = true := by
      rw [List.any_eq_true]
      rintro ⟨kept, inside, repeated⟩
      cases repeated.symm.trans ((List.pairwise_append.1 h).2.2 kept inside item List.mem_cons_self)
    rw [List.append_cons] at h
    rw [List.foldl_cons, if_neg new, ih h, List.append_assoc, List.singleton_append]

theorem distinct_of_distinct (h : Distinct items) : distinct items = items :=
  foldl_of_distinct h

theorem itemsJson_eq_map (items : List Value) : itemsJson items = items.map toJson := by
  induction items with
  | nil => rfl
  | cons item items ih => rw [itemsJson, ih, List.map_cons]

section Members

variable {members : List (String × Value)} {name : String}

theorem membersJson_eq_map (members : List (String × Value)) :
    membersJson members = members.map fun (name, value) => (name, value.toJson) := by
  induction members with
  | nil => rfl
  | cons member members ih => rw [membersJson, ih, List.map_cons]

theorem keys_membersJson (members : List (String × Value)) :
    (membersJson members).map (·.1) = members.map (·.1) := by
  rw [membersJson_eq_map, List.map_map]
  rfl

theorem collect_membersJson (distinct : (members.map (·.1)).Nodup) :
    Json.collect (membersJson members) = membersJson members :=
  Json.collect_of_nodup (keys_membersJson members ▸ distinct)

theorem lookup_membersJson (distinct : (members.map (·.1)).Nodup)
    (inside : (name, value) ∈ members) :
    (membersJson members).lookup name = some value.toJson := by
  apply Dictionary.lookup_eq_some_of_mem
  · rw [keys_membersJson]
    exact distinct
  · rw [membersJson_eq_map]
    exact List.mem_map.2 ⟨_, inside, rfl⟩

theorem member?_membersJson_of_null (distinct : (members.map (·.1)).Nodup)
    (inside : (name, .null) ∈ members) : Json.member? name (membersJson members) = none := by
  rw [Json.member?, lookup_membersJson distinct inside, toJson]

theorem member?_membersJson (distinct : (members.map (·.1)).Nodup)
    (inside : (name, value) ∈ members) (present : value.toJson ≠ .null) :
    Json.member? name (membersJson members) = some value.toJson :=
  Json.member?_of_lookup (lookup_membersJson distinct inside) present

end Members

end ToolChat.Value
