/-!
Dictionaries in ascending key order.

A dictionary is a list of pairs whose keys ascend by code point, which is also the order of their
UTF-8 bytes. The two ways to add a pair differ in what they do with a key that is there already:
`insert` replaces its value, `insertNew` keeps it.
-/

set_option autoImplicit false

namespace ToolChat.Dictionary

variable {α : Type}

def insert (key : String) (value : α) : List (String × α) → List (String × α)
  | [] => [(key, value)]
  | (k, v) :: rest =>
    if key < k then (key, value) :: (k, v) :: rest
    else if key = k then (key, value) :: rest
    else (k, v) :: insert key value rest

/-- Gives a key a value unless it has one. -/
def insertNew (key : String) (value : α) : List (String × α) → List (String × α)
  | [] => [(key, value)]
  | (k, v) :: rest =>
    if key < k then (key, value) :: (k, v) :: rest
    else if key = k then (k, v) :: rest
    else (k, v) :: insertNew key value rest

/-- The dictionary of some pairs; of pairs with one key the last one counts. -/
def ofList (pairs : List (String × α)) : List (String × α) :=
  pairs.foldl (fun entries (key, value) => insert key value entries) []

def find? (key : String) (entries : List (String × α)) : Option α :=
  entries.lookup key

variable {key : String} {value : α} {entries : List (String × α)}

theorem mem_of_lookup_eq_some (h : entries.lookup key = some value) :
    (key, value) ∈ entries := by
  obtain ⟨before, rest, split, -⟩ := List.lookup_eq_some_iff.1 h
  rw [split]
  exact List.mem_append_right _ List.mem_cons_self

theorem lookup_eq_none_iff : entries.lookup key = none ↔ key ∉ entries.map (·.1) := by
  rw [List.lookup_eq_none_iff]
  constructor
  · intro other hk
    obtain ⟨pair, hp, rfl⟩ := List.mem_map.1 hk
    exact bne_iff_ne.1 (other pair hp) rfl
  · intro new pair hp
    apply bne_iff_ne.2
    rintro rfl
    exact new (List.mem_map_of_mem hp)

theorem lookup_eq_some_of_mem (distinct : (entries.map (·.1)).Nodup) (h : (key, value) ∈ entries) :
    entries.lookup key = some value := by
  induction entries with
  | nil => cases h
  | cons entry entries ih =>
    obtain ⟨k, v⟩ := entry
    obtain ⟨new, rest⟩ := List.nodup_cons.1 distinct
    rcases List.mem_cons.1 h with same | later
    · cases same
      exact List.lookup_cons_self
    · have old : key ∈ entries.map (·.1) := List.mem_map.2 ⟨_, later, rfl⟩
      have other : key ≠ k := fun same => new (same ▸ old)
      rw [List.lookup_cons, beq_false_of_ne other]
      exact ih rest later

theorem mem_insert {pair : String × α} (h : pair ∈ insert key value entries) :
    pair = (key, value) ∨ pair ∈ entries := by
  induction entries with
  | nil => exact .inl (List.mem_singleton.1 h)
  | cons entry entries ih =>
    obtain ⟨k, v⟩ := entry
    unfold insert at h
    split at h
    · exact List.mem_cons.1 h
    · split at h
      · rcases List.mem_cons.1 h with rfl | h
        · exact .inl rfl
        · exact .inr (List.mem_cons_of_mem _ h)
      · rcases List.mem_cons.1 h with rfl | h
        · exact .inr List.mem_cons_self
        · rcases ih h with same | old
          · exact .inl same
          · exact .inr (List.mem_cons_of_mem _ old)

theorem ofList_subset (pairs : List (String × α)) : ofList pairs ⊆ pairs := by
  have grows : ∀ (rest before : List (String × α)),
      rest.foldl (fun entries (key, value) => insert key value entries) before ⊆ before ++ rest := by
    intro rest
    induction rest with
    | nil =>
      intro before
      rw [List.append_nil]
      exact List.Subset.refl _
    | cons pair rest ih =>
      intro before other h
      rcases List.mem_append.1 (ih _ h) with added | later
      · rcases mem_insert added with rfl | old
        · exact List.mem_append_right _ List.mem_cons_self
        · exact List.mem_append_left _ old
      · exact List.mem_append_right _ (List.mem_cons_of_mem _ later)
  exact grows pairs []

theorem mem_insertNew {pair : String × α} (h : pair ∈ insertNew key value entries) :
    pair = (key, value) ∨ pair ∈ entries := by
  induction entries with
  | nil => exact .inl (List.mem_singleton.1 h)
  | cons entry entries ih =>
    obtain ⟨k, v⟩ := entry
    unfold insertNew at h
    split at h
    · exact List.mem_cons.1 h
    · split at h
      · exact .inr h
      · rcases List.mem_cons.1 h with rfl | h
        · exact .inr List.mem_cons_self
        · rcases ih h with same | old
          · exact .inl same
          · exact .inr (List.mem_cons_of_mem _ old)

theorem mem_keys_insertNew {k : String} :
    k ∈ (insertNew key value entries).map (·.1) ↔ k = key ∨ k ∈ entries.map (·.1) := by
  induction entries with
  | nil => simp only [insertNew, List.map_cons, List.map_nil, List.mem_cons]
  | cons entry entries ih =>
    unfold insertNew
    split
    · exact List.mem_cons
    · split
      · next same =>
        rw [List.map_cons, List.mem_cons, same]
        constructor
        · exact .inr
        · rintro (h | h)
          · exact .inl h
          · exact h
      · rw [List.map_cons, List.mem_cons, ih, List.map_cons, List.mem_cons]
        exact or_left_comm

end ToolChat.Dictionary
