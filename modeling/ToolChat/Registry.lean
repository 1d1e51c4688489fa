/-!
Registries: items under names, in the order in which they were inserted.

A name is taken once and for all. The positions give each name the place of its item, so a look-up
goes through them and everything that is listed follows the order of insertion.
-/

set_option autoImplicit false

namespace ToolChat

structure Registry (α : Type) where
  /-- The place of each name's item. -/
  positions : List (String × Nat) := []
  /-- The items with their names, the first one first. -/
  items : List (String × α) := []

namespace Registry

variable {α : Type}

def empty : Registry α := {}

def contains (r : Registry α) (name : String) : Bool :=
  (r.positions.lookup name).isSome

def get? (r : Registry α) (name : String) : Option α :=
  match r.positions.lookup name with
  | none => none
  | some position => r.items[position]?.map (·.2)

/-- The registry with one more item; `none` if its name is taken. -/
def insert? (r : Registry α) (name : String) (item : α) : Option (Registry α) :=
  if r.contains name then none
  else some
    { positions := r.positions ++ [(name, r.items.length)], items := r.items ++ [(name, item)] }

theorem get?_of_insert? {r after : Registry α} {name : String} {item : α}
    (h : r.insert? name item = some after) : after.get? name = some item := by
  unfold insert? at h
  split at h
  · cases h
  · next free =>
    cases h
    have unused : r.positions.lookup name = none := Option.not_isSome_iff_eq_none.1 free
    simp [get?, List.lookup_append, unused]

def names (r : Registry α) : List String :=
  r.items.map (·.1)

def values (r : Registry α) : List α :=
  r.items.map (·.2)

theorem mem_values_of_get? {r : Registry α} {name : String} {item : α}
    (h : r.get? name = some item) : item ∈ r.values := by
  unfold get? at h
  split at h
  · cases h
  · obtain ⟨named, found, rfl⟩ := Option.map_eq_some_iff.1 h
    exact List.mem_map_of_mem (List.mem_of_getElem? found)

def size (r : Registry α) : Nat :=
  r.items.length

end Registry

end ToolChat
