import ToolChat.Text.Dictionary

/-!
The order of dictionaries.

The keys of a dictionary ascend, so they are distinct, and a dictionary made of its own pairs is the
same dictionary. Where the keys of pairs are distinct, their order does not matter to the dictionary
that they make.
-/

set_option autoImplicit false

namespace ToolChat.Dictionary

variable {α : Type} {key : String} {value : α} {entries : List (String × α)}

def Ascending (entries : List (String × α)) : Prop :=
  entries.Pairwise fun first second => first.1 < second.1

theorem lt_of_not_lt_of_ne {a b : String} (not_below : ¬a < b) (other : a ≠ b) : b < a := by
  by_cases above : b < a
  · exact above
  · exact absurd (String.le_antisymm (String.not_lt.1 above) (String.not_lt.1 not_below)) other

theorem Ascending.insert (h : Ascending entries) : Ascending (insert key value entries) := by
  induction entries with
  | nil => exact List.pairwise_singleton _ _
  | cons entry entries ih =>
    obtain ⟨k, v⟩ := entry
    obtain ⟨below, rest⟩ := List.pairwise_cons.1 h
    unfold Dictionary.insert
    split
    · next first =>
      refine List.pairwise_cons.2 ⟨fun later inside => ?_, h⟩
      rcases List.mem_cons.1 inside with rfl | inside
      · exact first
      · exact String.lt_trans first (below later inside)
    · next behind =>
      split
      · next same => exact List.pairwise_cons.2 ⟨same ▸ below, rest⟩
      · next other =>
        refine List.pairwise_cons.2 ⟨fun later inside => ?_, ih rest⟩
        rcases mem_insert inside with rfl | inside
        · exact lt_of_not_lt_of_ne behind other
        · exact below later inside

private theorem ascending_foldl (pairs : List (String × α)) {before : List (String × α)}
    (h : Ascending before) :
    Ascending (pairs.foldl (fun entries (key, value) => insert key value entries) before) := by
  induction pairs generalizing before with
  | nil => exact h
  | cons pair pairs ih => exact ih h.insert

theorem ascending_ofList (pairs : List (String × α)) : Ascending (ofList pairs) :=
  ascending_foldl pairs .nil

theorem insert_of_above (above : ∀ entry ∈ entries, entry.1 < key) :
    insert key value entries = entries ++ [(key, value)] := by
  induction entries with
  | nil => rfl
  | cons entry entries ih =>
    obtain ⟨k, v⟩ := entry
    have first : k < key := above (k, v) List.mem_cons_self
    have behind : ¬key < k := String.lt_asymm first
    have other : key ≠ k := fun same => String.lt_irrefl k (same ▸ first)
    rw [insert, if_neg behind, if_neg other,
      ih fun entry inside => above entry (List.mem_cons_of_mem _ inside), List.cons_append]

private theorem foldl_insert_of_ascending {pairs before : List (String × α)}
    (h : Ascending (before ++ pairs)) :
    pairs.foldl (fun entries (key, value) => insert key value entries) before =
      before ++ pairs := by
  induction pairs generalizing before with
  | nil => rw [List.foldl_nil, List.append_nil]
  | cons pair pairs ih =>
    obtain ⟨key, value⟩ := pair
    have above : ∀ entry ∈ before, entry.1 < key := fun entry inside =>
      (List.pairwise_append.1 h).2.2 entry inside (key, value) List.mem_cons_self
    rw [List.append_cons] at h
    simp only [List.foldl_cons]
    rw [insert_of_above above, ih h, List.append_assoc, List.singleton_append]

theorem ofList_of_ascending (h : Ascending entries) : ofList entries = entries :=
  foldl_insert_of_ascending (List.nil_append entries ▸ h)

theorem Ascending.nodup_keys (h : Ascending entries) : (entries.map (·.1)).Nodup := by
  rw [List.Nodup, List.pairwise_map]
  refine h.imp fun {first second} below (same : first.1 = second.1) => ?_
  exact String.lt_irrefl second.1 (same ▸ below)

theorem Ascending.eq_of_perm {others : List (String × α)} (h : Ascending entries)
    (also : Ascending others) (perm : entries.Perm others) : entries = others :=
  perm.eq_of_pairwise (fun _ _ _ _ below above => absurd above (String.lt_asymm below)) h also

theorem insert_perm (new : key ∉ entries.map (·.1)) :
    (insert key value entries).Perm ((key, value) :: entries) := by
  induction entries with
  | nil => exact .refl _
  | cons entry entries ih =>
    obtain ⟨k, v⟩ := entry
    rw [List.map_cons, List.mem_cons, not_or] at new
    obtain ⟨other, later⟩ := new
    have other : key ≠ k := other
    rw [insert, if_neg other]
    split
    · exact .refl _
    · exact ((ih later).cons (k, v)).trans (.swap (key, value) (k, v) entries)

private theorem foldl_insert_perm {pairs before : List (String × α)}
    (distinct : ((before ++ pairs).map (·.1)).Nodup) :
    (pairs.foldl (fun entries (key, value) => insert key value entries) before).Perm
      (before ++ pairs) := by
  induction pairs generalizing before with
  | nil => exact .of_eq (List.append_nil before).symm
  | cons pair pairs ih =>
    obtain ⟨key, value⟩ := pair
    have moved : (before ++ (key, value) :: pairs).Perm ((key, value) :: (before ++ pairs)) :=
      List.perm_middle
    have distinct := (moved.map (·.1)).nodup_iff.1 distinct
    have new : key ∉ before.map (·.1) := by
      intro old
      refine (List.nodup_cons.1 distinct).1 ?_
      rw [List.map_append]
      exact List.mem_append_left _ old
    have grown : (insert key value before ++ pairs).Perm ((key, value) :: (before ++ pairs)) :=
      (insert_perm new).append_right pairs
    exact (ih ((grown.map (·.1)).nodup_iff.2 distinct)).trans (grown.trans moved.symm)

theorem ofList_perm {pairs : List (String × α)} (distinct : (pairs.map (·.1)).Nodup) :
    (ofList pairs).Perm pairs :=
  foldl_insert_perm (List.nil_append pairs ▸ distinct)

theorem ofList_eq_of_perm {pairs others : List (String × α)}
    (distinct : (pairs.map (·.1)).Nodup) (perm : pairs.Perm others) :
    ofList pairs = ofList others := by
  have also : (others.map (·.1)).Nodup := (perm.map (·.1)).nodup_iff.1 distinct
  refine (ascending_ofList pairs).eq_of_perm (ascending_ofList others) ?_
  exact (ofList_perm distinct).trans (perm.trans (ofList_perm also).symm)

end ToolChat.Dictionary
