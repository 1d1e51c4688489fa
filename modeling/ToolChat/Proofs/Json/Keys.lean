import ToolChat.Proofs.Json.Nesting

/-!
The keys of objects.

What is read has distinct keys in each of its objects: a member that is put gives its key a value in
place where the key is there. Values are the same up to the order of keys if they differ in nothing
but the places of members in objects, at any depth.
-/

set_option autoImplicit false

namespace ToolChat.Json

/-- In a value and everywhere inside of it, the keys of objects are distinct. -/
inductive KeysDistinct : Json → Prop
  | flat {value : Json} (flat : value.isFlat = true) : KeysDistinct value
  | array {items : List Json} (each : ∀ item ∈ items, KeysDistinct item) :
      KeysDistinct (.array items)
  | object {members : List (String × Json)} (distinct : (members.map (·.1)).Nodup)
      (each : ∀ member ∈ members, KeysDistinct member.2) : KeysDistinct (.object members)

/-- Values are the same up to the order of keys. -/
inductive Reordered : Json → Json → Prop
  | same (value : Json) : Reordered value value
  | array {pairs : List (Json × Json)} (each : ∀ pair ∈ pairs, Reordered pair.1 pair.2) :
      Reordered (.array (pairs.map (·.1))) (.array (pairs.map (·.2)))
  | object {first second : List (String × Json)}
      (keys : (first.map (·.1)).Perm (second.map (·.1)))
      (each : ∀ key a b, first.lookup key = some a → second.lookup key = some b → Reordered a b) :
      Reordered (.object first) (.object second)

namespace KeysDistinct

theorem items {items : List Json} (h : KeysDistinct (.array items)) :
    ∀ item ∈ items, KeysDistinct item := by
  cases h with
  | flat flat => cases flat
  | array each => exact each

theorem members {members : List (String × Json)} (h : KeysDistinct (.object members)) :
    (members.map (·.1)).Nodup ∧ ∀ member ∈ members, KeysDistinct member.2 := by
  cases h with
  | flat flat => cases flat
  | object distinct each => exact ⟨distinct, each⟩

end KeysDistinct

section Put

variable {key name : String} {value : Json} {members : List (String × Json)}

theorem mem_keys_put (h : name ∈ (put key value members).map (·.1)) :
    name = key ∨ name ∈ members.map (·.1) := by
  induction members with
  | nil => exact .inl (List.mem_singleton.1 h)
  | cons member members ih =>
    obtain ⟨k, v⟩ := member
    unfold put at h
    split at h
    · exact .inr h
    · rcases List.mem_cons.1 h with rfl | later
      · exact .inr List.mem_cons_self
      · exact (ih later).imp_right (List.mem_cons_of_mem _)

theorem nodup_put (distinct : (members.map (·.1)).Nodup) :
    ((put key value members).map (·.1)).Nodup := by
  induction members with
  | nil => exact List.pairwise_singleton _ key
  | cons member members ih =>
    obtain ⟨k, v⟩ := member
    obtain ⟨new, rest⟩ := List.nodup_cons.1 distinct
    unfold put
    split
    · exact distinct
    · next other =>
      refine List.nodup_cons.2 ⟨fun inside => ?_, ih rest⟩
      rcases mem_keys_put inside with same | old
      · exact other same
      · exact new old

end Put

def Frame.KeysDistinct : Frame → Prop
  | .items done => ∀ item ∈ done, item.KeysDistinct
  | .members done _ => (done.map (·.1)).Nodup ∧ ∀ member ∈ done, member.2.KeysDistinct

def Reading.KeysDistinct : Reading → Prop
  | .beforeValue frames _ => ∀ frame ∈ frames, frame.KeysDistinct
  | .beforeMember frames done _ => ∀ frame ∈ .members done "" :: frames, frame.KeysDistinct
  | .afterValue frames value _ => value.KeysDistinct ∧ ∀ frame ∈ frames, frame.KeysDistinct

theorem Reading.Step.keysDistinct {before after : Reading} (step : Step before after)
    (h : before.KeysDistinct) : after.KeysDistinct := by
  cases step with
  | flat flat => exact ⟨.flat flat, h⟩
  | emptyArray => exact ⟨.array (List.forall_mem_nil _), h⟩
  | openArray => exact List.forall_mem_cons.2 ⟨List.forall_mem_nil _, h⟩
  | emptyObject => exact ⟨.object List.nodup_nil (List.forall_mem_nil _), h⟩
  | openObject => exact List.forall_mem_cons.2 ⟨⟨List.nodup_nil, List.forall_mem_nil _⟩, h⟩
  | key =>
    obtain ⟨held, outer⟩ := List.forall_mem_cons.1 h
    exact List.forall_mem_cons.2 ⟨held, outer⟩
  | closeArray =>
    obtain ⟨last, frames⟩ := h
    obtain ⟨held, outer⟩ := List.forall_mem_cons.1 frames
    have each := List.forall_mem_cons.2 ⟨last, held⟩
    exact ⟨.array fun item inside => each item (List.mem_reverse.1 inside), outer⟩
  | nextItem =>
    obtain ⟨last, frames⟩ := h
    obtain ⟨held, outer⟩ := List.forall_mem_cons.1 frames
    exact List.forall_mem_cons.2 ⟨List.forall_mem_cons.2 ⟨last, held⟩, outer⟩
  | closeObject =>
    obtain ⟨last, frames⟩ := h
    obtain ⟨⟨distinct, held⟩, outer⟩ := List.forall_mem_cons.1 frames
    exact ⟨.object (nodup_put distinct) (forall_mem_put held last), outer⟩
  | nextMember =>
    obtain ⟨last, frames⟩ := h
    obtain ⟨⟨distinct, held⟩, outer⟩ := List.forall_mem_cons.1 frames
    exact List.forall_mem_cons.2 ⟨⟨nodup_put distinct, forall_mem_put held last⟩, outer⟩

/-- What is read has distinct keys. -/
theorem keysDistinct_of_read {text : List Char} {value : Json} (h : Json.read text = .ok value) :
    KeysDistinct value := by
  have run : (Reading.beforeValue [] text).run = .ok value := h
  obtain ⟨_, distinct, -⟩ := Reading.holds_of_run (P := Reading.KeysDistinct)
    (fun _ _ step before => step.keysDistinct before) run (List.forall_mem_nil _)
  exact distinct

theorem Reordered.symm {a b : Json} (h : Reordered a b) : Reordered b a := by
  induction h with
  | same value => exact .same value
  | @array pairs _ ih =>
    have swapped : Reordered (.array ((pairs.map Prod.swap).map (·.1)))
        (.array ((pairs.map Prod.swap).map (·.2))) := by
      refine .array fun pair inside => ?_
      obtain ⟨other, member, rfl⟩ := List.mem_map.1 inside
      exact ih other member
    rwa [List.map_map, List.map_map] at swapped
  | object keys _ ih =>
    exact .object keys.symm fun key a b first second => ih key b a second first

theorem Reordered.of_perm {first second : List (String × Json)}
    (distinct : (first.map (·.1)).Nodup) (perm : first.Perm second) :
    Reordered (.object first) (.object second) := by
  have also : (second.map (·.1)).Nodup := (perm.map (·.1)).nodup_iff.1 distinct
  refine .object (perm.map (·.1)) fun key a b given found => ?_
  have moved := perm.mem_iff.1 (Dictionary.mem_of_lookup_eq_some given)
  cases found.symm.trans (Dictionary.lookup_eq_some_of_mem also moved)
  exact .same a

end ToolChat.Json
