import ToolChat.Proofs.Argument.Interchange
import ToolChat.Proofs.Argument.Sameness

/-!
Numbers of one exact value.

A number may be written whole or in double precision. Its exact value alone decides which integer it
is bound to, and double precision gives numbers of one value the same value, the two zeros apart,
which are the same though. So JSON that differs in how its numbers are written is bound to values
that are the same.
-/

set_option autoImplicit false

namespace ToolChat

namespace Json.Number

variable {m n : Json.Number}

theorem same_toDouble_self (n : Json.Number) : n.toDouble.same n.toDouble = true := by
  obtain ⟨x, finite⟩ := exists_finite_of_contains n.contains_toDouble
  rw [finite]
  exact beq_self_eq_true x.signedUnits

private theorem same_toDouble_of_integer {i : Int} {range : InExactRange i} {x : Finite .double}
    (equal : x.value = i) : (integer i range).toDouble.same (float x).toDouble = true := by
  obtain ⟨y, made, value⟩ := Binary.exists_ofInt_eq_finite equal
  rw [toDouble, toDouble, made]
  exact Finite.same_iff_value.2 (value.trans equal.symm)

theorem same_toDouble (equal : m.value = n.value) : m.toDouble.same n.toDouble = true := by
  cases m with
  | integer i range =>
    cases n with
    | integer j also =>
      cases Int.cast_inj.1 equal
      exact same_toDouble_self _
    | float y => exact same_toDouble_of_integer equal.symm
  | float x =>
    cases n with
    | integer j also => exact Binary.same_symm (same_toDouble_of_integer equal)
    | float y => exact Finite.same_iff_value.2 equal

end Json.Number

namespace Json

/-- Values differ in nothing but how their numbers are written. -/
inductive Renumbered : Json → Json → Prop
  | same (json : Json) : Renumbered json json
  | number {m n : Json.Number} (equal : m.value = n.value) : Renumbered (.number m) (.number n)
  | array {pairs : List (Json × Json)} (each : ∀ pair ∈ pairs, Renumbered pair.1 pair.2) :
      Renumbered (.array (pairs.map (·.1))) (.array (pairs.map (·.2)))
  | object {members : List (String × Json × Json)}
      (each : ∀ member ∈ members, Renumbered member.2.1 member.2.2) :
      Renumbered (.object (members.map fun member => (member.1, member.2.1)))
        (.object (members.map fun member => (member.1, member.2.2)))

namespace Renumbered

variable {a b : Json}

theorem eq_null_iff (h : a.Renumbered b) : a = .null ↔ b = .null := by
  cases h with
  | same => rfl
  | number | array | object => exact iff_of_false nofun nofun

theorem keysDistinct (h : a.Renumbered b) (distinct : b.KeysDistinct) : a.KeysDistinct := by
  induction h with
  | same => exact distinct
  | number => exact .flat rfl
  | @array pairs _ ih =>
    refine .array fun item inside => ?_
    obtain ⟨pair, member, rfl⟩ := List.mem_map.1 inside
    exact ih pair member (distinct.items _ (List.mem_map_of_mem member))
  | @object members _ ih =>
    obtain ⟨names, values⟩ := distinct.members
    refine .object ?_ fun entry inside => ?_
    · rw [List.map_map] at names ⊢
      exact names
    · obtain ⟨member, present, rfl⟩ := List.mem_map.1 inside
      exact ih member present (values _ (List.mem_map_of_mem present))

end Renumbered

theorem lookup_renumbered {members : List (String × Json × Json)} {name : String} {a b : Json}
    (first : (members.map fun member => (member.1, member.2.1)).lookup name = some a)
    (second : (members.map fun member => (member.1, member.2.2)).lookup name = some b) :
    ∃ member ∈ members, member.2 = (a, b) := by
  induction members with
  | nil => cases first
  | cons member members ih =>
    rw [List.map_cons, List.lookup_cons] at first second
    split at first
    · next here =>
      rw [here] at second
      cases first
      cases second
      exact ⟨member, List.mem_cons_self, rfl⟩
    · next other =>
      rw [other] at second
      obtain ⟨found, inside, same⟩ := ih first second
      exact ⟨found, List.mem_cons_of_mem _ inside, same⟩

end Json

def BoundSame (index : ShapeIndex) (shape : Shape) (a b : Json) : Prop :=
  ∀ value other, Binds index shape a value → Binds index shape b other →
    Value.same value other = true

section Bound

variable {index : ShapeIndex} {shape : Shape}

theorem boundSame_self (shape : Shape) (json : Json) : BoundSame index shape json json := by
  intro value other binds again
  cases Except.ok.inj ((binds.bindValue (.argument "")).symm.trans (again.bindValue _))
  exact binds.same_self

theorem Binds.plain_of_number {n : Json.Number} {value : Value}
    (h : Binds index shape (.number n) value) : BindsPlain shape (.number n) value := by
  cases h with
  | plain plain bound => exact bindsPlain_of_bindValue plain (bound (.argument ""))

theorem boundSame_number {m n : Json.Number} (equal : m.value = n.value) :
    BoundSame index shape (.number m) (.number n) := by
  intro value other binds again
  cases binds.plain_of_number with
  | integer exact =>
    cases again.plain_of_number with
    | integer also =>
      have first := (Json.Number.exactInt?_eq_some_iff_value.1 exact).1
      have second := (Json.Number.exactInt?_eq_some_iff_value.1 also).1
      exact beq_iff_eq.2 (Int.cast_inj.1 (first.symm.trans (equal.trans second)))
  | number =>
    cases again.plain_of_number with
    | number => exact Json.Number.same_toDouble equal

theorem forall₂_beside {α β γ δ ε : Type} {R : δ → ε → Prop} {f : α → β} {g : α → γ} {p : δ → β}
    {q : ε → γ} {list : List α} {xs : List δ} {ys : List ε} (left : xs.map p = list.map f)
    (right : ys.map q = list.map g)
    (each : ∀ a ∈ list, ∀ x ∈ xs, ∀ y ∈ ys, p x = f a → q y = g a → R x y) :
    List.Forall₂ R xs ys := by
  induction list generalizing xs ys with
  | nil =>
    cases List.map_eq_nil_iff.1 left
    cases List.map_eq_nil_iff.1 right
    exact .nil
  | cons a list ih =>
    obtain ⟨x, xs, rfl, atX, left⟩ := List.map_eq_cons_iff.1 left
    obtain ⟨y, ys, rfl, atY, right⟩ := List.map_eq_cons_iff.1 right
    refine .cons (each a List.mem_cons_self x List.mem_cons_self y List.mem_cons_self atX atY) ?_
    exact ih left right fun a inside x inX y inY => each a (List.mem_cons_of_mem _ inside)
      x (List.mem_cons_of_mem _ inX) y (List.mem_cons_of_mem _ inY)

theorem boundSame_array {pairs : List (Json × Json)}
    (each : ∀ pair ∈ pairs, ∀ item, BoundSame index item pair.1 pair.2) :
    BoundSame index shape (.array (pairs.map (·.1))) (.array (pairs.map (·.2))) := by
  intro value other binds again
  obtain ⟨item, first, ofItems, firsts, rfl, bindFirst⟩ := binds.items_of_array
  obtain ⟨also, second, found, seconds, rfl, bindSecond⟩ := again.items_of_array
  cases ofItems.symm.trans found
  refine Value.same_gather ofItems (List.forall₂_map_left_iff.2 (List.forall₂_map_right_iff.2 ?_))
  refine forall₂_beside firsts seconds fun pair inside x inFirst y inSecond left right => ?_
  exact each pair inside item _ _ (left ▸ bindFirst x inFirst) (right ▸ bindSecond y inSecond)

theorem Supplies.same {first second : List (String × Json)} {name : String} {optional : Bool}
    {value other : Value} (h : Supplies index first name shape optional value)
    (also : Supplies index second name shape optional other)
    (alike : GivesAlike (BoundSame index shape) first second name) :
    Value.same value other = true := by
  cases given : Json.member? name first with
  | none =>
    rw [(h.absent given).2, (also.absent (alike.absent.1 given)).2]
    rfl
  | some a =>
    cases found : Json.member? name second with
    | none => cases given.symm.trans (alike.absent.2 found)
    | some b => exact alike.present a b given found _ _ (h.present a given) (also.present b found)

theorem givesAlike_renumbered {members : List (String × Json × Json)}
    (each : ∀ member ∈ members, (member.2.1 = .null ↔ member.2.2 = .null) ∧
      BoundSame index shape member.2.1 member.2.2) (name : String) :
    GivesAlike (BoundSame index shape) (members.map fun member => (member.1, member.2.1))
      (members.map fun member => (member.1, member.2.2)) name := by
  refine .of_keys (.of_eq (by rw [List.map_map, List.map_map]; rfl)) ?_ ?_
  all_goals
    intro a b given found
    obtain ⟨member, inside, pair⟩ := Json.lookup_renumbered given found
    have alike := each member inside
    rw [pair] at alike
  · exact alike.2
  · exact alike.1

theorem boundSame_object {members : List (String × Json × Json)}
    (each : ∀ member ∈ members, (member.2.1 = .null ↔ member.2.2 = .null) ∧
      ∀ shape, BoundSame index shape member.2.1 member.2.2) :
    BoundSame index shape (.object (members.map fun member => (member.1, member.2.1)))
      (.object (members.map fun member => (member.1, member.2.2))) := by
  intro value other binds again
  rcases binds.fields_or_entries_of_object with
    ⟨object, first, target, fields, rfl, supplies⟩ | ⟨inner, first, rfl, firsts, rfl, entries⟩
  · rcases again.fields_or_entries_of_object with
      ⟨found, second, also, others, rfl, resupplies⟩ | ⟨inner, second, rfl, -⟩
    · cases target.symm.trans also
      refine Value.sameMembers_iff.2
        (List.forall₂_map_left_iff.2 (List.forall₂_map_right_iff.2 ?_))
      refine forall₂_beside (fields.trans (List.map_id _).symm) (others.trans (List.map_id _).symm)
        fun field _ x inFirst y inSecond left right => ?_
      have here := left ▸ supplies x inFirst
      have there := right ▸ resupplies y inSecond
      refine ⟨by rw [left, right], here.same there (givesAlike_renumbered ?_ _)⟩
      exact fun member inside => ⟨(each member inside).1, (each member inside).2 field.shape⟩
    · cases target
  · rcases again.fields_or_entries_of_object with
      ⟨object, second, target, -⟩ | ⟨_, second, ⟨⟩, seconds, rfl, reentries⟩
    · cases target
    · refine Value.sameMembers_iff.2 (Value.sameMembers_ofList
        (List.forall₂_map_left_iff.2 (List.forall₂_map_right_iff.2 ?_)))
      refine forall₂_beside firsts seconds fun member inside x inFirst y inSecond left right => ?_
      obtain ⟨null, alike⟩ := each member inside
      obtain ⟨absent, present⟩ := left ▸ entries x inFirst
      obtain ⟨also, other⟩ := right ▸ reentries y inSecond
      refine ⟨by rw [left, right], ?_⟩
      by_cases missing : member.2.1 = .null
      · rw [absent missing, also (null.1 missing)]
        rfl
      · exact alike inner _ _ (present missing) (other (mt null.2 missing))

/-- However their numbers are written, values are bound to what is the same. -/
theorem Json.Renumbered.boundSame {a b : Json} (h : a.Renumbered b) (shape : Shape) :
    BoundSame index shape a b := by
  induction h generalizing shape with
  | same json => exact boundSame_self shape json
  | number equal => exact boundSame_number equal
  | array _ ih => exact boundSame_array ih
  | object each ih =>
    exact boundSame_object fun member inside => ⟨(each member inside).eq_null_iff, ih member inside⟩

end Bound

end ToolChat
