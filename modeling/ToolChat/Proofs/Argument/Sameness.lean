import ToolChat.Proofs.Argument.Bound
import ToolChat.Proofs.Argument.Integers

/-!
When values are the same.

Sameness compares numbers as arithmetic does. It is symmetric and transitive, and every value that
is bound is the same as itself, as no bound number is a NaN. What sets and maps are made of may be
replaced by what is the same.
-/

set_option autoImplicit false

namespace ToolChat

namespace Binary

variable {f : Format} {x y z : Binary f}

theorem same_symm (h : x.same y = true) : y.same x = true := by
  cases x <;> cases y <;> try cases h
  case infinite.infinite => exact beq_iff_eq.2 (beq_iff_eq.1 h).symm
  case finite.finite => exact beq_iff_eq.2 (beq_iff_eq.1 h).symm

theorem same_trans (first : x.same y = true) (second : y.same z = true) : x.same z = true := by
  cases x <;> cases y <;> try cases first
  all_goals cases z <;> try cases second
  case infinite.infinite => exact beq_iff_eq.2 ((beq_iff_eq.1 first).trans (beq_iff_eq.1 second))
  case finite.finite => exact beq_iff_eq.2 ((beq_iff_eq.1 first).trans (beq_iff_eq.1 second))

end Binary

namespace Value

abbrev SameItems : List Value → List Value → Prop :=
  List.Forall₂ fun x y => same x y = true

abbrev SameMembers : List (String × Value) → List (String × Value) → Prop :=
  List.Forall₂ fun a b => a.1 = b.1 ∧ same a.2 b.2 = true

theorem sameItems_iff {xs ys : List Value} : sameItems xs ys = true ↔ SameItems xs ys := by
  induction xs generalizing ys with
  | nil =>
    cases ys with
    | nil => exact iff_of_true rfl .nil
    | cons y ys => exact iff_of_false Bool.false_ne_true nofun
  | cons x xs ih =>
    cases ys with
    | nil => exact iff_of_false Bool.false_ne_true nofun
    | cons y ys => rw [sameItems, Bool.and_eq_true, ih, SameItems, List.forall₂_cons]

theorem sameMembers_iff {xs ys : List (String × Value)} :
    sameMembers xs ys = true ↔ SameMembers xs ys := by
  induction xs generalizing ys with
  | nil =>
    cases ys with
    | nil => exact iff_of_true rfl .nil
    | cons y ys => exact iff_of_false Bool.false_ne_true nofun
  | cons x xs ih =>
    cases ys with
    | nil => exact iff_of_false Bool.false_ne_true nofun
    | cons y ys =>
      rw [sameMembers, Bool.and_eq_true, Bool.and_eq_true, beq_iff_eq, ih, SameMembers,
        List.forall₂_cons]

section Relations

variable {α : Type} {R : α → α → Prop} {xs ys zs : List α}

theorem forall₂_symm (h : List.Forall₂ R xs ys) (turns : ∀ x ∈ xs, ∀ y, R x y → R y x) :
    List.Forall₂ R ys xs := by
  induction h with
  | nil => exact .nil
  | cons here _ ih =>
    obtain ⟨first, later⟩ := List.forall_mem_cons.1 turns
    exact .cons (first _ here) (ih later)

theorem forall₂_trans (first : List.Forall₂ R xs ys) (second : List.Forall₂ R ys zs)
    (joins : ∀ x ∈ xs, ∀ y z, R x y → R y z → R x z) : List.Forall₂ R xs zs := by
  induction first generalizing zs with
  | nil =>
    cases second
    exact .nil
  | cons here _ ih =>
    cases second with
    | cons there rest =>
      obtain ⟨head, later⟩ := List.forall_mem_cons.1 joins
      exact .cons (head _ _ here there) (ih rest later)

end Relations

theorem size_induction {motive : Value → Prop} (value : Value)
    (step : ∀ value, (∀ inner, sizeOf inner < sizeOf value → motive inner) → motive value) :
    motive value :=
  step value fun inner _ => size_induction inner step
termination_by sizeOf value

theorem sizeOf_member_lt {member : String × Value} {members : List (String × Value)}
    (h : member ∈ members) : sizeOf member.2 < sizeOf members := by
  have inside := List.sizeOf_lt_of_mem h
  have value : sizeOf member.2 < sizeOf member := by
    rw [Prod.mk.sizeOf_spec]
    omega
  exact Nat.lt_trans value inside

theorem same_symm {x y : Value} (h : same x y = true) : same y x = true := by
  induction x using size_induction generalizing y with | step x ih
  have items : ∀ {xs ys : List Value}, sizeOf xs < sizeOf x → SameItems xs ys → SameItems ys xs :=
    fun smaller each => forall₂_symm each fun item inside other here =>
      ih item (Nat.lt_trans (List.sizeOf_lt_of_mem inside) smaller) here
  have members : ∀ {xs ys : List (String × Value)}, sizeOf xs < sizeOf x → SameMembers xs ys →
      SameMembers ys xs :=
    fun smaller each => forall₂_symm each fun member inside other here =>
      ⟨here.1.symm, ih member.2 (Nat.lt_trans (sizeOf_member_lt inside) smaller) here.2⟩
  -- Values of different kinds are not the same.
  cases x <;> cases y <;> try cases h
  case step.null.null.refl => rfl
  case step.integer.integer | step.boolean.boolean | step.string.string | step.constant.constant =>
    rw [same, beq_iff_eq] at h ⊢
    exact h.symm
  case step.number.number => exact Binary.same_symm h
  case step.list.list | step.set.set =>
    rw [same, sameItems_iff] at h ⊢
    exact items (by simp) h
  case step.map.map | step.object.object =>
    rw [same, sameMembers_iff] at h ⊢
    exact members (by simp) h

theorem same_trans {x y z : Value} (first : same x y = true) (second : same y z = true) :
    same x z = true := by
  induction x using size_induction generalizing y z with | step x ih
  have items : ∀ {xs ys zs : List Value}, sizeOf xs < sizeOf x → SameItems xs ys →
      SameItems ys zs → SameItems xs zs :=
    fun smaller each others => forall₂_trans each others fun item inside _ _ here there =>
      ih item (Nat.lt_trans (List.sizeOf_lt_of_mem inside) smaller) here there
  have members : ∀ {xs ys zs : List (String × Value)}, sizeOf xs < sizeOf x → SameMembers xs ys →
      SameMembers ys zs → SameMembers xs zs :=
    fun smaller each others => forall₂_trans each others fun member inside _ _ here there =>
      ⟨here.1.trans there.1,
        ih member.2 (Nat.lt_trans (sizeOf_member_lt inside) smaller) here.2 there.2⟩
  cases x <;> cases y <;> try cases first
  all_goals cases z <;> try cases second
  case step.null.null.refl.null.refl => rfl
  case step.integer.integer | step.boolean.boolean | step.string.string | step.constant.constant =>
    rw [same, beq_iff_eq] at first second ⊢
    exact first.trans second
  case step.number.number => exact Binary.same_trans first second
  case step.list.list | step.set.set =>
    rw [same, sameItems_iff] at first second ⊢
    exact items (by simp) first second
  case step.map.map | step.object.object =>
    rw [same, sameMembers_iff] at first second ⊢
    exact members (by simp) first second

theorem same_congr {x y u v : Value} (first : same x y = true) (second : same u v = true) :
    same x u = same y v := by
  rw [Bool.eq_iff_iff]
  exact ⟨fun h => same_trans (same_symm first) (same_trans h second),
    fun h => same_trans first (same_trans h (same_symm second))⟩

theorem any_same_congr {xs ys : List Value} {x y : Value} (each : SameItems xs ys)
    (also : same x y = true) : xs.any (same · x) = ys.any (same · y) := by
  induction each with
  | nil => rfl
  | cons here _ ih => rw [List.any_cons, List.any_cons, ih, same_congr here also]

private theorem sameItems_foldl {xs ys before others : List Value} (each : SameItems xs ys)
    (kept : SameItems before others) :
    SameItems
      (xs.foldl (fun kept item => if kept.any (same · item) then kept else kept ++ [item]) before)
      (ys.foldl (fun kept item => if kept.any (same · item) then kept else kept ++ [item])
        others) := by
  induction each generalizing before others with
  | nil => exact kept
  | @cons x y _ _ here _ ih =>
    rw [List.foldl_cons, List.foldl_cons, any_same_congr kept here]
    apply ih
    split
    · exact kept
    · exact List.rel_append kept (.cons here .nil)

theorem sameItems_distinct {xs ys : List Value} (each : SameItems xs ys) :
    SameItems (distinct xs) (distinct ys) :=
  sameItems_foldl each .nil

theorem same_gather {shape item : Shape} {xs ys : List Value} (ofItems : shape.item? = some item)
    (each : SameItems xs ys) : same (shape.gather xs) (shape.gather ys) = true := by
  cases shape with
  | list inner => exact sameItems_iff.2 each
  | set inner => exact sameItems_iff.2 (sameItems_distinct each)
  | _ => cases ofItems

theorem sameMembers_insert {first second : List (String × Value)} {key : String} {x y : Value}
    (each : SameMembers first second) (also : same x y = true) :
    SameMembers (Dictionary.insert key x first) (Dictionary.insert key y second) := by
  induction each with
  | nil => exact .cons ⟨rfl, also⟩ .nil
  | @cons a b _ _ here rest ih =>
    obtain ⟨name, value⟩ := a
    obtain ⟨_, other⟩ := b
    obtain ⟨rfl, same⟩ := here
    unfold Dictionary.insert
    split
    · exact .cons ⟨rfl, also⟩ (.cons ⟨rfl, same⟩ rest)
    · split
      · exact .cons ⟨rfl, also⟩ rest
      · exact .cons ⟨rfl, same⟩ ih

private theorem sameMembers_foldl {pairs others first second : List (String × Value)}
    (each : SameMembers pairs others) (before : SameMembers first second) :
    SameMembers
      (pairs.foldl (fun entries (key, value) => Dictionary.insert key value entries) first)
      (others.foldl (fun entries (key, value) => Dictionary.insert key value entries) second) := by
  induction each generalizing first second with
  | nil => exact before
  | @cons a b _ _ here _ ih =>
    obtain ⟨key, value⟩ := a
    obtain ⟨_, other⟩ := b
    obtain ⟨rfl, same⟩ := here
    exact ih (sameMembers_insert before same)

theorem sameMembers_ofList {pairs others : List (String × Value)}
    (each : SameMembers pairs others) :
    SameMembers (Dictionary.ofList pairs) (Dictionary.ofList others) :=
  sameMembers_foldl each .nil

end Value

variable {index : ShapeIndex}

theorem BindsPlain.same_self {shape : Shape} {json : Json} {value : Value}
    (h : BindsPlain shape json value) : Value.same value value = true := by
  cases h with
  | integer | boolean | string | constant => exact beq_self_eq_true _
  | number within =>
    obtain ⟨x, finite⟩ := exists_finite_of_contains within
    rw [finite]
    exact beq_self_eq_true x.signedUnits

theorem Binds.same_self {shape : Shape} {json : Json} {value : Value}
    (h : Binds index shape json value) : Value.same value value = true := by
  induction h with
  | plain plain bound => exact (bindsPlain_of_bindValue plain (bound (.argument ""))).same_self
  | items ofItems each ih =>
    refine Value.same_gather ofItems (List.forall₂_same.2 fun value inside => ?_)
    obtain ⟨pair, member, rfl⟩ := List.mem_map.1 inside
    exact ih pair member
  | @fields shape object members bound target fields absent present ih =>
    refine Value.sameMembers_iff.2 (List.forall₂_same.2 fun entry inside => ⟨rfl, ?_⟩)
    obtain ⟨pair, member, rfl⟩ := List.mem_map.1 inside
    cases given : Json.member? pair.1.name members with
    | none => rw [(absent pair member given).2]; rfl
    | some json => exact ih pair member json given
  | @entries shape bound absent present ih =>
    refine Value.sameMembers_iff.2 (List.forall₂_same.2 fun entry inside => ⟨rfl, ?_⟩)
    obtain ⟨pair, member, rfl⟩ := List.mem_map.1 (Dictionary.ofList_subset _ inside)
    by_cases null : pair.1.2 = .null
    · rw [absent pair member null]
      rfl
    · exact ih pair member null

end ToolChat
