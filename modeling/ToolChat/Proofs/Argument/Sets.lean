import ToolChat.Proofs.Argument.Renumbering

/-!
Sets and lists.

A set is bound where a list is, and of what the list has it keeps what is the same as nothing
before it. As sameness is that of bound values, items that say the same count once, however they are
written: their numbers, the order of their keys, what is not declared, null for what is left out.
-/

set_option autoImplicit false

namespace ToolChat

namespace Value

/-- The items that are the same as none before them, given those that come before all of them. -/
def firsts (earlier : List Value) : List Value → List Value
  | [] => []
  | item :: items =>
    if earlier.any (same · item) then firsts (earlier ++ [item]) items
    else item :: firsts (earlier ++ [item]) items

/-- Of some items, those are kept that are the same as none before them. Each of the items is the
same as exactly one that is kept. -/
structure Keeps (items kept : List Value) : Prop where
  firsts : kept = Value.firsts [] items
  sublist : kept.Sublist items
  distinct : Distinct kept
  once : ∀ item ∈ items, ∃ first, kept.filter (same · item) = [first]

section Firsts

variable {items earlier kept : List Value} {item : Value}

theorem firsts_sublist (earlier items : List Value) : (firsts earlier items).Sublist items := by
  induction items generalizing earlier with
  | nil => exact .slnil
  | cons item items ih =>
    rw [firsts]
    split
    · exact (ih _).cons item
    · exact (ih _).cons_cons item

theorem exists_first (refl : ∀ item ∈ items, same item item = true) (inside : item ∈ items) :
    (∃ first ∈ earlier, same first item = true) ∨
      ∃ first ∈ firsts earlier items, same first item = true := by
  induction items generalizing earlier with
  | nil => cases inside
  | cons head items ih =>
    obtain ⟨self, refl⟩ := List.forall_mem_cons.1 refl
    rw [firsts]
    rcases List.mem_cons.1 inside with rfl | later
    · split
      · next old => exact .inl (List.any_eq_true.1 old)
      · exact .inr ⟨_, List.mem_cons_self, self⟩
    · rcases ih refl later with ⟨first, before, alike⟩ | ⟨first, member, alike⟩
      · rcases List.mem_append.1 before with before | last
        · exact .inl ⟨first, before, alike⟩
        · cases List.mem_singleton.1 last
          split
          · next old =>
            obtain ⟨first, before, earlier⟩ := List.any_eq_true.1 old
            exact .inl ⟨first, before, same_trans earlier alike⟩
          · exact .inr ⟨_, List.mem_cons_self, alike⟩
      · right
        split
        · exact ⟨first, member, alike⟩
        · exact ⟨first, List.mem_cons_of_mem _ member, alike⟩

/-- It does not matter whether an item is compared with all that came before or with what was kept
of it. -/
private theorem foldl_eq_firsts (refl : ∀ item ∈ items, same item item = true)
    (subset : kept ⊆ earlier)
    (covers : ∀ item ∈ earlier, ∃ first ∈ kept, same first item = true) :
    items.foldl (fun kept item => if kept.any (same · item) then kept else kept ++ [item]) kept =
      kept ++ firsts earlier items := by
  induction items generalizing kept earlier with
  | nil => rw [List.foldl_nil, firsts, List.append_nil]
  | cons item items ih =>
    obtain ⟨self, refl⟩ := List.forall_mem_cons.1 refl
    have agree : kept.any (same · item) = earlier.any (same · item) := by
      rw [Bool.eq_iff_iff, List.any_eq_true, List.any_eq_true]
      constructor
      · rintro ⟨first, member, alike⟩
        exact ⟨first, subset member, alike⟩
      · rintro ⟨other, member, alike⟩
        obtain ⟨first, stays, before⟩ := covers other member
        exact ⟨first, stays, same_trans before alike⟩
    rw [List.foldl_cons, firsts, ← agree]
    split
    · next old =>
      refine ih refl (List.subset_append_of_subset_left _ subset) ?_
      refine List.forall_mem_append.2 ⟨covers, List.forall_mem_singleton.2 ?_⟩
      exact List.any_eq_true.1 old
    · rw [ih refl, List.append_assoc, List.singleton_append]
      · exact List.append_subset.2 ⟨List.subset_append_of_subset_left _ subset,
          List.subset_append_right _ _⟩
      · refine List.forall_mem_append.2 ⟨fun other member => ?_, List.forall_mem_singleton.2
          ⟨item, List.mem_append_right _ List.mem_cons_self, self⟩⟩
        obtain ⟨first, stays, before⟩ := covers other member
        exact ⟨first, List.mem_append_left _ stays, before⟩

theorem distinct_eq_firsts (refl : ∀ item ∈ items, same item item = true) :
    Value.distinct items = firsts [] items :=
  foldl_eq_firsts refl (List.nil_subset _) (List.forall_mem_nil _)

theorem filter_same_eq_singleton {first value : Value} (distinct : Distinct kept)
    (inside : first ∈ kept) (alike : same first value = true) :
    kept.filter (same · value) = [first] := by
  have others : ∀ {x y : Value}, same x y = false → same x value = true → ¬same y value = true :=
    fun apart here there => by
      cases apart.symm.trans (same_trans here (same_symm there))
  induction kept with
  | nil => cases inside
  | cons head kept ih =>
    obtain ⟨apart, rest⟩ := List.pairwise_cons.1 distinct
    rcases List.mem_cons.1 inside with rfl | later
    · rw [List.filter_cons, if_pos alike, List.filter_eq_nil_iff.2]
      exact fun other member => others (apart other member) alike
    · have other : ¬same head value = true := fun here => others (apart first later) here alike
      rw [List.filter_cons, if_neg other, ih rest later]

theorem keeps_distinct (refl : ∀ item ∈ items, same item item = true) :
    Keeps items (Value.distinct items) where
  firsts := distinct_eq_firsts refl
  sublist := distinct_eq_firsts refl ▸ firsts_sublist [] items
  distinct := distinct_distinct items
  once item inside := by
    rcases exists_first refl inside with ⟨_, none, -⟩ | ⟨first, member, alike⟩
    · exact absurd none List.not_mem_nil
    · rw [← distinct_eq_firsts refl] at member
      exact ⟨first, filter_same_eq_singleton (distinct_distinct items) member alike⟩

end Firsts

end Value

variable {index : ShapeIndex}

/-- At a shape the one JSON says what the other says, in numbers that may be written otherwise. It
is of use where keys are distinct, as they are in all that is read. -/
def SaysSame (index : ShapeIndex) (shape : Shape) (a b : Json) : Prop :=
  ∃ between, Interchangeable index shape a between ∧ between.Renumbered b

theorem SaysSame.boundSame {shape : Shape} {a b : Json} (h : SaysSame index shape a b)
    (distinct : a.KeysDistinct) (also : b.KeysDistinct) : BoundSame index shape a b := by
  obtain ⟨between, alike, renumbered⟩ := h
  intro value other binds again
  have moved := alike.replaceable distinct (renumbered.keysDistinct also) value binds
  exact renumbered.boundSame shape value other moved again

section Items

variable {item : Shape} {path : Path} {json : Json}

theorem bindValue_set_eq (item : Shape) (path : Path) (json : Json) :
    bindValue index (.set item) path json = match bindValue index (.list item) path json with
      | .ok (.list values) => .ok (.set (Value.distinct values))
      | .ok other => .ok other
      | .error v => .error v := by
  rw [bindValue_of_item? rfl, bindValue_of_item? rfl]
  cases json with
  | array items =>
    dsimp only
    cases bindItems index item path 0 items <;> rfl
  | _ => rfl

theorem exists_of_bindValue_list {list : Value}
    (h : bindValue index (.list item) path json = .ok list) :
    ∃ bound : List (Json × Value), json = .array (bound.map (·.1)) ∧
      list = .list (bound.map (·.2)) ∧ ∀ pair ∈ bound, Binds index item pair.1 pair.2 := by
  rw [bindValue_of_item? rfl] at h
  cases json with
  | array items =>
    obtain ⟨values, made, rfl⟩ := of_map_eq_ok h
    obtain ⟨bound, rfl, rfl, each⟩ := exists_of_bindItems_eq_ok made
    refine ⟨bound, rfl, rfl, fun pair inside => ?_⟩
    obtain ⟨_, made⟩ := each pair inside
    exact binds_of_bindValue made
  | _ => cases h

end Items

/-- A set is bound exactly where a list is, or refused for the same violation. Of the values of the
list it keeps the first of those that are the same, so that items that say the same, however they
are written, are one of its items. -/
theorem bindValue_set (index : ShapeIndex) (item : Shape) (path : Path) (json : Json) :
    ((∃ set, bindValue index (.set item) path json = .ok set) ↔
        ∃ list, bindValue index (.list item) path json = .ok list) ∧
      (∀ v, bindValue index (.set item) path json = .error v ↔
        bindValue index (.list item) path json = .error v) ∧
      ∀ list, bindValue index (.list item) path json = .ok list →
        ∃ (bound : List (Json × Value)) (kept : List Value), json = .array (bound.map (·.1)) ∧
          list = .list (bound.map (·.2)) ∧
          bindValue index (.set item) path json = .ok (.set kept) ∧
          Value.Keeps (bound.map (·.2)) kept ∧
          (json.KeysDistinct → ∀ pair ∈ bound, ∀ other ∈ bound, SaysSame index item pair.1 other.1 →
            ∃ first, kept.filter (Value.same · pair.2) = [first] ∧
              kept.filter (Value.same · other.2) = [first]) := by
  rw [bindValue_set_eq]
  cases outcome : bindValue index (.list item) path json with
  | error v => exact ⟨iff_of_false nofun nofun, fun _ => .rfl, nofun⟩
  | ok list =>
    obtain ⟨bound, rfl, rfl, binds⟩ := exists_of_bindValue_list outcome
    refine ⟨iff_of_true ⟨_, rfl⟩ ⟨_, rfl⟩, fun v => iff_of_false nofun nofun, ?_⟩
    rintro _ ⟨⟩
    have refl : ∀ value ∈ bound.map (·.2), Value.same value value = true := by
      intro value inside
      obtain ⟨pair, member, rfl⟩ := List.mem_map.1 inside
      exact (binds pair member).same_self
    have keeps := Value.keeps_distinct refl
    refine ⟨bound, _, rfl, rfl, rfl, keeps, fun distinct pair inside other member h => ?_⟩
    have alike : Value.same pair.2 other.2 = true :=
      h.boundSame (distinct.items _ (List.mem_map_of_mem inside))
        (distinct.items _ (List.mem_map_of_mem member)) _ _ (binds pair inside) (binds other member)
    obtain ⟨first, only⟩ := keeps.once _ (List.mem_map_of_mem inside)
    refine ⟨first, only, Eq.trans (List.filter_congr fun value _ => ?_) only⟩
    exact Bool.eq_iff_iff.2 ⟨fun same => Value.same_trans same (Value.same_symm alike),
      fun same => Value.same_trans same alike⟩

def brewing : ObjectShape :=
  ⟨"Brewing", [⟨"minutes", .number .f64, none, false⟩, ⟨"note", .string, none, true⟩]⟩

def fourMinutes : Finite .double :=
  ⟨false, 4 * Nat.pow 2 1074, by decide +kernel⟩

def tea : Json :=
  .object [("minutes", .number (.integer 4 (by decide)))]

def teaOtherwise : Json :=
  .object [("note", .null), ("leaves", .string "green"), ("minutes", .number (.float fourMinutes))]

def teaValue : Value :=
  .object [("minutes", .number (.finite fourMinutes)), ("note", .null)]

theorem brewing_binds {members : List (String × Json)} {n : Json.Number}
    (given : Json.member? "minutes" members = some (.number n))
    (without : Json.member? "note" members = none) (four : n.toDouble = .finite fourMinutes) :
    Binds ⟨[brewing]⟩ (.ref "Brewing") (.object members) teaValue := by
  have within : FloatKind.f64.contains n.toDouble = true := by
    rw [four]
    decide +kernel
  have minutes : Binds ⟨[brewing]⟩ (.number .f64) (.number n) (.number (.finite fourMinutes)) :=
    four ▸ (BindsPlain.number within).binds rfl
  refine @Binds.fields ⟨[brewing]⟩ (.ref "Brewing") brewing members
    (brewing.fields.zip [.number (.finite fourMinutes), .null]) rfl rfl ?_ ?_
  · refine List.forall_mem_cons.2
      ⟨fun missing => ?_, List.forall_mem_singleton.2 fun _ => ⟨rfl, rfl⟩⟩
    cases given.symm.trans missing
  · refine List.forall_mem_cons.2
      ⟨fun json found => ?_, List.forall_mem_singleton.2 fun json found => ?_⟩
    · cases given.symm.trans found
      exact minutes
    · cases without.symm.trans found

theorem tea_list_binds : Binds ⟨[brewing]⟩ (.list (.ref "Brewing")) (.array [tea, teaOtherwise])
    (.list [teaValue, teaValue]) := by
  have first : Binds ⟨[brewing]⟩ (.ref "Brewing") tea teaValue :=
    brewing_binds rfl rfl (by decide +kernel)
  have second : Binds ⟨[brewing]⟩ (.ref "Brewing") teaOtherwise teaValue :=
    brewing_binds rfl rfl rfl
  exact @Binds.items ⟨[brewing]⟩ (.list (.ref "Brewing")) (.ref "Brewing")
    [(tea, teaValue), (teaOtherwise, teaValue)] rfl
    (List.forall_mem_cons.2 ⟨first, List.forall_mem_singleton.2 second⟩)

theorem tea_saysSame : SaysSame ⟨[brewing]⟩ (.ref "Brewing") tea teaOtherwise := by
  refine ⟨.object [("note", .null), ("leaves", .string "green"),
    ("minutes", .number (.integer 4 (by decide)))], ?_, ?_⟩
  · exact .of_givesAlike rfl (List.forall_mem_cons.2
      ⟨.of_lookup rfl (Interchangeable.refl _), List.forall_mem_singleton.2 ⟨by decide, nofun⟩⟩)
  · have four : fourMinutes.toInt? = some 4 := by decide +kernel
    refine @Json.Renumbered.object [("note", .null, .null),
      ("leaves", .string "green", .string "green"), ("minutes", .number (.integer 4 (by decide)),
        .number (.float fourMinutes))] ?_
    simpa using ⟨.same _, .same _, .number (Finite.toInt?_eq_some_iff_value.1 four).symm⟩

theorem tea_kept_once : ∃ (kept : List Value) (first : Value),
    bindValue ⟨[brewing]⟩ (.set (.ref "Brewing")) (.argument "drinks")
        (.array [tea, teaOtherwise]) = .ok (.set kept) ∧
      Value.Keeps [teaValue, teaValue] kept ∧ kept.filter (Value.same · teaValue) = [first] := by
  obtain ⟨bound, kept, array, list, set, keeps, once⟩ :=
    (bindValue_set ⟨[brewing]⟩ (.ref "Brewing") (.argument "drinks")
      (.array [tea, teaOtherwise])).2.2 _ (tea_list_binds.bindValue _)
  have distinct : (Json.array [tea, teaOtherwise]).KeysDistinct :=
    .array (by simpa using ⟨.object (by decide) (by simpa using .flat rfl),
      .object (by decide) (by simpa using ⟨.flat rfl, .flat rfl, .flat rfl⟩)⟩)
  have pairs : bound = [(tea, teaValue), (teaOtherwise, teaValue)] := by
    have whole : (bound.map (·.1)).zip (bound.map (·.2)) = bound :=
      List.zip_map'.trans (List.map_id _)
    rw [← Json.array.inj array, ← Value.list.inj list] at whole
    exact whole.symm
  subst pairs
  obtain ⟨first, only, -⟩ := once distinct _ List.mem_cons_self _
    (List.mem_cons_of_mem _ List.mem_cons_self) tea_saysSame
  exact ⟨kept, first, set, keeps, only⟩

end ToolChat
