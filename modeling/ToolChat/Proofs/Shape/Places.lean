import ToolChat.Proofs.Shape.Occurrence
import ToolChat.Proofs.Shape.Reach

/-!
Where a name finds its record type.

The places of record types in some roots are listed depth first and in declaration order. A walk
does not go below a record type whose name is taken, so a place counts if each record type around it
is the one that its own name resolves to, and a name resolves to the record type at the first place
of this name that counts. If record types of one name are the same, then all places count.
-/

set_option autoImplicit false

namespace ToolChat

def FirstWith {α : Type} (P : α → Prop) (list : List α) (a : α) : Prop :=
  ∃ before after, list = before ++ a :: after ∧ P a ∧ ∀ earlier ∈ before, ¬P earlier

namespace FirstWith

variable {α β : Type} {P : α → Prop} {list other : List α} {a : α}

theorem cons_self (has : P a) : FirstWith P (a :: list) a :=
  ⟨[], list, rfl, has, List.forall_mem_nil _⟩

theorem append_right (h : FirstWith P list a) : FirstWith P (list ++ other) a := by
  obtain ⟨before, after, rfl, has, earlier⟩ := h
  exact ⟨before, after ++ other, by rw [List.append_assoc, List.cons_append], has, earlier⟩

theorem append_left (none : ∀ b ∈ other, ¬P b) (h : FirstWith P list a) :
    FirstWith P (other ++ list) a := by
  obtain ⟨before, after, rfl, has, earlier⟩ := h
  refine ⟨other ++ before, after, (List.append_assoc ..).symm, has, ?_⟩
  exact List.forall_mem_append.2 ⟨none, earlier⟩

theorem cons {b : α} (other : ¬P b) (h : FirstWith P list a) : FirstWith P (b :: list) a :=
  h.append_left (List.forall_mem_singleton.2 other)

theorem map {Q : β → Prop} {f : α → β} (same : ∀ b, Q (f b) ↔ P b) (h : FirstWith P list a) :
    FirstWith Q (list.map f) (f a) := by
  obtain ⟨before, after, rfl, has, earlier⟩ := h
  refine ⟨before.map f, after.map f, by rw [List.map_append, List.map_cons], (same a).2 has, ?_⟩
  intro b inside
  obtain ⟨c, early, rfl⟩ := List.mem_map.1 inside
  rw [same]
  exact earlier c early

theorem mem (h : FirstWith P list a) : a ∈ list := by
  obtain ⟨before, after, rfl, -⟩ := h
  exact List.mem_append_right _ List.mem_cons_self

theorem has (h : FirstWith P list a) : P a := by
  obtain ⟨-, -, -, has, -⟩ := h
  exact has

theorem find?_eq_some {p : α → Bool} (h : FirstWith P list a)
    (same : ∀ b ∈ list, p b = true ↔ P b) : list.find? p = some a := by
  obtain ⟨before, after, rfl, has, earlier⟩ := h
  refine List.find?_eq_some_iff_append.2 ⟨(same a (by simp)).2 has, before, after, rfl, ?_⟩
  intro b early
  rw [Bool.not_eq_true', ← Bool.not_eq_true, same b (List.mem_append_left _ early)]
  exact earlier b early

end FirstWith

/-- A place of a record type in a shape, and the record types around it from the outermost on. -/
structure Place where
  around : List ObjectShape
  object : ObjectShape

namespace Place

def within (outer : ObjectShape) (place : Place) : Place :=
  ⟨outer :: place.around, place.object⟩

/-- Each record type around the place is the one that its own name resolves to. -/
def Counts (index : ShapeIndex) (place : Place) : Prop :=
  ∀ outer ∈ place.around, index.resolve? outer.name = some outer

/-- The place counts, and a record type of the name stands there. -/
def Offers (index : ShapeIndex) (name : String) (place : Place) : Prop :=
  place.object.name = name ∧ place.Counts index

theorem counts_within {index : ShapeIndex} {outer : ObjectShape} {place : Place} :
    (place.within outer).Counts index ↔
      index.resolve? outer.name = some outer ∧ place.Counts index :=
  List.forall_mem_cons

end Place

mutual

def Shape.places : Shape → List Place
  | .object ⟨name, fields⟩ =>
    ⟨[], ⟨name, fields⟩⟩ :: (placesOf fields).map (.within ⟨name, fields⟩)
  | .list item | .set item | .map item => item.places
  | _ => []

def placesOf : List Field → List Place
  | [] => []
  | ⟨_, shape, _, _⟩ :: fields => shape.places ++ placesOf fields

end

def placesIn (roots : List Shape) : List Place :=
  roots.flatMap Shape.places

section Occurrence

variable {roots : List Shape}

mutual

theorem occurs_of_mem_places : (shape : Shape) →
    (∀ object, shape.head? = some object → Occurs roots object) → ∀ place ∈ shape.places,
      (∀ outer ∈ place.around, Occurs roots outer) ∧ Occurs roots place.object
  | .object ⟨name, fields⟩, has, place, inside => by
    have here : Occurs roots ⟨name, fields⟩ := has _ rfl
    rw [Shape.places] at inside
    rcases List.mem_cons.1 inside with rfl | below
    · exact ⟨List.forall_mem_nil _, here⟩
    · obtain ⟨inner, member, rfl⟩ := List.mem_map.1 below
      obtain ⟨around, standing⟩ :=
        occurs_of_mem_placesOf fields (fun _ part => .part here part) inner member
      exact ⟨List.forall_mem_cons.2 ⟨here, around⟩, standing⟩
  | .list item, has, place, inside | .set item, has, place, inside
  | .map item, has, place, inside => occurs_of_mem_places item has place inside
  | .integer _, _, _, inside | .number _, _, _, inside | .boolean, _, _, inside
  | .string, _, _, inside | .enumeration _, _, _, inside | .ref _, _, _, inside
  | .undescribed _, _, _, inside => by cases inside

theorem occurs_of_mem_placesOf : (fields : List Field) →
    (∀ part ∈ partsOf fields, Occurs roots part) → ∀ place ∈ placesOf fields,
      (∀ outer ∈ place.around, Occurs roots outer) ∧ Occurs roots place.object
  | [], _, _, inside => by cases inside
  | ⟨name, shape, description, nullable⟩ :: fields, has, place, inside => by
    rw [placesOf] at inside
    rcases List.mem_append.1 inside with first | later
    · exact occurs_of_mem_places shape
        (fun _ head => has _ (mem_partsOf List.mem_cons_self head)) place first
    · exact occurs_of_mem_placesOf fields
        (fun _ part => has _ (partsOf_subset_cons _ _ part)) place later

end

theorem occurs_of_mem_placesIn {place : Place} (h : place ∈ placesIn roots) :
    (∀ outer ∈ place.around, Occurs roots outer) ∧ Occurs roots place.object := by
  obtain ⟨root, inside, member⟩ := List.mem_flatMap.1 h
  exact occurs_of_mem_places root (fun _ head => .root inside head) place member

end Occurrence

namespace ShapeIndex

def Extends (before after : ShapeIndex) : Prop :=
  ∀ name object, before.resolve? name = some object → after.resolve? name = some object

section Extending

variable {index between after : ShapeIndex} {name : String}

theorem Extends.refl (index : ShapeIndex) : index.Extends index :=
  fun _ _ h => h

theorem Extends.trans (first : index.Extends between) (second : between.Extends after) :
    index.Extends after :=
  fun name object h => second name object (first name object h)

theorem contains_iff_exists : index.contains name = true ↔
    ∃ object, index.resolve? name = some object := by
  rw [contains_eq_isSome, Option.isSome_iff_exists]

theorem Extends.eq_none (grows : index.Extends after) (free : after.resolve? name = none) :
    index.resolve? name = none :=
  Option.eq_none_iff_forall_ne_some.2 fun object found => by
    cases free.symm.trans (grows name object found)

theorem resolve?_add_eq_some_iff {object found : ObjectShape} :
    (index.add object).resolve? name = some found ↔ index.resolve? name = some found ∨
      index.resolve? name = none ∧ object.name = name ∧ object = found := by
  have added : (index.add object).resolve? name =
      (index.resolve? name).or ([object].find? (·.name == name)) := List.find?_append
  rw [added, Option.or_eq_some_iff, List.find?_singleton]
  simp

theorem extends_add (object : ObjectShape) : index.Extends (index.add object) :=
  fun _ _ h => resolve?_add_eq_some_iff.2 (.inl h)

mutual

theorem extends_visit : (shape : Shape) → (index : ShapeIndex) → index.Extends (visit index shape)
  | .object ⟨name, fields⟩, index => by
    rw [visit]
    split
    · exact .refl index
    · exact (extends_add _).trans (extends_visitFields fields _)
  | .list item, index | .set item, index | .map item, index => extends_visit item index
  | .integer _, index | .number _, index | .boolean, index | .string, index
  | .enumeration _, index | .ref _, index | .undescribed _, index => .refl index

theorem extends_visitFields : (fields : List Field) → (index : ShapeIndex) →
    index.Extends (visitFields index fields)
  | [], index => .refl index
  | ⟨_, shape, _, _⟩ :: fields, index =>
    (extends_visit shape index).trans (extends_visitFields fields (visit index shape))

end

end Extending

/-- All names at places that count below a record type resolve. -/
def Settled (final index : ShapeIndex) (object : ObjectShape) : Prop :=
  ∀ place ∈ placesOf object.fields, place.Counts final →
    ∃ found, index.resolve? place.object.name = some found

/-- What an index resolves to is settled, but for the record types that the walk is inside of. -/
def SettledBut (final index : ShapeIndex) (entered : List ObjectShape) : Prop :=
  ∀ object, index.resolve? object.name = some object →
    object ∈ entered ∨ Settled final index object

/-- A walk through some places of what is in the end an index: the names at those that count
resolve, and what resolves only after the walk does so to the first of them. -/
structure Walks (final before after : ShapeIndex) (places : List Place) : Prop where
  covers : ∀ place ∈ places, place.Counts final →
    ∃ found, after.resolve? place.object.name = some found
  first : ∀ name object, after.resolve? name = some object →
    before.resolve? name = some object ∨ before.resolve? name = none ∧
      ∃ place, place.object = object ∧ FirstWith (Place.Offers final name) places place

section Walk

variable {final before between after : ShapeIndex} {places others : List Place}

theorem Settled.mono {object : ObjectShape} (h : Settled final before object)
    (grows : before.Extends after) : Settled final after object := by
  intro place inside counts
  obtain ⟨found, resolved⟩ := h place inside counts
  exact ⟨found, grows _ _ resolved⟩

theorem Walks.nil : Walks final before before [] where
  covers := nofun
  first _ _ h := .inl h

theorem Walks.append (first : Walks final before between places)
    (second : Walks final between after others) (starts : before.Extends between)
    (goes : between.Extends after) : Walks final before after (places ++ others) where
  covers place inside counts := by
    rcases List.mem_append.1 inside with early | late
    · obtain ⟨found, resolved⟩ := first.covers place early counts
      exact ⟨found, goes _ _ resolved⟩
    · exact second.covers place late counts
  first name object resolved := by
    rcases second.first name object resolved with old | ⟨new, place, here, offers⟩
    · rcases first.first name object old with old | ⟨new, place, here, offers⟩
      · exact .inl old
      · exact .inr ⟨new, place, here, offers.append_right⟩
    · refine .inr ⟨starts.eq_none new, place, here, offers.append_left ?_⟩
      rintro earlier inside ⟨rfl, counts⟩
      obtain ⟨found, known⟩ := first.covers earlier inside counts
      cases new.symm.trans known

/-- The walk passes over a record type whose name is taken. Nothing below it counts, unless it is
the one that has the name, and then all that counts below it has been met. -/
theorem walks_known (object : ObjectShape) {entered : List ObjectShape}
    (known : ∃ found, before.resolve? object.name = some found) (ends : before.Extends final)
    (settled : SettledBut final before entered) (outside : object ∉ entered) :
    Walks final before before
      (⟨[], object⟩ :: (placesOf object.fields).map (.within object)) where
  covers place inside counts := by
    rcases List.mem_cons.1 inside with rfl | below
    · exact known
    · obtain ⟨inner, member, rfl⟩ := List.mem_map.1 below
      obtain ⟨has, below_counts⟩ := Place.counts_within.1 counts
      obtain ⟨found, resolved⟩ := known
      cases has.symm.trans (ends _ _ resolved)
      rcases settled object resolved with entered | met
      · exact absurd entered outside
      · exact met inner member below_counts
  first _ _ h := .inl h

/-- The walk adds a record type whose name is free before it goes below it. -/
theorem walks_new (object : ObjectShape) (new : before.resolve? object.name = none)
    (below : Walks final (before.add object) after (placesOf object.fields))
    (goes : (before.add object).Extends after) (ends : after.Extends final) :
    Walks final before after (⟨[], object⟩ :: (placesOf object.fields).map (.within object)) := by
  have added : after.resolve? object.name = some object :=
    goes _ _ (resolve?_add_eq_some_iff.2 (.inr ⟨new, rfl, rfl⟩))
  have here := ends _ _ added
  refine ⟨fun place inside counts => ?_, fun name found resolved => ?_⟩
  · rcases List.mem_cons.1 inside with rfl | deeper
    · exact ⟨object, added⟩
    · obtain ⟨inner, member, rfl⟩ := List.mem_map.1 deeper
      exact below.covers inner member (Place.counts_within.1 counts).2
  · rcases below.first name found resolved with old | ⟨free, place, rfl, offers⟩
    · rcases resolve?_add_eq_some_iff.1 old with old | ⟨free, rfl, rfl⟩
      · exact .inl old
      · exact .inr ⟨free, ⟨[], object⟩, rfl, .cons_self ⟨rfl, List.forall_mem_nil _⟩⟩
    · have other : object.name ≠ name := by
        rintro rfl
        cases free.symm.trans (resolve?_add_eq_some_iff.2 (.inr ⟨new, rfl, rfl⟩))
      refine .inr ⟨(extends_add object).eq_none free, place.within object, rfl, ?_⟩
      refine .cons (fun offered => other offered.1) (offers.map fun inner => ?_)
      exact and_congr_right fun _ => Place.counts_within.trans (and_iff_right here)

theorem SettledBut.leave {object : ObjectShape} {entered : List ObjectShape}
    (inside : SettledBut final after (object :: entered))
    (below : Walks final before after (placesOf object.fields)) :
    SettledBut final after entered := by
  intro other resolved
  rcases inside other resolved with member | settled
  · rcases List.mem_cons.1 member with rfl | outer
    · exact .inr below.covers
    · exact .inl outer
  · exact .inr settled

theorem SettledBut.enter {object : ObjectShape} {entered : List ObjectShape}
    (h : SettledBut final before entered) :
    SettledBut final (before.add object) (object :: entered) := by
  intro other resolved
  rcases resolve?_add_eq_some_iff.1 resolved with old | ⟨-, -, rfl⟩
  · exact (h other old).imp (List.mem_cons_of_mem _) (·.mono (extends_add object))
  · exact .inl List.mem_cons_self

mutual

theorem walks_visit {final : ShapeIndex} : (shape : Shape) → (index : ShapeIndex) →
    (entered : List ObjectShape) → SettledBut final index entered →
    (∀ outer ∈ entered, sizeOf shape < sizeOf outer) → (visit index shape).Extends final →
      Walks final index (visit index shape) shape.places ∧
        SettledBut final (visit index shape) entered
  | .object ⟨name, fields⟩, index, entered, settled, smaller, ends => by
    rw [visit] at ends ⊢
    rw [Shape.places]
    split at ends
    · next known =>
      rw [if_pos known]
      refine ⟨walks_known ⟨name, fields⟩ (contains_iff_exists.1 known) ends settled ?_, settled⟩
      -- A record type is not inside of itself.
      intro member
      have size := smaller _ member
      simp only [Shape.object.sizeOf_spec] at size
      omega
    · next free =>
      rw [if_neg free]
      rw [contains_iff_exists, ← Option.ne_none_iff_exists', Classical.not_not] at free
      obtain ⟨walks, left⟩ := walks_visitFields fields (index.add ⟨name, fields⟩)
        (⟨name, fields⟩ :: entered) settled.enter (by
          refine List.forall_mem_cons.2 ⟨?_, fun outer member => ?_⟩
          · simp only [ObjectShape.mk.sizeOf_spec]
            omega
          · have size := smaller outer member
            simp only [Shape.object.sizeOf_spec, ObjectShape.mk.sizeOf_spec] at size
            omega) ends
      exact ⟨walks_new ⟨name, fields⟩ free walks (extends_visitFields fields _) ends,
        left.leave walks⟩
  | .list item, index, entered, settled, smaller, ends
  | .set item, index, entered, settled, smaller, ends
  | .map item, index, entered, settled, smaller, ends => by
    refine walks_visit item index entered settled (fun outer member => ?_) ends
    have size := smaller outer member
    simp only [Shape.list.sizeOf_spec, Shape.set.sizeOf_spec, Shape.map.sizeOf_spec] at size
    omega
  | .integer _, _, _, settled, _, _ | .number _, _, _, settled, _, _ | .boolean, _, _, settled, _, _
  | .string, _, _, settled, _, _ | .enumeration _, _, _, settled, _, _ | .ref _, _, _, settled, _, _
  | .undescribed _, _, _, settled, _, _ => ⟨.nil, settled⟩

theorem walks_visitFields {final : ShapeIndex} : (fields : List Field) → (index : ShapeIndex) →
    (entered : List ObjectShape) → SettledBut final index entered →
    (∀ outer ∈ entered, sizeOf fields < sizeOf outer) →
    (visitFields index fields).Extends final →
      Walks final index (visitFields index fields) (placesOf fields) ∧
        SettledBut final (visitFields index fields) entered
  | [], index, entered, settled, smaller, ends => ⟨.nil, settled⟩
  | ⟨name, shape, description, nullable⟩ :: fields, index, entered, settled, smaller, ends => by
    have goes := extends_visitFields fields (visit index shape)
    obtain ⟨first, between⟩ := walks_visit shape index entered settled (fun outer member => by
      have size := smaller outer member
      simp only [List.cons.sizeOf_spec, Field.mk.sizeOf_spec] at size
      omega) (goes.trans ends)
    obtain ⟨rest, left⟩ := walks_visitFields fields (visit index shape) entered between
      (fun outer member => by
        have size := smaller outer member
        simp only [List.cons.sizeOf_spec] at size
        omega) ends
    exact ⟨first.append rest (extends_visit shape index) goes, left⟩

end

end Walk

theorem extends_foldl_visit (roots : List Shape) (index : ShapeIndex) :
    index.Extends (roots.foldl visit index) := by
  induction roots generalizing index with
  | nil => exact .refl index
  | cons root roots ih => exact (extends_visit root index).trans (ih _)

private theorem walks_foldl_visit {final : ShapeIndex} (roots : List Shape) (index : ShapeIndex)
    (settled : SettledBut final index []) (ends : (roots.foldl visit index).Extends final) :
    Walks final index (roots.foldl visit index) (placesIn roots) := by
  induction roots generalizing index with
  | nil => exact .nil
  | cons root roots ih =>
    have goes := extends_foldl_visit roots (visit index root)
    obtain ⟨first, between⟩ :=
      walks_visit root index [] settled (List.forall_mem_nil _) (goes.trans ends)
    exact first.append (ih _ between ends) (extends_visit root index) goes

/-- Collecting some roots walks through their places. -/
theorem walks_collect (roots : List Shape) :
    Walks (collect roots) empty (collect roots) (placesIn roots) :=
  walks_foldl_visit roots empty nofun (.refl _)

variable {roots : List Shape}

theorem counts_of_namesAgree (agree : NamesAgree roots) {place : Place}
    (h : place ∈ placesIn roots) : place.Counts (collect roots) :=
  fun outer around => resolve?_collect agree ((occurs_of_mem_placesIn h).1 outer around)

/-- A name resolves exactly if it is that of a record type at a place that counts, and then to the
first of these. If record types of one name are the same, then it resolves to the first that occurs
at all. -/
theorem collect_resolves_first (roots : List Shape) (name : String) :
    ((∃ object, (collect roots).resolve? name = some object) ↔
        ∃ place ∈ placesIn roots, place.Offers (collect roots) name) ∧
      (∀ object, (collect roots).resolve? name = some object → ∃ place, place.object = object ∧
        FirstWith (Place.Offers (collect roots) name) (placesIn roots) place) ∧
      (NamesAgree roots → (collect roots).resolve? name =
        ((placesIn roots).find? (·.object.name == name)).map (·.object)) := by
  have walks := walks_collect roots
  have first : ∀ object, (collect roots).resolve? name = some object → ∃ place,
      place.object = object ∧
        FirstWith (Place.Offers (collect roots) name) (placesIn roots) place := by
    intro object resolved
    rcases walks.first name object resolved with none | ⟨-, found⟩
    · cases none
    · exact found
  refine ⟨⟨?_, ?_⟩, first, fun agree => ?_⟩
  · rintro ⟨object, resolved⟩
    obtain ⟨place, -, offers⟩ := first object resolved
    exact ⟨place, offers.mem, offers.has⟩
  · rintro ⟨place, inside, rfl, counts⟩
    exact walks.covers place inside counts
  · cases resolved : (collect roots).resolve? name with
    | some object =>
      obtain ⟨place, rfl, offers⟩ := first object resolved
      rw [offers.find?_eq_some fun other inside => ?_, Option.map_some]
      rw [beq_iff_eq, Place.Offers, and_iff_left (counts_of_namesAgree agree inside)]
    | none =>
      rw [List.find?_eq_none.2, Option.map_none]
      intro place inside same
      obtain ⟨found, known⟩ := walks.covers place inside (counts_of_namesAgree agree inside)
      rw [beq_iff_eq.1 same, resolved] at known
      cases known

/-- The walk passes over the second shape of the name, and over the record type in it. -/
def rivalTeams : List Shape :=
  [.object ⟨"Team", []⟩, .object ⟨"Team", [⟨"lead", .object ⟨"Person", []⟩, none, false⟩]⟩]

theorem rivalTeams_lack_person :
    (∃ place ∈ placesIn rivalTeams, place.object.name = "Person") ∧
      (collect rivalTeams).resolve? "Person" = none := by
  refine ⟨⟨⟨[⟨"Team", [⟨"lead", .object ⟨"Person", []⟩, none, false⟩]⟩], ⟨"Person", []⟩⟩, ?_, rfl⟩,
    rfl⟩
  simp [placesIn, rivalTeams, Shape.places, placesOf, Place.within]

def flat : ObjectShape :=
  ⟨"Flat", [⟨"city", .string, none, false⟩]⟩

def tenant : ObjectShape :=
  ⟨"Tenant", [⟨"home", .object flat, none, false⟩, ⟨"previous", .list (.object flat), none, true⟩,
    ⟨"landlord", .ref "Tenant", none, true⟩]⟩

theorem tenant_namesAgree : NamesAgree [.map (.object tenant)] := by
  have only : ∀ object, Occurs [.map (.object tenant)] object →
      object = tenant ∨ object = flat := by
    intro object occurs
    induction occurs with
    | root root head =>
      cases List.mem_singleton.1 root
      cases head
      exact .inl rfl
    | part _ inside ih =>
      rcases ih with rfl | rfl
      · right
        simpa [tenant, partsOf, Shape.head?] using inside
      · simp [flat, partsOf, Shape.head?] at inside
  intro first second one other same
  rcases only first one with rfl | rfl <;> rcases only second other with rfl | rfl
  · rfl
  · exact absurd same (by decide)
  · exact absurd same (by decide)
  · rfl

theorem flat_resolves_first : NamesAgree [.map (.object tenant)] ∧
    (placesIn [.map (.object tenant)]).map (·.object) = [tenant, flat, flat] ∧
    (collect [.map (.object tenant)]).resolve? "Flat" = some flat :=
  ⟨tenant_namesAgree, rfl, ((collect_resolves_first [.map (.object tenant)] "Flat").2.2
    tenant_namesAgree).trans rfl⟩

end ShapeIndex

end ToolChat
