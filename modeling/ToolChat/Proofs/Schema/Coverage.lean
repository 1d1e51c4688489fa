import Mathlib.Data.List.Nodup
import ToolChat.Proofs.Schema.Unfolding
import ToolChat.Proofs.Shape.Reach

/-!
What schema generation has looked at.

Generation follows the fields of a record type once for each name, and a check of map values follows
those that were not followed before. The names that were followed are a closed family, so that
parameters have a schema exactly if everything that they reach is sound.
-/

set_option autoImplicit false

namespace ToolChat

variable {index : ShapeIndex}

/-- The names that a check need not follow: those settled before it, and those visited by it. -/
def Seen (settled : String → Bool) (visited : List String) (name : String) : Prop :=
  settled name = true ∨ name ∈ visited

theorem Seen.mono {settled : String → Bool} {visited after : List String} (h : visited ⊆ after)
    (name : String) : Seen settled visited name → Seen settled after name :=
  Or.imp_right fun inside => h inside

/-- The record types that a check visits have their parts among the names that it has seen. -/
def Follows (index : ShapeIndex) (settled : String → Bool) (visited after : List String) : Prop :=
  ∀ name ∈ after, name ∈ visited ∨ ∃ object, index.resolve? name = some object ∧
    ∀ field ∈ object.fields, field.shape.Within index (Seen settled after) (Seen settled after)

theorem Follows.trans {settled : String → Bool} {visited between after : List String}
    (first : Follows index settled visited between) (rest : Follows index settled between after)
    (grows : between ⊆ after) : Follows index settled visited after := by
  intro name inside
  rcases rest name inside with before | found
  · rcases first name before with old | ⟨object, resolved, parts⟩
    · exact .inl old
    · refine .inr ⟨object, resolved, fun field hf => ?_⟩
      exact (parts field hf).mono (Seen.mono grows) (Seen.mono grows)
  · exact .inr found

theorem Follows.enter {settled : String → Bool} {visited after : List String} {name : String}
    {object : ObjectShape} (follows : Follows index settled (name :: visited) after)
    (resolved : index.resolve? name = some object)
    (parts : ∀ field ∈ object.fields,
      field.shape.Within index (Seen settled after) (Seen settled after)) :
    Follows index settled visited after := by
  intro other inside
  rcases follows other inside with before | found
  · rcases List.mem_cons.1 before with rfl | old
    · exact .inr ⟨object, resolved, parts⟩
    · exact .inl old
  · exact .inr found

theorem resolved_fields (complete : index.Complete) {name : String} {object : ObjectShape}
    (h : index.resolve? name = some object) :
    (SchemaTask.fields [] object.fields).Resolved index :=
  fun part inside => complete name object h part inside

section Names

variable {settled : String → Bool} {visited : List String} {name : String}
  (unsettled : ¬settled name = true) (new : name ∉ visited)
include unsettled new

theorem checkBindable_unresolved (missing : index.resolve? name = none) :
    checkBindable index settled visited (.ref name) = .error (.unresolvedReference name) := by
  rw [checkBindable, if_neg unsettled, dif_neg new]
  split
  · rfl
  · next found =>
    rw [missing] at found
    cases found

theorem checkBindable_resolved {target : ObjectShape} (found : index.resolve? name = some target) :
    checkBindable index settled visited (.ref name) =
      match checkFieldsBindable index settled (name :: visited) target.fields with
      | .ok after => .ok ⟨after.1, fun _ h => after.2 (List.mem_cons_of_mem _ h)⟩
      | .error e => .error e := by
  rw [checkBindable, if_neg unsettled, dif_neg new]
  split
  · next missing =>
    rw [found] at missing
    cases missing
  · next again =>
    rw [found] at again
    cases again
    rfl

end Names

theorem within_of_checkBindable (complete : index.Complete) (settled : String → Bool) :
    (∀ visited shape after, checkBindable index settled visited shape = .ok after →
      (SchemaTask.shape shape).Resolved index →
        shape.Within index (Seen settled after) (Seen settled after) ∧
          Follows index settled visited after) ∧
    ∀ visited fields after, checkFieldsBindable index settled visited fields = .ok after →
      (SchemaTask.fields [] fields).Resolved index →
        (∀ field ∈ fields,
          field.shape.Within index (Seen settled after) (Seen settled after)) ∧
          Follows index settled visited after := by
  have same : ∀ visited, Follows index settled visited visited :=
    fun visited name inside => .inl inside
  apply checkBindable.mutual_induct index settled
    (fun visited shape => ∀ after, checkBindable index settled visited shape = .ok after →
      (SchemaTask.shape shape).Resolved index →
        shape.Within index (Seen settled after) (Seen settled after) ∧
          Follows index settled visited after)
    (fun visited fields => ∀ after, checkFieldsBindable index settled visited fields = .ok after →
      (SchemaTask.fields [] fields).Resolved index →
        (∀ field ∈ fields,
          field.shape.Within index (Seen settled after) (Seen settled after)) ∧
          Follows index settled visited after)
  case case1 | case2 | case5 =>
    intro visited kind after h known
    rw [checkBindable] at h
    cases h
    exact ⟨trivial, same visited⟩
  case case3 | case4 =>
    intro visited after h known
    rw [checkBindable] at h
    cases h
    exact ⟨trivial, same visited⟩
  case case6 | case7 | case8 =>
    intro visited item ih after h known
    rw [checkBindable] at h
    exact ih after h known
  case case9 =>
    intro visited name fields seen after h known
    rw [checkBindable, if_pos seen] at h
    cases h
    have resolved := known ⟨name, fields⟩ (List.mem_singleton_self _)
    exact ⟨⟨.inr seen, resolved⟩, same visited⟩
  case case10 =>
    intro visited name fields new between followed ih after h known
    rw [checkBindable, if_neg new, followed] at h
    cases h
    have resolved := known ⟨name, fields⟩ (List.mem_singleton_self _)
    obtain ⟨parts, follows⟩ := ih between followed (resolved_fields complete resolved)
    have inside : name ∈ between.1 := between.2 List.mem_cons_self
    exact ⟨⟨.inr inside, resolved⟩, follows.enter resolved parts⟩
  case case11 =>
    intro visited name fields new e failed _ after h known
    rw [checkBindable, if_neg new, failed] at h
    cases h
  case case12 =>
    intro visited name known after h _
    rw [checkBindable, if_pos known] at h
    cases h
    exact ⟨.inl known, same visited⟩
  case case13 =>
    intro visited name unsettled seen after h _
    rw [checkBindable, if_neg unsettled, dif_pos seen] at h
    cases h
    exact ⟨.inr seen, same visited⟩
  case case14 =>
    intro visited name unsettled new missing after h _
    rw [checkBindable_unresolved unsettled new missing] at h
    cases h
  case case15 =>
    intro visited name unsettled new target found between followed ih after h _
    rw [checkBindable_resolved unsettled new found, followed] at h
    cases h
    obtain ⟨parts, follows⟩ := ih between followed (resolved_fields complete found)
    have inside : name ∈ between.1 := between.2 List.mem_cons_self
    exact ⟨.inr inside, follows.enter found parts⟩
  case case16 =>
    intro visited name unsettled new target found e failed _ after h _
    rw [checkBindable_resolved unsettled new found, failed] at h
    cases h
  case case17 =>
    intro visited name after h _
    rw [checkBindable] at h
    cases h
  case case18 =>
    intro visited after h _
    rw [checkFieldsBindable] at h
    cases h
    exact ⟨nofun, same visited⟩
  case case19 =>
    intro visited name shape description nullable fields e failed _ after h _
    rw [checkFieldsBindable, failed] at h
    cases h
  case case20 =>
    intro visited name shape description nullable fields between first after rest ihFirst ihRest
      whole h known
    rw [checkFieldsBindable, first] at h
    dsimp only at h
    rw [rest] at h
    cases h
    -- What the first field was followed to stays among what is seen, as visited names only grow.
    obtain ⟨head, before⟩ := ihFirst between first known.head
    obtain ⟨tail, later⟩ := ihRest after rest known.tail
    refine ⟨?_, before.trans later after.2⟩
    refine List.forall_mem_cons.2 ⟨?_, tail⟩
    exact head.mono (Seen.mono after.2) (Seen.mono after.2)
  case case21 =>
    intro visited name shape description nullable fields between first e failed _ _ after h _
    rw [checkFieldsBindable, first] at h
    dsimp only at h
    rw [failed] at h
    cases h

theorem undeclared_of_checkBindable (settled : String → Bool) :
    (∀ visited shape e, checkBindable index settled visited shape = .error e →
      ∃ reached, shape.Reaches index reached ∧ ¬reached.Declared index) ∧
    ∀ visited fields e, checkFieldsBindable index settled visited fields = .error e →
      ∃ field ∈ fields, ∃ reached, field.shape.Reaches index reached ∧
        ¬reached.Declared index := by
  have below : ∀ {shape next : Shape}, shape.Leads index next →
      (∃ reached, next.Reaches index reached ∧ ¬reached.Declared index) →
        ∃ reached, shape.Reaches index reached ∧ ¬reached.Declared index := by
    rintro shape next step ⟨reached, path, undeclared⟩
    exact ⟨reached, .head step path, undeclared⟩
  apply checkBindable.mutual_induct index settled
    (fun visited shape => ∀ e, checkBindable index settled visited shape = .error e →
      ∃ reached, shape.Reaches index reached ∧ ¬reached.Declared index)
    (fun visited fields => ∀ e, checkFieldsBindable index settled visited fields = .error e →
      ∃ field ∈ fields, ∃ reached, field.shape.Reaches index reached ∧ ¬reached.Declared index)
  case case1 | case2 | case5 =>
    intro visited kind e h
    rw [checkBindable] at h
    cases h
  case case3 | case4 =>
    intro visited e h
    rw [checkBindable] at h
    cases h
  case case6 | case7 =>
    intro visited item ih e h
    rw [checkBindable] at h
    exact below (.part (.item rfl)) (ih e h)
  case case8 =>
    intro visited value ih e h
    rw [checkBindable] at h
    exact below .value (ih e h)
  case case9 =>
    intro visited name fields seen e h
    rw [checkBindable, if_pos seen] at h
    cases h
  case case10 =>
    intro visited name fields new between followed _ e h
    rw [checkBindable, if_neg new, followed] at h
    cases h
  case case11 =>
    intro visited name fields new cause failed ih e h
    obtain ⟨field, inside, undeclared⟩ := ih cause failed
    have target : Shape.target? index (.object ⟨name, fields⟩) = some ⟨name, fields⟩ := rfl
    exact below (.part (.field target inside)) undeclared
  case case12 =>
    intro visited name known e h
    rw [checkBindable, if_pos known] at h
    cases h
  case case13 =>
    intro visited name unsettled seen e h
    rw [checkBindable, if_neg unsettled, dif_pos seen] at h
    cases h
  case case14 =>
    intro visited name unsettled new missing e h
    have undeclared : ¬(Shape.ref name).Declared index := by
      intro declared
      have found := (index.contains_eq_isSome name).symm.trans declared
      rw [missing] at found
      cases found
    exact ⟨.ref name, .refl, undeclared⟩
  case case15 =>
    intro visited name unsettled new target found between followed _ e h
    rw [checkBindable_resolved unsettled new found, followed] at h
    cases h
  case case16 =>
    intro visited name unsettled new target found cause failed ih e h
    obtain ⟨field, inside, undeclared⟩ := ih cause failed
    have named : Shape.target? index (.ref name) = some target := found
    exact below (.part (.field named inside)) undeclared
  case case17 =>
    intro visited name e h
    exact ⟨.undescribed name, .refl, id⟩
  case case18 =>
    intro visited e h
    rw [checkFieldsBindable] at h
    cases h
  case case19 =>
    intro visited name shape description nullable fields cause failed ih e h
    exact ⟨_, List.mem_cons_self, ih cause failed⟩
  case case20 =>
    intro visited name shape description nullable fields between first after rest _ _ e h
    rw [checkFieldsBindable, first] at h
    dsimp only at h
    rw [rest] at h
    cases h
  case case21 =>
    intro visited name shape description nullable fields between first cause failed _ ih e h
    obtain ⟨field, inside, undeclared⟩ := ih cause failed
    exact ⟨field, List.mem_cons_of_mem _ inside, undeclared⟩

theorem not_nodup_of_any {done : List (String × Schema)} {name : String}
    (twice : (done.any fun pair => pair.1 == name) = true) (later : List String) :
    ¬(done.map (·.1) ++ name :: later).Nodup := by
  obtain ⟨pair, inside, same⟩ := List.any_eq_true.1 twice
  have old : name ∈ done.map (·.1) := beq_iff_eq.1 same ▸ List.mem_map_of_mem inside
  intro distinct
  exact (List.nodup_append.1 distinct).2.2 name old name List.mem_cons_self rfl

/-- Generation fails only for a shape that is not sound. -/
theorem unsound_of_generateShape :
    (∀ expanding shape memory e after,
      generateShape index expanding shape memory = (.error e, after) → ¬shape.Sound index) ∧
    ∀ expanding owner done fields memory e after,
      generateFields index expanding owner done fields memory = (.error e, after) →
        (∀ field ∈ fields, field.shape.Sound index) →
          ¬(done.map (·.1) ++ fields.map (·.name)).Nodup := by
  -- The parts of a sound shape are sound, so an expansion can only fail for a repeated name.
  have expanded : ∀ {shape : Shape} {object : ObjectShape}, shape.target? index = some object →
      ((∀ field ∈ object.fields, field.shape.Sound index) →
        ¬(([] : List (String × Schema)).map (·.1) ++ object.fields.map (·.name)).Nodup) →
      ¬shape.Sound index := by
    intro shape object target twice sound
    have parts : ∀ field ∈ object.fields, field.shape.Sound index :=
      fun field inside => sound.part (.field target inside)
    exact twice parts (sound.distinct shape object .refl target)
  apply generateShape.mutual_induct index
    (fun expanding shape memory => ∀ e after,
      generateShape index expanding shape memory = (.error e, after) → ¬shape.Sound index)
    (fun expanding owner done fields memory => ∀ e after,
      generateFields index expanding owner done fields memory = (.error e, after) →
        (∀ field ∈ fields, field.shape.Sound index) →
          ¬(done.map (·.1) ++ fields.map (·.name)).Nodup)
  case case1 | case2 | case5 =>
    intro expanding memory kind e after h
    rw [generateShape] at h
    cases h
  case case3 | case4 =>
    intro expanding memory e after h
    rw [generateShape] at h
    cases h
  case case6 | case8 =>
    intro expanding memory item items between made _ e after h
    rw [generateShape, made] at h
    cases h
  case case7 | case9 =>
    intro expanding memory item cause between failed ih e after h sound
    exact ih cause between failed (sound.part (.item rfl))
  case case10 =>
    intro expanding memory value settled visited bindable e after h
    rw [generateShape, bindable] at h
    cases h
  case case11 =>
    intro expanding memory value settled cause refused e after h sound
    obtain ⟨reached, path, undeclared⟩ :=
      (undeclared_of_checkBindable settled).1 [] value cause refused
    exact undeclared (sound.declared reached (.head .value path))
  case case12 =>
    intro expanding memory name fields within reference between _ e after h
    rw [generateShape, if_pos within] at h
    cases h
  case case13 =>
    intro expanding memory name fields outside found built e after h
    rw [generateShape, if_neg outside, built] at h
    cases h
  case case14 =>
    intro expanding memory name fields outside new ih e after h
    rw [generateShape, if_neg outside, new] at h
    have target : Shape.target? index (.object ⟨name, fields⟩) = some ⟨name, fields⟩ := rfl
    obtain ⟨cause, between, failed⟩ := settleObject_eq_error h
    exact expanded target (ih cause between failed)
  case case15 =>
    intro expanding memory name within reference between _ e after h
    rw [generateShape, dif_pos within] at h
    cases h
  case case16 =>
    intro expanding memory name outside found built e after h
    rw [generateShape, dif_neg outside, built] at h
    cases h
  case case17 =>
    intro expanding memory name outside new missing e after h sound
    have found := (index.contains_eq_isSome name).symm.trans (sound.declared _ .refl)
    rw [missing] at found
    cases found
  case case18 =>
    intro expanding memory name outside new target found ih e after h
    rw [generateShape_resolved outside new found] at h
    have named : Shape.target? index (.ref name) = some target := found
    obtain ⟨cause, between, failed⟩ := settleObject_eq_error h
    exact expanded named (ih cause between failed)
  case case19 =>
    intro expanding memory name e after h sound
    exact sound.declared _ .refl
  case case20 =>
    intro expanding owner done memory e after h
    rw [generateFields] at h
    cases h
  case case21 =>
    intro expanding owner done memory name shape description nullable fields twice e after h _
    exact not_nodup_of_any twice _
  case case22 =>
    intro expanding owner done memory name shape description nullable fields new cause between
      failed ih e after h sound
    exact absurd (sound _ List.mem_cons_self) (ih cause between failed)
  case case23 =>
    intro expanding owner done memory name shape description nullable fields new first between made
      _ ih e after h sound
    rw [generateFields, if_neg new, made] at h
    have rest := ih e after h fun field inside => sound field (List.mem_cons_of_mem _ inside)
    rw [List.map_append, List.append_assoc] at rest
    exact rest

/-- The names of the record types that are being expanded or were expanded. -/
def Memory.Known (memory : Memory) (expanding : List String) (name : String) : Prop :=
  name ∈ expanding ∨ ∃ schema, memory.built? name = some schema

theorem Memory.known_cons (memory : Memory) (name : String) (expanding : List String) :
    memory.Known (name :: expanding) =
      fun other => other = name ∨ memory.Known expanding other := by
  funext other
  simp only [Known, List.mem_cons, or_assoc]

theorem Memory.known_settle (memory : Memory) (name : String) (schema : Schema)
    (expanding : List String) :
    (memory.settle name schema).Known expanding = memory.Known (name :: expanding) := by
  have kept : ∀ other, (memory.settle name schema).built? other =
      if other == name then some schema else memory.built? other := by
    intro other
    have pushed : (memory.settle name schema).built? other =
        ((name, schema) :: memory.built).lookup other := rfl
    rw [pushed, List.lookup_cons]
    cases other == name <;> rfl
  funext other
  rw [known_cons]
  simp only [Known, kept, beq_iff_eq]
  by_cases same : other = name
  · simp [same]
  · simp [same]

namespace Shape

variable {outer inner : String → Prop}

theorem within_of_plain {shape : Shape} {schema : Schema} (plain : shape.plain? = some schema) :
    shape.Within index outer inner := by
  cases shape <;> cases plain <;> exact trivial

theorem within_of_item {shape item : Shape} (items : shape.item? = some item)
    (within : item.Within index outer inner) : shape.Within index outer inner := by
  cases shape with
  | list inside =>
    cases items
    exact within
  | set inside =>
    cases items
    exact within
  | _ => cases items

theorem within_of_typeName {shape : Shape} {name : String} (named : shape.typeName? = some name)
    (known : (SchemaTask.shape shape).Resolved index) (inside : outer name) :
    shape.Within index outer inner := by
  cases shape with
  | object record =>
    cases named
    exact ⟨inside, known record (List.mem_singleton_self _)⟩
  | ref other =>
    cases named
    exact inside
  | _ => cases named

theorem typeName?_of_target? {shape : Shape} {object : ObjectShape}
    (target : shape.target? index = some object) : shape.typeName? = some object.name := by
  cases shape with
  | object record =>
    cases target
    rfl
  | ref name =>
    have resolved : index.resolve? name = some object := target
    obtain ⟨-, rfl⟩ := ShapeIndex.mem_of_resolve?_eq_some resolved
    rfl
  | _ => cases target

theorem Family.enter {pending : List String} (family : Family index pending outer inner)
    (name : String) : Family index (name :: pending) (fun other => other = name ∨ outer other)
      (fun other => other = name ∨ inner other) where
  subset other := Or.imp_right (family.subset other)
  outer other h := by
    rcases h with rfl | h
    · exact .inl List.mem_cons_self
    · rcases family.outer other h with before | ⟨object, resolved, distinct, parts⟩
      · exact .inl (List.mem_cons_of_mem _ before)
      · refine .inr ⟨object, resolved, distinct, fun field inside => ?_⟩
        exact (parts field inside).mono (fun _ => .inr) fun _ => .inr
  inner other h := by
    rcases h with rfl | h
    · exact .inl List.mem_cons_self
    · rcases family.inner other h with before | ⟨object, resolved, parts⟩
      · exact .inl (List.mem_cons_of_mem _ before)
      · refine .inr ⟨object, resolved, fun field inside => ?_⟩
        exact (parts field inside).mono (fun _ => .inr) fun _ => .inr

theorem Family.leave {pending : List String} {object : ObjectShape}
    (family : Family index (object.name :: pending) outer inner)
    (resolved : index.resolve? object.name = some object)
    (distinct : (object.fields.map (·.name)).Nodup)
    (parts : ∀ field ∈ object.fields, field.shape.Within index outer inner) :
    Family index pending outer inner where
  subset := family.subset
  outer name h := by
    rcases family.outer name h with before | found
    · rcases List.mem_cons.1 before with rfl | before
      · exact .inr ⟨object, resolved, distinct, parts⟩
      · exact .inl before
    · exact .inr found
  inner name h := by
    rcases family.inner name h with before | found
    · rcases List.mem_cons.1 before with rfl | before
      · refine .inr ⟨object, resolved, fun field inside => ?_⟩
        exact (parts field inside).mono family.subset fun _ h => h
      · exact .inl before
    · exact .inr found

theorem Family.visit {pending visited : List String} {settled : String → Bool}
    (family : Family index pending outer inner)
    (known : ∀ name, settled name = true → inner name)
    (follows : Follows index settled [] visited) :
    Family index pending outer fun name => inner name ∨ name ∈ visited where
  subset name h := .inl (family.subset name h)
  outer name h := by
    rcases family.outer name h with before | ⟨object, resolved, distinct, parts⟩
    · exact .inl before
    · refine .inr ⟨object, resolved, distinct, fun field inside => ?_⟩
      exact (parts field inside).mono (fun _ h => h) fun _ => .inl
  inner name h := by
    rcases h with h | h
    · rcases family.inner name h with before | ⟨object, resolved, parts⟩
      · exact .inl before
      · refine .inr ⟨object, resolved, fun field inside => ?_⟩
        exact (parts field inside).mono (fun _ => .inl) fun _ => .inl
    · rcases follows name h with before | ⟨object, resolved, parts⟩
      · cases before
      · refine .inr ⟨object, resolved, fun field inside => ?_⟩
        exact (parts field inside).mono (fun other => Or.imp_left (known other)) fun other =>
          Or.imp_left (known other)

end Shape

def SchemaTask.Within (index : ShapeIndex) (outer inner : String → Prop) : SchemaTask → Prop
  | .shape root => root.Within index outer inner
  | .fields _ left => ∀ field ∈ left, field.shape.Within index outer inner

def SchemaTask.Distinct : SchemaTask → Prop
  | .shape _ => True
  | .fields done left => (done.map (·.1)).Nodup → (done.map (·.1) ++ left.map (·.name)).Nodup

namespace Generates

variable {expanding : List String} {memory after : Memory} {task : SchemaTask} {schema : Schema}

theorem distinct (h : Generates index expanding memory task schema after) : task.Distinct := by
  induction h with
  | done =>
    intro before
    rwa [List.map_nil, List.append_nil]
  | @field _ _ _ _ done field fields made _ new _ _ _ ih =>
    intro before
    have names : ((done ++ [(field.name, made.describeWith field.description)]).map (·.1)).Nodup := by
      simp only [List.map_append, List.map_cons, List.map_nil, List.nodup_append, before,
        List.nodup_singleton, List.mem_singleton, true_and]
      rintro name old other rfl rfl
      exact new old
    have rest := ih names
    rw [List.map_append, List.append_assoc] at rest
    exact rest
  | _ => trivial

theorem known_of_known (h : Generates index expanding memory task schema after) :
    ∀ name, memory.Known expanding name → after.Known expanding name := by
  induction h with
  | plain | map | again | built | done => exact fun _ known => known
  | array _ _ ih => exact ih
  | @expanded _ _ between _ object schema _ _ _ _ ih =>
    intro name known
    rw [Memory.known_settle]
    apply ih
    rw [Memory.known_cons]
    exact .inr known
  | field _ _ _ first rest => exact fun name known => rest name (first name known)

/-- What generation knows stays a family, with the names that its checks have visited. -/
theorem family (complete : index.Complete)
    (h : Generates index expanding memory task schema after) (known : task.Resolved index)
    {inner : String → Prop}
    (family : Shape.Family index expanding (memory.Known expanding) inner) :
    ∃ wider : String → Prop, (∀ name, inner name → wider name) ∧
      Shape.Family index expanding (after.Known expanding) wider ∧
      task.Within index (after.Known expanding) wider := by
  induction h generalizing inner with
  | plain plain => exact ⟨inner, fun _ h => h, family, Shape.within_of_plain plain⟩
  | @array _ _ _ _ item _ items _ ih =>
    have below : (SchemaTask.shape item).Resolved index := by
      intro part inside
      apply known part
      rw [SchemaTask.heads, head?_of_item? items]
      exact inside
    obtain ⟨wider, grows, kept, within⟩ := ih below family
    exact ⟨wider, grows, kept, Shape.within_of_item items within⟩
  | @map expanding memory value visited bindable =>
    obtain ⟨within, follows⟩ := (within_of_checkBindable complete _).1 [] value visited bindable known
    -- The check skips only names that are being expanded or were, and these are in the family.
    have settled : ∀ name, (expanding.contains name || (memory.built? name).isSome) = true →
        inner name := by
      intro name h
      apply family.subset
      simpa [Memory.Known, Option.isSome_iff_exists] using h
    have seen : ∀ name, Seen (fun name => expanding.contains name || (memory.built? name).isSome)
        visited name → inner name ∨ name ∈ visited.1 := fun name => Or.imp_left (settled name)
    exact ⟨_, fun _ => .inl, family.visit settled follows, within.mono seen seen⟩
  | again named within =>
    exact ⟨inner, fun _ h => h, family, Shape.within_of_typeName named known (.inl within)⟩
  | @built _ _ _ _ schema named _ built =>
    exact ⟨inner, fun _ h => h, family, Shape.within_of_typeName named known (.inr ⟨schema, built⟩)⟩
  | @expanded expanding memory between shape object schema target _ _ below ih =>
    have resolved := resolve?_of_target? target known
    have entered := family.enter object.name
    rw [← Memory.known_cons] at entered
    obtain ⟨wider, grows, kept, parts⟩ := ih (resolved_fields complete resolved) entered
    have left : Shape.Family index expanding (between.Known (object.name :: expanding)) wider :=
      kept.leave resolved (below.distinct List.nodup_nil) parts
    have inside : between.Known (object.name :: expanding) object.name := .inl List.mem_cons_self
    rw [Memory.known_settle]
    exact ⟨wider, fun name h => grows name (.inr h), left,
      Shape.within_of_typeName (Shape.typeName?_of_target? target) known inside⟩
  | done => exact ⟨inner, fun _ h => h, family, List.forall_mem_nil _⟩
  | field _ _ rest ihFirst ihRest =>
    obtain ⟨between, grows, kept, first⟩ := ihFirst known.head family
    obtain ⟨wider, more, whole, later⟩ := ihRest known.tail kept
    refine ⟨wider, fun name h => more name (grows name h), whole, ?_⟩
    exact List.forall_mem_cons.2 ⟨first.mono rest.known_of_known more, later⟩

end Generates

theorem Memory.family_initial :
    Shape.Family index [] (Memory.initial.Known []) fun _ => False where
  subset := by
    rintro name (inside | ⟨schema, built⟩)
    · cases inside
    · cases built
  outer := by
    rintro name (inside | ⟨schema, built⟩)
    · cases inside
    · cases built
  inner _ h := h.elim

end ToolChat
