import Mathlib.Algebra.GroupWithZero.Nat
import Mathlib.Algebra.Order.BigOperators.Group.List
import Mathlib.Algebra.Order.Group.Nat
import ToolChat.Proofs.Schema.Coverage
import ToolChat.Proofs.Schema.Failure

/-!
How often generation looks at a record type.

Calls of a session are gone through once more with a log of what happens to each record type, by
definitions that know nothing of why they end: they are given how deep their calls may be nested,
and give up below that. The depth of a shape and of each record type of an index, taken once, is
always enough, whatever refers to whatever. The log then tells that the fields of a record type are
expanded once while no call fails, and that no check goes through them twice.
-/

set_option autoImplicit false

namespace ToolChat

namespace Shape

mutual

def depth : Shape → Nat
  | .object ⟨_, fields⟩ => depthOf fields + 1
  | .list item | .set item | .map item => item.depth + 1
  | _ => 1

def depthOf : List Field → Nat
  | [] => 0
  | ⟨_, shape, _, _⟩ :: fields => max shape.depth (depthOf fields)

end

theorem depth_object (object : ObjectShape) :
    (Shape.object object).depth = depthOf object.fields + 1 := by
  obtain ⟨name, fields⟩ := object
  rw [depth]

theorem depthOf_cons (field : Field) (fields : List Field) :
    depthOf (field :: fields) = max field.shape.depth (depthOf fields) := by
  obtain ⟨name, shape, description, nullable⟩ := field
  rw [depthOf]

theorem depth_pos (shape : Shape) : 0 < shape.depth := by
  cases shape with
  | object object =>
    rw [depth_object]
    exact Nat.succ_pos _
  | list _ | set _ | map _ =>
    rw [depth]
    exact Nat.succ_pos _
  | _ => exact Nat.one_pos

end Shape

namespace ShapeIndex

/-- The depth that the record types of an index take up if each of them is gone into once, those of
some names apart. -/
def room (index : ShapeIndex) (names : List String) : Nat :=
  (index.objects.map fun object =>
    if object.name ∈ names then 0 else Shape.depthOf object.fields + 1).sum

variable {index : ShapeIndex} {names more : List String}

theorem room_le (h : names ⊆ more) : index.room more ≤ index.room names := by
  apply List.sum_le_sum
  intro object _
  by_cases inside : object.name ∈ names
  · rw [if_pos inside, if_pos (h inside)]
  · rw [if_neg inside]
    split
    · exact Nat.zero_le _
    · exact Nat.le_refl _

theorem room_cons {name : String} {object : ObjectShape}
    (found : index.resolve? name = some object) (new : name ∉ names) :
    index.room (name :: names) + (Shape.depthOf object.fields + 1) ≤ index.room names := by
  obtain ⟨member, rfl⟩ := mem_of_resolve?_eq_some found
  obtain ⟨before, after, split⟩ := List.append_of_mem member
  have others (objects : List ObjectShape) :
      room ⟨objects⟩ (object.name :: names) ≤ room ⟨objects⟩ names :=
    room_le (List.subset_cons_self _ _)
  have first := others before
  have last := others after
  simp only [room] at first last ⊢
  simp only [split, List.map_append, List.map_cons, List.sum_append, List.sum_cons,
    List.mem_cons_self, if_true, if_neg new]
  omega

end ShapeIndex

/-! ### Checks of map values -/

/-- What a check comes to: the names that it has visited, or why it fails. -/
structure Walk where
  outcome : Except SchemaError (List String)
  /-- The record types whose fields it goes through, in turn. -/
  through : List String

def walkFields (check : List String → Shape → Option Walk) (visited : List String) :
    List Field → Option Walk
  | [] => some ⟨.ok visited, []⟩
  | field :: fields =>
    match check visited field.shape with
    | none => none
    | some ⟨.error e, through⟩ => some ⟨.error e, through⟩
    | some ⟨.ok between, through⟩ =>
      (walkFields check between fields).map fun rest => ⟨rest.outcome, through ++ rest.through⟩

def walkObject (check : List String → Shape → Option Walk) (visited : List String)
    (object : ObjectShape) : Option Walk :=
  if object.name ∈ visited then some ⟨.ok visited, []⟩
  else
    (walkFields check (object.name :: visited) object.fields).map fun walk =>
      ⟨walk.outcome, object.name :: walk.through⟩

/-- A check of a shape that gives up where its calls are nested too deep. -/
def walk (index : ShapeIndex) (settled : String → Bool) :
    Nat → List String → Shape → Option Walk
  | 0, _, _ => none
  | depth + 1, visited, shape =>
    match shape with
    | .integer _ | .number _ | .boolean | .string | .enumeration _ => some ⟨.ok visited, []⟩
    | .list item | .set item | .map item => walk index settled depth visited item
    | .object object => walkObject (walk index settled depth) visited object
    | .ref name =>
      if settled name = true ∨ name ∈ visited then some ⟨.ok visited, []⟩
      else match index.resolve? name with
        | none => some ⟨.error (.unresolvedReference name), []⟩
        | some target => walkObject (walk index settled depth) visited target
    | .undescribed name => some ⟨.error (.unsupported name), []⟩

/-- A walk goes through record types that were not visited, each of them once. -/
structure Walk.Fresh (visited : List String) (walk : Walk) : Prop where
  once : walk.through.Nodup
  new : ∀ name ∈ walk.through, name ∉ visited
  known : ∀ after, walk.outcome = .ok after → visited ⊆ after ∧ walk.through ⊆ after

theorem Walk.Fresh.append {visited between through : List String} {rest : Walk}
    (first : Walk.Fresh visited ⟨.ok between, through⟩) (later : rest.Fresh between) :
    Walk.Fresh visited ⟨rest.outcome, through ++ rest.through⟩ := by
  obtain ⟨kept, seen⟩ := first.known between rfl
  refine ⟨List.nodup_append.2 ⟨first.once, later.once, ?_⟩, ?_, fun after ended => ?_⟩
  · rintro name early _ late rfl
    exact later.new name late (seen early)
  · intro name inside old
    rcases List.mem_append.1 inside with early | late
    · exact first.new name early old
    · exact later.new name late (kept old)
  · obtain ⟨grown, others⟩ := later.known after ended
    exact ⟨List.Subset.trans kept grown,
      List.append_subset.2 ⟨List.Subset.trans seen grown, others⟩⟩

def Walks (visited : List String) (result : Option Walk)
    (answer : Except SchemaError (List String)) : Prop :=
  ∃ walk, result = some walk ∧ walk.outcome = answer ∧ walk.Fresh visited

namespace Walks

variable {visited : List String}

theorem still : Walks visited (some ⟨.ok visited, []⟩) (.ok visited) := by
  refine ⟨_, rfl, rfl, List.nodup_nil, nofun, ?_⟩
  rintro after ⟨⟩
  exact ⟨List.Subset.refl _, List.nil_subset _⟩

theorem failed (e : SchemaError) : Walks visited (some ⟨.error e, []⟩) (.error e) :=
  ⟨_, rfl, rfl, List.nodup_nil, nofun, nofun⟩

theorem enter {check : List String → Shape → Option Walk} {object : ObjectShape}
    {answer : Except SchemaError (List String)} (new : object.name ∉ visited)
    (fields : Walks (object.name :: visited)
      (walkFields check (object.name :: visited) object.fields) answer) :
    Walks visited (walkObject check visited object) answer := by
  obtain ⟨inner, made, rfl, fresh⟩ := fields
  rw [walkObject, if_neg new, made]
  refine ⟨_, rfl, rfl, ?_, ?_, fun after ended => ?_⟩
  · exact List.nodup_cons.2
      ⟨fun again => fresh.new _ again List.mem_cons_self, fresh.once⟩
  · refine List.forall_mem_cons.2 ⟨new, fun name inside old => ?_⟩
    exact fresh.new name inside (List.mem_cons_of_mem _ old)
  · obtain ⟨kept, through⟩ := fresh.known after ended
    obtain ⟨own, before⟩ := List.cons_subset.1 kept
    exact ⟨before, List.cons_subset.2 ⟨own, through⟩⟩

end Walks

section Checks

variable {index : ShapeIndex} {settled : String → Bool} {visited base : List String}

abbrev checked (index : ShapeIndex) (settled : String → Bool) (visited : List String)
    (shape : Shape) : Except SchemaError (List String) :=
  (checkBindable index settled visited shape).map (·.1)

abbrev checkedFields (index : ShapeIndex) (settled : String → Bool) (visited : List String)
    (fields : List Field) : Except SchemaError (List String) :=
  (checkFieldsBindable index settled visited fields).map (·.1)

theorem checked_object {object : ObjectShape} (new : object.name ∉ visited) :
    checked index settled visited (.object object) =
      checkedFields index settled (object.name :: visited) object.fields := by
  obtain ⟨name, fields⟩ := object
  rw [checked, checkBindable, if_neg new, checkedFields]
  cases checkFieldsBindable index settled (name :: visited) fields <;> rfl

theorem checked_ref {name : String} {target : ObjectShape} (unsettled : ¬settled name = true)
    (new : name ∉ visited) (found : index.resolve? name = some target) :
    checked index settled visited (.ref name) =
      checkedFields index settled (name :: visited) target.fields := by
  rw [checked, checkBindable_resolved unsettled new found, checkedFields]
  cases checkFieldsBindable index settled (name :: visited) target.fields <;> rfl

private theorem walks_fields {check : List String → Shape → Option Walk} {depth : Nat}
    (below : ∀ visited shape, shape.depth + index.room (visited ++ base) ≤ depth →
      Walks visited (check visited shape) (checked index settled visited shape))
    (fields : List Field) (visited : List String)
    (deep : Shape.depthOf fields + index.room (visited ++ base) ≤ depth) :
    Walks visited (walkFields check visited fields)
      (checkedFields index settled visited fields) := by
  induction fields generalizing visited with
  | nil =>
    rw [checkedFields, checkFieldsBindable]
    exact .still
  | cons field fields ih =>
    obtain ⟨name, shape, description, nullable⟩ := field
    rw [Shape.depthOf] at deep
    obtain ⟨first, made, ended, fresh⟩ := below visited shape (by omega)
    rw [walkFields, made, checkedFields, checkFieldsBindable]
    obtain ⟨outcome, through⟩ := first
    cases answer : checkBindable index settled visited shape with
    | error e =>
      rw [checked, answer] at ended
      cases ended
      exact ⟨_, rfl, rfl, fresh⟩
    | ok between =>
      rw [checked, answer] at ended
      cases ended
      have less : index.room (between.1 ++ base) ≤ index.room (visited ++ base) :=
        ShapeIndex.room_le (List.append_subset.2
          ⟨List.subset_append_of_subset_left _ between.2, List.subset_append_right _ _⟩)
      obtain ⟨rest, others, same, later⟩ := ih between.1 (by omega)
      dsimp only
      rw [others]
      refine ⟨_, rfl, ?_, fresh.append later⟩
      dsimp only
      rw [same, checkedFields]
      cases checkFieldsBindable index settled between.1 fields <;> rfl

/-- A check that may be nested as deep as a shape and the record types outside of some settled ones
comes to its answer. -/
theorem walks_of_depth (settles : ∀ name ∈ base, settled name = true) (depth : Nat) :
    ∀ visited shape, shape.depth + index.room (visited ++ base) ≤ depth →
      Walks visited (walk index settled depth visited shape)
        (checked index settled visited shape) := by
  induction depth with
  | zero =>
    intro visited shape deep
    have := shape.depth_pos
    omega
  | succ depth ih =>
    intro visited shape deep
    cases shape with
    | integer _ | number _ | boolean | string | enumeration _ =>
      rw [checked, checkBindable]
      exact .still
    | list item | set item | map item =>
      rw [Shape.depth] at deep
      rw [checked, checkBindable]
      exact ih visited item (by omega)
    | object object =>
      rw [Shape.depth_object] at deep
      rw [walk]
      by_cases seen : object.name ∈ visited
      · obtain ⟨name, fields⟩ := object
        rw [checked, checkBindable, if_pos seen, walkObject, if_pos seen]
        exact .still
      · have less : index.room (object.name :: visited ++ base) ≤ index.room (visited ++ base) :=
          ShapeIndex.room_le (List.subset_cons_self _ _)
        rw [checked_object seen]
        exact .enter seen (walks_fields ih _ _ (by omega))
    | ref name =>
      have surface := (Shape.ref name).depth_pos
      rw [walk]
      by_cases known : settled name = true
      · rw [checked, checkBindable, if_pos known, if_pos (.inl known)]
        exact .still
      by_cases seen : name ∈ visited
      · rw [checked, checkBindable, if_neg known, dif_pos seen, if_pos (.inr seen)]
        exact .still
      rw [if_neg (not_or.2 ⟨known, seen⟩)]
      cases found : index.resolve? name with
      | none =>
        rw [checked, checkBindable_unresolved known seen found]
        exact .failed _
      | some target =>
        have outside : name ∉ visited ++ base := by
          intro inside
          rcases List.mem_append.1 inside with old | before
          · exact seen old
          · exact known (settles name before)
        have less := ShapeIndex.room_cons found outside
        rw [checked_ref known seen found]
        obtain ⟨-, rfl⟩ := ShapeIndex.mem_of_resolve?_eq_some found
        exact .enter seen (walks_fields ih _ _ (by rw [List.cons_append]; omega))
    | undescribed name =>
      rw [checked, checkBindable]
      exact .failed _

end Checks

/-! ### Generation -/

/-- What generation does with a record type that it comes upon, and with a map. -/
inductive SchemaEvent where
  /-- The fields of a record type are expanded. -/
  | expands (name : String)
  /-- The schema that was built for a record type is served. -/
  | reuses (name : String)
  /-- A record type that is being expanded is referred to. -/
  | refers (name : String)
  /-- The values of a map are checked by going through the fields of record types in turn. -/
  | checks (names : List String)
  deriving DecidableEq, Repr

namespace SchemaEvent

def expanded? : SchemaEvent → Option String
  | .expands name => some name
  | _ => none

def typeName? : SchemaEvent → Option String
  | .expands name | .reuses name | .refers name => some name
  | .checks _ => none

end SchemaEvent

def expansions (log : List SchemaEvent) : List String :=
  log.filterMap SchemaEvent.expanded?

theorem expansions_append (log more : List SchemaEvent) :
    expansions (log ++ more) = expansions log ++ expansions more :=
  List.filterMap_append

theorem mem_expansions {log : List SchemaEvent} {name : String} :
    name ∈ expansions log ↔ .expands name ∈ log := by
  rw [expansions, List.mem_filterMap]
  constructor
  · rintro ⟨event, inside, expands⟩
    cases event with
    | expands other =>
      cases expands
      exact inside
    | _ => cases expands
  · exact fun inside => ⟨_, inside, rfl⟩

abbrev Logged := Generated Schema × List SchemaEvent

def logFields (generate : Shape → Memory → Option Logged) (owner : String)
    (done : List (String × Schema)) (fields : List Field) (memory : Memory) : Option Logged :=
  match fields with
  | [] => some ((.ok (.object done (done.map (·.1)) none), memory), [])
  | field :: fields =>
    if field.name ∈ done.map (·.1) then
      some ((.error (.duplicateProperty owner field.name), memory), [])
    else match generate field.shape memory with
      | none => none
      | some ((.error e, between), log) => some ((.error e, between), log)
      | some ((.ok schema, between), log) =>
        (logFields generate owner (done ++ [(field.name, schema.describeWith field.description)])
          fields between).map fun rest => (rest.1, log ++ rest.2)

def logName (expanding : List String) (name : String) (memory : Memory)
    (next : Option Logged) : Option Logged :=
  if name ∈ expanding then
    some ((.ok (memory.refer name).1, (memory.refer name).2), [.refers name])
  else match memory.built? name with
    | some schema => some ((.ok schema, memory), [.reuses name])
    | none => next

def logObject (generate : List String → Shape → Memory → Option Logged) (expanding : List String)
    (object : ObjectShape) (memory : Memory) : Option Logged :=
  logName expanding object.name memory
    ((logFields (generate (object.name :: expanding)) object.name [] object.fields memory).map
      fun inner => (settleObject object.name inner.1, .expands object.name :: inner.2))

/-- Generation of the schema of a shape that gives up where its calls are nested too deep. -/
def logShape (index : ShapeIndex) : Nat → List String → Shape → Memory → Option Logged
  | 0, _, _, _ => none
  | depth + 1, expanding, shape, memory =>
    match shape with
    | .integer _ => some ((.ok (.integer none), memory), [])
    | .number _ => some ((.ok (.number none), memory), [])
    | .boolean => some ((.ok (.boolean none), memory), [])
    | .string => some ((.ok (.string none), memory), [])
    | .enumeration e => some ((.ok (.enumeration e.variants none), memory), [])
    | .list item | .set item =>
      (logShape index depth expanding item memory).map fun inner =>
        ((inner.1.1.map (Schema.array · none), inner.1.2), inner.2)
    | .map value =>
      let settled (name : String) := expanding.contains name || (memory.built? name).isSome
      (walk index settled depth [] value).map fun walk =>
        ((walk.outcome.map fun _ => .anyObject, memory), [.checks walk.through])
    | .object object => logObject (logShape index depth) expanding object memory
    | .ref name =>
      logName expanding name memory <|
        match index.resolve? name with
        | none => some ((.error (.unresolvedReference name), memory), [])
        | some target => logObject (logShape index depth) expanding target memory
    | .undescribed name => some ((.error (.unsupported name), memory), [])

/-- A log expands record types that were neither built nor are being expanded, each of them once. -/
structure Sparing (expanding : List String) (memory : Memory) (log : List SchemaEvent) :
    Prop where
  once : (expansions log).Nodup
  new : ∀ name ∈ expansions log, name ∉ expanding ∧ memory.built? name = none

/-- The log of an answer is sparing: what it expands is built in the end if there is a schema, and
no check goes through the fields of a record type twice. -/
structure Records (expanding : List String) (memory : Memory) (answer : Generated Schema)
    (log : List SchemaEvent) : Prop extends Sparing expanding memory log where
  built : ∀ schema after, answer = (.ok schema, after) →
    ∀ name ∈ expansions log, after.built? name ≠ none
  checks : ∀ names, .checks names ∈ log → names.Nodup

/-- Nothing is given up: an answer is given with its log. -/
def Logs (expanding : List String) (memory : Memory) (result : Option Logged)
    (answer : Generated Schema) : Prop :=
  ∃ log, result = some (answer, log) ∧ Records expanding memory answer log

theorem Memory.built?_settle_ne_none {memory : Memory} {name other : String} {schema : Schema} :
    (memory.settle name schema).built? other ≠ none ↔
      other = name ∨ memory.built? other ≠ none := by
  by_cases same : other = name
  · rw [same, built?_settle]
    exact iff_of_true (Option.some_ne_none schema) (.inl rfl)
  · rw [built?_settle_of_ne same, or_iff_right same]

theorem Generates.stays_built {index : ShapeIndex} {expanding : List String} {memory after : Memory}
    {task : SchemaTask} {schema : Schema} (h : Generates index expanding memory task schema after)
    {name : String} (old : memory.built? name ≠ none) : after.built? name ≠ none := by
  induction h with
  | plain | map | again | built | done => exact old
  | array _ _ ih => exact ih old
  | expanded _ _ _ _ ih => exact Memory.built?_settle_ne_none.2 (.inr (ih old))
  | field _ _ _ first rest => exact rest (first old)

theorem Sparing.append {expanding : List String} {memory between : Memory}
    {log more : List SchemaEvent} (first : Sparing expanding memory log)
    (rest : Sparing expanding between more)
    (built : ∀ name ∈ expansions log, between.built? name ≠ none)
    (stays : ∀ name, memory.built? name ≠ none → between.built? name ≠ none) :
    Sparing expanding memory (log ++ more) where
  once := by
    rw [expansions_append]
    refine List.nodup_append.2 ⟨first.once, rest.once, ?_⟩
    rintro name early _ late rfl
    exact built name early (rest.new name late).2
  new := by
    intro name inside
    rw [expansions_append] at inside
    rcases List.mem_append.1 inside with early | late
    · exact first.new name early
    · obtain ⟨outside, new⟩ := rest.new name late
      exact ⟨outside, Classical.byContradiction fun old => stays name old new⟩

theorem Sparing.later {expanding : List String} {memory : Memory} {earlier later : List SchemaEvent}
    {name : String} (sparing : Sparing expanding memory (earlier ++ .expands name :: later))
    {event : SchemaEvent} (inside : event ∈ later) (about : event.typeName? = some name) :
    event = .reuses name ∨ event = .refers name := by
  have once : (expansions earlier ++ name :: expansions later).Nodup := by
    have whole := sparing.once
    rw [expansions_append] at whole
    exact whole
  have apart := (List.nodup_cons.1 (List.nodup_append.1 once).2.1).1
  cases event with
  | expands other =>
    cases about
    exact absurd (mem_expansions.2 inside) apart
  | reuses other =>
    cases about
    exact .inl rfl
  | refers other =>
    cases about
    exact .inr rfl
  | checks names => cases about

namespace Logs

variable {expanding : List String} {memory : Memory} {answer : Generated Schema}

theorem still : Logs expanding memory (some (answer, [])) answer :=
  ⟨[], rfl, ⟨List.nodup_nil, nofun⟩, nofun, nofun⟩

theorem event {event : SchemaEvent} (silent : event.expanded? = none)
    (checks : ∀ names, .checks names = event → names.Nodup) :
    Logs expanding memory (some (answer, [event])) answer := by
  have none : expansions [event] = [] := by
    rw [expansions, List.filterMap_cons, silent]
    rfl
  refine ⟨[event], rfl, ⟨?_, ?_⟩, ?_, fun names inside => ?_⟩
  · rw [none]
    exact List.nodup_nil
  · rw [none]
    exact nofun
  · rw [none]
    exact nofun
  · exact checks names (List.mem_singleton.1 inside)

theorem map {index : ShapeIndex} {value : Shape} {depth : Nat}
    (deep : (Shape.map value).depth + index.room expanding ≤ depth + 1) :
    Logs expanding memory (logShape index (depth + 1) expanding (.map value) memory)
      (generateShape index expanding (.map value) memory) := by
  have settles : ∀ name ∈ expanding,
      (expanding.contains name || (memory.built? name).isSome) = true := by
    intro name within
    exact Bool.or_eq_true_iff.2 (.inl (List.contains_iff_mem.2 within))
  rw [Shape.depth] at deep
  have enough : value.depth + index.room ([] ++ expanding) ≤ depth := by
    rw [List.nil_append]
    omega
  obtain ⟨walk, made, ended, fresh⟩ := walks_of_depth settles depth [] value enough
  have answers : generateShape index expanding (.map value) memory =
      (walk.outcome.map fun _ => .anyObject, memory) := by
    rw [ended, checked, generateShape]
    cases checkBindable index _ [] value <;> rfl
  rw [logShape, answers, made]
  refine event rfl ?_
  rintro names ⟨⟩
  exact fresh.once

theorem array {index : ShapeIndex} {shape item : Shape} {result : Option Logged}
    (items : shape.item? = some item)
    (below : Logs expanding memory result (generateShape index expanding item memory)) :
    Logs expanding memory
      (result.map fun inner => ((inner.1.1.map (Schema.array · none), inner.1.2), inner.2))
      (generateShape index expanding shape memory) := by
  obtain ⟨log, rfl, records⟩ := below
  rw [generateShape_of_item items]
  refine ⟨log, rfl, records.toSparing, fun schema after ended => ?_, records.checks⟩
  cases made : generateShape index expanding item memory with
  | mk outcome between =>
    rw [made] at ended records
    cases outcome with
    | error e => cases ended
    | ok inner =>
      cases ended
      exact records.built inner between rfl

theorem name {index : ShapeIndex} {shape : Shape} {name : String} {next : Option Logged}
    (named : shape.typeName? = some name)
    (fresh : name ∉ expanding → memory.built? name = none →
      Logs expanding memory next (generateShape index expanding shape memory)) :
    Logs expanding memory (logName expanding name memory next)
      (generateShape index expanding shape memory) := by
  rw [logName]
  by_cases within : name ∈ expanding
  · rw [if_pos within, generateShape_within named within]
    exact event rfl nofun
  · rw [if_neg within]
    cases built : memory.built? name with
    | none => exact fresh within built
    | some schema =>
      rw [generateShape_built named within built]
      exact event rfl nofun

theorem expand {object : ObjectShape} {result : Option Logged} (outside : object.name ∉ expanding)
    (new : memory.built? object.name = none)
    (fields : Logs (object.name :: expanding) memory result answer) :
    Logs expanding memory
      (result.map fun inner =>
        (settleObject object.name inner.1, .expands object.name :: inner.2))
      (settleObject object.name answer) := by
  obtain ⟨log, rfl, records⟩ := fields
  refine ⟨_, rfl, ⟨?_, ?_⟩, ?_, ?_⟩
  · refine List.nodup_cons.2 ⟨fun again => ?_, records.once⟩
    exact (records.new _ again).1 List.mem_cons_self
  · refine List.forall_mem_cons.2 ⟨⟨outside, new⟩, fun name inside => ?_⟩
    obtain ⟨elsewhere, before⟩ := records.new name inside
    exact ⟨fun within => elsewhere (List.mem_cons_of_mem _ within), before⟩
  · intro schema after settled name inside
    obtain ⟨between, rfl, rfl⟩ := settleObject_eq_ok settled
    rw [Memory.built?_settle_ne_none]
    exact (List.mem_cons.1 inside).imp_right (records.built schema between rfl name)
  · intro names inside
    rcases List.mem_cons.1 inside with other | inside
    · cases other
    · exact records.checks names inside

end Logs

section Generation

variable {index : ShapeIndex}

private theorem logs_fields {generate : Shape → Memory → Option Logged} {expanding : List String}
    {depth : Nat}
    (below : ∀ shape memory, shape.depth + index.room expanding ≤ depth →
      Logs expanding memory (generate shape memory) (generateShape index expanding shape memory))
    (owner : String) (fields : List Field) (done : List (String × Schema)) (memory : Memory)
    (deep : Shape.depthOf fields + index.room expanding ≤ depth) :
    Logs expanding memory (logFields generate owner done fields memory)
      (generateFields index expanding owner done fields memory) := by
  induction fields generalizing done memory with
  | nil =>
    rw [generateFields]
    exact .still
  | cons field fields ih =>
    rw [Shape.depthOf_cons] at deep
    rw [logFields]
    by_cases twice : field.name ∈ done.map (·.1)
    · rw [if_pos twice, generateFields_twice twice]
      exact .still
    rw [if_neg twice, generateFields_cons twice]
    obtain ⟨log, made, records⟩ := below field.shape memory (by omega)
    rw [made]
    cases answer : generateShape index expanding field.shape memory with
    | mk outcome between =>
      rw [answer] at records
      cases outcome with
      | error e => exact ⟨log, rfl, records⟩
      | ok schema =>
        obtain ⟨more, others, later⟩ :=
          ih (done ++ [(field.name, schema.describeWith field.description)]) between (by omega)
        have first := (generates_of_eq_ok index).1 _ _ _ _ _ answer
        have built := records.built schema between rfl
        dsimp only
        rw [others]
        refine ⟨log ++ more, rfl, ?_, fun whole after ended name inside => ?_,
          fun names inside => ?_⟩
        · exact records.append later.toSparing built fun _ => first.stays_built
        · have rest := (generates_of_eq_ok index).2 _ _ _ _ _ _ _ ended
          rw [expansions_append] at inside
          rcases List.mem_append.1 inside with early | late
          · exact rest.stays_built (built name early)
          · exact later.built whole after ended name late
        · exact (List.mem_append.1 inside).elim (records.checks names) (later.checks names)

/-- Generation that may be nested as deep as a shape and the record types that are not being
expanded comes to its answer. -/
theorem logs_of_depth (depth : Nat) :
    ∀ expanding shape memory, shape.depth + index.room expanding ≤ depth →
      Logs expanding memory (logShape index depth expanding shape memory)
        (generateShape index expanding shape memory) := by
  induction depth with
  | zero =>
    intro expanding shape memory deep
    have surface := shape.depth_pos
    omega
  | succ depth ih =>
    -- A record type that is new is expanded one call deeper, where less room is left.
    have expand : ∀ expanding shape object memory, shape.target? index = some object →
        Shape.depthOf object.fields + index.room (object.name :: expanding) ≤ depth →
          Logs expanding memory (logObject (logShape index depth) expanding object memory)
            (generateShape index expanding shape memory) := by
      intro expanding shape object memory target deep
      refine .name (Shape.typeName?_of_target? target) fun outside new => ?_
      rw [generateShape_of_target target outside new]
      exact .expand outside new (logs_fields (ih _) object.name object.fields [] memory deep)
    intro expanding shape memory deep
    cases shape with
    | integer _ | number _ | boolean | string | enumeration _ =>
      rw [generateShape]
      exact .still
    | list item | set item =>
      rw [Shape.depth] at deep
      exact .array rfl (ih expanding item memory (by omega))
    | map value => exact .map deep
    | object object =>
      rw [Shape.depth_object] at deep
      have less : index.room (object.name :: expanding) ≤ index.room expanding :=
        ShapeIndex.room_le (List.subset_cons_self _ _)
      exact expand expanding (.object object) object memory rfl (by omega)
    | ref name =>
      have surface := (Shape.ref name).depth_pos
      rw [logShape]
      refine .name rfl fun outside new => ?_
      cases found : index.resolve? name with
      | none =>
        rw [generateShape_unresolved outside new found]
        exact .still
      | some target =>
        have less := ShapeIndex.room_cons found outside
        obtain ⟨-, rfl⟩ := ShapeIndex.mem_of_resolve?_eq_some found
        exact expand expanding (.ref target.name) target memory found (by omega)
    | undescribed name =>
      rw [generateShape]
      exact .still

end Generation

namespace Session

def logRun (depth : Nat) (session : Session) :
    List Shape → Option ((List (Except SchemaError Schema) × Session) × List SchemaEvent)
  | [] => some (([], session), [])
  | shape :: shapes =>
    match logShape session.index depth [] shape session.memory with
    | none => none
    | some ((answer, memory), log) =>
      (logRun depth { session with memory } shapes).map fun rest =>
        ((answer :: rest.1.1, rest.1.2), log ++ rest.2)

variable {session : Session} {shapes : List Shape} {depth : Nat}

theorem exists_log (deep : ∀ shape ∈ shapes, shape.depth + session.index.room [] ≤ depth) :
    ∃ log, session.logRun depth shapes = some (session.run shapes, log) ∧
      (∀ names, .checks names ∈ log → names.Nodup) ∧
      ((∀ answer ∈ (session.run shapes).1, ∃ schema, answer = .ok schema) →
        Sparing [] session.memory log) := by
  induction shapes generalizing session with
  | nil => exact ⟨[], rfl, nofun, fun _ => ⟨List.nodup_nil, nofun⟩⟩
  | cons shape shapes ih =>
    obtain ⟨enough, others⟩ := List.forall_mem_cons.1 deep
    obtain ⟨log, made, records⟩ := logs_of_depth depth [] shape session.memory enough
    obtain ⟨more, run, checks, sparing⟩ := @ih (session.generate shape).2 others
    have whole : session.logRun depth (shape :: shapes) =
        some (session.run (shape :: shapes), log ++ more) := by
      rw [logRun, made]
      change Option.map _ ((session.generate shape).2.logRun depth shapes) = _
      rw [run]
      rfl
    refine ⟨log ++ more, whole, fun names inside => ?_, fun succeeds => ?_⟩
    · exact (List.mem_append.1 inside).elim (records.checks names) (checks names)
    · rw [run_cons] at succeeds
      obtain ⟨⟨schema, answer⟩, rest⟩ := List.forall_mem_cons.1 succeeds
      have first : session.generate shape = (.ok schema, (session.generate shape).2) :=
        Prod.ext answer rfl
      have stays := (generates_of_generate first).2
      have ended : generateShape session.index [] shape session.memory =
          (.ok schema, (session.generate shape).2.memory) := Prod.ext answer rfl
      exact records.append (sparing rest) (records.built schema _ ended) fun _ => stays.stays_built

/-- Whatever the record types of an index refer to, the calls of a session end: they are nested no
deeper than a shape and each record type once. No check of map values goes through the fields of a
record type twice. While no call fails the fields of a record type are expanded once in all calls,
and later it is served from memory or referred to. -/
theorem run_ends_and_expands_once (index : ShapeIndex) (shapes : List Shape) (depth : Nat)
    (deep : ∀ shape ∈ shapes, shape.depth + index.room [] ≤ depth) :
    ∃ log, (withIndex index).logRun depth shapes = some ((withIndex index).run shapes, log) ∧
      (∀ names, .checks names ∈ log → names.Nodup) ∧
      ((∀ answer ∈ ((withIndex index).run shapes).1, ∃ schema, answer = .ok schema) →
        (expansions log).Nodup ∧
        ∀ earlier name later, log = earlier ++ .expands name :: later → ∀ event ∈ later,
          event.typeName? = some name → event = .reuses name ∨ event = .refers name) := by
  obtain ⟨log, run, checks, sparing⟩ := @exists_log (withIndex index) shapes depth deep
  refine ⟨log, run, checks, fun succeeds => ⟨(sparing succeeds).once, ?_⟩⟩
  rintro earlier name later rfl event inside about
  exact (sparing succeeds).later inside about

def household : ShapeIndex :=
  ⟨[⟨"House", [⟨"keys", .map (.ref "Person"), none, false⟩, ⟨"owner", .ref "Person", none, false⟩]⟩,
    ⟨"Person", [⟨"friends", .list (.ref "Person"), none, false⟩,
      ⟨"home", .ref "House", none, false⟩]⟩]⟩

def visits : List Shape :=
  [.map (.ref "House"), .ref "House", .list (.ref "Person")]

theorem household_expands_once :
    (∀ shape ∈ visits, shape.depth + household.room [] ≤ 8) ∧
    ∃ log, (withIndex household).logRun 8 visits = some ((withIndex household).run visits, log) ∧
      log = [.checks ["House", "Person"], .expands "House", .checks ["Person"], .expands "Person",
        .refers "Person", .refers "House", .reuses "Person"] ∧
      (∀ names, .checks names ∈ log → names.Nodup) ∧ (expansions log).Nodup := by
  have deep : ∀ shape ∈ visits, shape.depth + household.room [] ≤ 8 := by
    simp only [visits, List.forall_mem_cons]
    decide
  obtain ⟨log, run, checks, spares⟩ := run_ends_and_expands_once household visits 8 deep
  have logged : ((withIndex household).logRun 8 visits).map (·.2) =
      some [.checks ["House", "Person"], .expands "House", .checks ["Person"], .expands "Person",
        .refers "Person", .refers "House", .reuses "Person"] := by decide
  have answered : ((withIndex household).logRun 8 visits).map (·.1.1.all Except.isOk) =
      some true := by decide
  rw [run] at logged answered
  refine ⟨deep, log, run, Option.some.inj logged, checks, (spares fun answer inside => ?_).1⟩
  have ok := List.all_eq_true.1 (Option.some.inj answered) answer inside
  cases answer with
  | ok schema => exact ⟨schema, rfl⟩
  | error e => cases ok

end Session

end ToolChat
