import ToolChat.Proofs.Schema.Derivation

/-!
References and definitions.

While an object is expanded it may be referred to without a definition; when its expansion ends it
gets one. So between calls the identifiers that a session has definitions for are those that it has
referred to, and these are the references in the schemas that it has returned.
-/

set_option autoImplicit false

namespace ToolChat

namespace Schema

mutual

def refs : Schema → List String
  | .object properties _ _ => refsOf properties
  | .array items _ => items.refs
  | .reference id => [id]
  | _ => []

def refsOf : List (String × Schema) → List String
  | [] => []
  | (_, schema) :: rest => schema.refs ++ refsOf rest

end

theorem refsOf_append (left right : List (String × Schema)) :
    refsOf (left ++ right) = refsOf left ++ refsOf right := by
  induction left with
  | nil => rfl
  | cons pair left ih => rw [List.cons_append, refsOf, refsOf, ih, List.append_assoc]

theorem mem_refsOf {id : String} {schemas : List (String × Schema)} :
    id ∈ refsOf schemas ↔ ∃ pair ∈ schemas, id ∈ pair.2.refs := by
  induction schemas with
  | nil => exact iff_of_false List.not_mem_nil (by rintro ⟨_, ⟨⟩, _⟩)
  | cons pair schemas ih =>
    rw [refsOf, List.mem_append, ih]
    simp only [List.mem_cons, or_and_right, exists_or, exists_eq_left]

theorem refs_describeWith (description : Option String) (schema : Schema) :
    (schema.describeWith description).refs = schema.refs := by
  cases description with
  | none => rfl
  | some text => cases schema <;> rfl

theorem refs_of_plain {shape : Shape} {schema : Schema} (h : shape.plain? = some schema) :
    schema.refs = [] := by
  cases shape <;> cases h <;> rfl

end Schema

def SchemaTask.refs : SchemaTask → List String
  | .shape _ => []
  | .fields done _ => Schema.refsOf done

namespace Memory

def keys (memory : Memory) : List String :=
  memory.definitions.map (·.1)

theorem mem_of_built? {memory : Memory} {name : String} {schema : Schema}
    (h : memory.built? name = some schema) : (name, schema) ∈ memory.built :=
  Dictionary.mem_of_lookup_eq_some h

theorem definitions_settle_of_mem {memory : Memory} {name : String}
    (referred : referenceId name ∈ memory.referred) (schema : Schema) :
    (memory.settle name schema).definitions =
      Dictionary.insertNew (referenceId name) schema memory.definitions :=
  if_pos (List.contains_iff_mem.2 referred)

theorem definitions_settle_of_not_mem {memory : Memory} {name : String}
    (unreferred : referenceId name ∉ memory.referred) (schema : Schema) :
    (memory.settle name schema).definitions = memory.definitions :=
  if_neg fun h => unreferred (List.contains_iff_mem.1 h)

theorem mem_definitions_of_settle {memory : Memory} {name : String} {schema : Schema}
    {pair : String × Schema} (h : pair ∈ (memory.settle name schema).definitions) :
    pair = (referenceId name, schema) ∨ pair ∈ memory.definitions := by
  by_cases referred : referenceId name ∈ memory.referred
  · rw [definitions_settle_of_mem referred] at h
    exact Dictionary.mem_insertNew h
  · rw [definitions_settle_of_not_mem referred] at h
    exact .inr h

theorem mem_keys_settle {memory : Memory} {name id : String} {schema : Schema} :
    id ∈ (memory.settle name schema).keys ↔
      id = referenceId name ∧ referenceId name ∈ memory.referred ∨ id ∈ memory.keys := by
  by_cases referred : referenceId name ∈ memory.referred
  · rw [keys, definitions_settle_of_mem referred, Dictionary.mem_keys_insertNew, keys,
      and_iff_left referred]
  · rw [keys, definitions_settle_of_not_mem referred, keys]
    exact (or_iff_right fun h => referred h.2).symm

/-- What holds of a memory inside some objects: all that was referred to has a definition, or is
still being expanded. -/
structure Closed (expanding : List String) (memory : Memory) : Prop where
  defined : ∀ id ∈ memory.referred, id ∈ memory.keys ∨ id ∈ expanding.map referenceId
  keys : memory.keys ⊆ memory.referred
  built : ∀ pair ∈ memory.built, pair.2.refs ⊆ memory.referred
  definitions : ∀ pair ∈ memory.definitions, pair.2.refs ⊆ memory.referred

variable {expanding : List String} {memory : Memory}

theorem closed_initial : Closed [] initial where
  defined := nofun
  keys := nofun
  built := nofun
  definitions := nofun

theorem Closed.refs_of_built (closed : memory.Closed expanding) {name : String} {schema : Schema}
    (h : memory.built? name = some schema) : schema.refs ⊆ memory.referred :=
  closed.built (name, schema) (mem_of_built? h)

theorem Closed.refer (closed : memory.Closed expanding) {name : String}
    (within : name ∈ expanding) : (memory.refer name).2.Closed expanding where
  defined := by
    intro id h
    rcases List.mem_cons.1 h with rfl | old
    · exact .inr (List.mem_map_of_mem within)
    · exact closed.defined id old
  keys := List.Subset.trans closed.keys (List.subset_cons_self _ _)
  built pair h := List.Subset.trans (closed.built pair h) (List.subset_cons_self _ _)
  definitions pair h :=
    List.Subset.trans (closed.definitions pair h) (List.subset_cons_self _ _)

theorem Closed.settle {name : String} (closed : memory.Closed (name :: expanding))
    {schema : Schema} (refs : schema.refs ⊆ memory.referred) :
    (memory.settle name schema).Closed expanding where
  defined := by
    intro id h
    rw [mem_keys_settle]
    rcases closed.defined id h with key | within
    · exact .inl (.inr key)
    · rcases List.mem_cons.1 within with rfl | within
      · exact .inl (.inl ⟨rfl, h⟩)
      · exact .inr within
  keys := by
    intro id h
    rcases mem_keys_settle.1 h with ⟨rfl, referred⟩ | key
    · exact referred
    · exact closed.keys key
  built := by
    intro pair h
    rcases List.mem_cons.1 h with rfl | old
    · exact refs
    · exact closed.built pair old
  definitions := by
    intro pair h
    rcases mem_definitions_of_settle h with rfl | old
    · exact refs
    · exact closed.definitions pair old

theorem Closed.inside (closed : memory.Closed expanding) (name : String) :
    memory.Closed (name :: expanding) where
  defined id h := (closed.defined id h).imp_right (List.mem_cons_of_mem _)
  keys := closed.keys
  built := closed.built
  definitions := closed.definitions

end Memory

namespace Generates

variable {index : ShapeIndex} {expanding : List String} {memory after : Memory} {task : SchemaTask}
  {schema : Schema}

theorem referred_subset (h : Generates index expanding memory task schema after) :
    memory.referred ⊆ after.referred := by
  induction h with
  | plain | map | built | done => exact List.Subset.refl _
  | again => exact List.subset_cons_self _ _
  | array _ _ ih => exact ih
  | expanded _ _ _ _ ih => exact ih
  | field _ _ _ first rest => exact List.Subset.trans first rest

theorem refs_of_done (h : Generates index expanding memory task schema after) :
    task.refs ⊆ schema.refs := by
  induction h with
  | done => exact List.Subset.refl _
  | field _ _ _ _ rest =>
    intro id hid
    apply rest
    rw [SchemaTask.refs, Schema.refsOf_append]
    exact List.mem_append_left _ hid
  | _ => exact List.nil_subset _

theorem mem_referred (h : Generates index expanding memory task schema after) {id : String}
    (referred : id ∈ after.referred) : id ∈ memory.referred ∨ id ∈ schema.refs := by
  induction h with
  | plain | map | built | done => exact .inl referred
  | again =>
    rcases List.mem_cons.1 referred with rfl | old
    · exact .inr (List.mem_singleton_self _)
    · exact .inl old
  | array _ _ ih => exact ih referred
  | expanded _ _ _ _ ih => exact ih referred
  | @field _ _ _ _ done field _ made _ _ _ below first rest =>
    rcases rest referred with between | inside
    · rcases first between with old | new
      · exact .inl old
      · right
        apply below.refs_of_done
        rw [SchemaTask.refs, Schema.refsOf_append, Schema.refsOf, Schema.refs_describeWith]
        exact List.mem_append_right _ (List.mem_append_left _ new)
    · exact .inr inside

/-- Generating a schema keeps a memory closed. -/
theorem closed (h : Generates index expanding memory task schema after)
    (closed : memory.Closed expanding) (done : task.refs ⊆ memory.referred) :
    after.Closed expanding ∧ schema.refs ⊆ after.referred := by
  induction h with
  | plain plain =>
    rw [Schema.refs_of_plain plain]
    exact ⟨closed, List.nil_subset _⟩
  | array _ _ ih => exact ih closed done
  | map _ => exact ⟨closed, List.nil_subset _⟩
  | again _ within =>
    refine ⟨closed.refer within, ?_⟩
    intro id hid
    rw [List.mem_singleton.1 hid]
    exact List.mem_cons_self
  | built _ _ built => exact ⟨closed, closed.refs_of_built built⟩
  | @expanded _ _ _ _ object _ _ _ _ _ ih =>
    obtain ⟨inside, refs⟩ := ih (closed.inside object.name) (List.nil_subset _)
    exact ⟨inside.settle refs, refs⟩
  | done => exact ⟨closed, done⟩
  | field _ first _ ihFirst ihRest =>
    obtain ⟨between, refs⟩ := ihFirst closed (List.nil_subset _)
    apply ihRest between
    rw [SchemaTask.refs, Schema.refsOf_append, Schema.refsOf, Schema.refs_describeWith,
      Schema.refsOf, List.append_nil]
    exact List.append_subset.2 ⟨List.Subset.trans done first.referred_subset, refs⟩

end Generates

/-- A session over an index after calls that returned some schemas. -/
inductive Session.Returned (index : ShapeIndex) : List Schema → Session → Prop
  | start : Returned index [] (.withIndex index)
  | call {schemas : List Schema} {session after : Session} {shape : Shape} {schema : Schema}
      (before : Returned index schemas session)
      (call : session.generate shape = (.ok schema, after)) :
      Returned index (schemas ++ [schema]) after

namespace Session.Returned

variable {index : ShapeIndex} {schemas : List Schema} {session : Session}

theorem closed (h : Returned index schemas session) : session.memory.Closed [] := by
  induction h with
  | start => exact Memory.closed_initial
  | call _ call ih => exact ((generates_of_generate call).2.closed ih (List.nil_subset _)).1

theorem mem_referred_iff (h : Returned index schemas session) {id : String} :
    id ∈ session.memory.referred ↔ ∃ schema ∈ schemas, id ∈ schema.refs := by
  induction h with
  | start => exact iff_of_false (by exact List.not_mem_nil) (by rintro ⟨_, ⟨⟩, _⟩)
  | @call schemas session after shape schema before call ih =>
    have made := (generates_of_generate call).2
    constructor
    · intro referred
      rcases made.mem_referred referred with old | new
      · obtain ⟨earlier, he, hid⟩ := ih.1 old
        exact ⟨earlier, List.mem_append_left _ he, hid⟩
      · exact ⟨schema, List.mem_append_right _ (List.mem_singleton_self _), new⟩
    · rintro ⟨returned, hr, hid⟩
      rcases List.mem_append.1 hr with hr | hr
      · exact made.referred_subset (ih.2 ⟨returned, hr, hid⟩)
      · rw [List.mem_singleton.1 hr] at hid
        exact (made.closed before.closed (List.nil_subset _)).2 hid

end Session.Returned

theorem Memory.Closed.mem_keys_iff {memory : Memory} (closed : memory.Closed []) {id : String} :
    id ∈ memory.keys ↔ id ∈ memory.referred := by
  constructor
  · exact fun key => closed.keys key
  · intro referred
    rcases closed.defined id referred with key | within
    · exact key
    · cases within

end ToolChat
