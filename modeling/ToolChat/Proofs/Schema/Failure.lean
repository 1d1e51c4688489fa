import ToolChat.Proofs.Schema.Growth

/-!
What a call that fails leaves behind.

A call that fails keeps what it built and referred to before the failure. Its session goes on as if
the call had not been made exactly if there was nothing to keep: a type that it built is served from
memory, and one that it referred to gets a definition where there would be none. An object that was
being expanded is referred to without ever getting a definition; that is how a reference can be
returned that nothing defines.
-/

set_option autoImplicit false

namespace ToolChat

namespace Memory

/-- Two memories that no schema tells apart. -/
structure Alike (left right : Memory) : Prop where
  built : left.built = right.built
  definitions : left.definitions = right.definitions
  referred : ∀ id, id ∈ left.referred ↔ id ∈ right.referred

variable {left right : Memory}

theorem Alike.built? (alike : left.Alike right) (name : String) :
    right.built? name = left.built? name := by
  rw [Memory.built?, Memory.built?, alike.built]

theorem Alike.refer (alike : left.Alike right) (name : String) :
    (left.refer name).2.Alike (right.refer name).2 where
  built := alike.built
  definitions := alike.definitions
  referred id := by
    simp only [Memory.refer, List.mem_cons, alike.referred]

theorem Alike.settle (alike : left.Alike right) (name : String) (schema : Schema) :
    (left.settle name schema).Alike (right.settle name schema) where
  built := congrArg ((name, schema) :: ·) alike.built
  definitions := by
    by_cases referred : referenceId name ∈ left.referred
    · rw [definitions_settle_of_mem referred,
        definitions_settle_of_mem ((alike.referred _).1 referred), alike.definitions]
    · rw [definitions_settle_of_not_mem referred,
        definitions_settle_of_not_mem (mt (alike.referred _).2 referred), alike.definitions]
  referred := alike.referred

end Memory

def Generated.Alike {α : Type} (left right : Generated α) : Prop :=
  left.1 = right.1 ∧ left.2.Alike right.2

theorem alike_of_generate (index : ShapeIndex) :
    (∀ expanding shape memory, ∀ other, memory.Alike other →
      Generated.Alike (generateShape index expanding shape memory)
        (generateShape index expanding shape other)) ∧
    ∀ expanding owner done fields memory, ∀ other, memory.Alike other →
      Generated.Alike (generateFields index expanding owner done fields memory)
        (generateFields index expanding owner done fields other) := by
  apply generate_induction index
  case plain =>
    intro expanding shape memory schema plain other alike
    rw [generateShape_of_plain plain, generateShape_of_plain plain]
    exact ⟨rfl, alike⟩
  case array =>
    intro expanding shape item memory items below other alike
    obtain ⟨answer, after⟩ := below other alike
    rw [generateShape_of_item items, generateShape_of_item items]
    exact ⟨congrArg (Except.map (Schema.array · none)) answer, after⟩
  case map =>
    intro expanding value memory other alike
    rw [generateShape, generateShape]
    simp only [alike.built?]
    split <;> exact ⟨rfl, alike⟩
  case within =>
    intro expanding shape name memory named mem other alike
    rw [generateShape_within named mem, generateShape_within named mem]
    exact ⟨rfl, alike.refer name⟩
  case built =>
    intro expanding shape name memory schema named outside built other alike
    have again : other.built? name = some schema := (alike.built? name).trans built
    rw [generateShape_built named outside built, generateShape_built named outside again]
    exact ⟨rfl, alike⟩
  case unresolved =>
    intro expanding name memory outside new missing other alike
    have again : other.built? name = none := (alike.built? name).trans new
    rw [generateShape_unresolved outside new missing,
      generateShape_unresolved outside again missing]
    exact ⟨rfl, alike⟩
  case expanded =>
    intro expanding shape object memory target outside new below other alike
    have again : other.built? object.name = none := (alike.built? object.name).trans new
    rw [generateShape_of_target target outside new, generateShape_of_target target outside again]
    obtain ⟨answer, after⟩ := below other alike
    generalize generateFields index _ _ _ _ memory = made at answer after
    generalize generateFields index _ _ _ _ other = made' at answer after
    obtain ⟨outcome, between⟩ := made
    obtain ⟨_, between'⟩ := made'
    cases answer
    cases outcome with
    | error e => exact ⟨rfl, after⟩
    | ok schema => exact ⟨rfl, after.settle object.name schema⟩
  case undescribed =>
    intro expanding name memory other alike
    rw [generateShape, generateShape]
    exact ⟨rfl, alike⟩
  case done =>
    intro expanding owner done memory other alike
    rw [generateFields, generateFields]
    exact ⟨rfl, alike⟩
  case twice =>
    intro expanding owner done field fields memory twice other alike
    rw [generateFields_twice twice, generateFields_twice twice]
    exact ⟨rfl, alike⟩
  case field =>
    intro expanding owner done field fields memory new first rest other alike
    rw [generateFields_cons new, generateFields_cons new]
    obtain ⟨answer, after⟩ := first other alike
    cases made : generateShape index expanding field.shape memory with
    | mk outcome between =>
      cases made' : generateShape index expanding field.shape other with
      | mk outcome' between' =>
        rw [made, made'] at answer after
        cases answer
        cases outcome with
        | error e => exact ⟨rfl, after⟩
        | ok schema => exact rest schema between made between' after

namespace Generates

variable {index : ShapeIndex} {expanding : List String} {memory after : Memory} {task : SchemaTask}
  {schema : Schema}

theorem keys_subset (h : Generates index expanding memory task schema after) :
    memory.keys ⊆ after.keys := by
  induction h with
  | plain | map | built | done | again => exact List.Subset.refl _
  | array _ _ ih => exact ih
  | expanded _ _ _ _ ih => exact fun id key => Memory.mem_keys_settle.2 (.inr (ih key))
  | field _ _ _ first rest => exact List.Subset.trans first rest

theorem defined (h : Generates index expanding memory task schema after) {id : String}
    (referred : id ∈ after.referred) :
    id ∈ memory.referred ∨ id ∈ after.keys ∨ id ∈ expanding.map referenceId := by
  induction h with
  | plain | map | built | done => exact .inl referred
  | again _ within =>
    rcases List.mem_cons.1 referred with rfl | old
    · exact .inr (.inr (List.mem_map_of_mem within))
    · exact .inl old
  | array _ _ ih => exact ih referred
  | expanded _ _ _ _ ih =>
    rcases ih referred with old | key | within
    · exact .inl old
    · exact .inr (.inl (Memory.mem_keys_settle.2 (.inr key)))
    · rcases List.mem_cons.1 within with rfl | within
      · exact .inr (.inl (Memory.mem_keys_settle.2 (.inl ⟨rfl, referred⟩)))
      · exact .inr (.inr within)
  | field _ _ others first rest =>
    rcases rest referred with between | key | within
    · rcases first between with old | key | within
      · exact .inl old
      · exact .inr (.inl (others.keys_subset key))
      · exact .inr (.inr within)
    · exact .inr (.inl key)
    · exact .inr (.inr within)

end Generates

namespace Session

def run (session : Session) : List Shape → List (Except SchemaError Schema) × Session
  | [] => ([], session)
  | shape :: shapes =>
    let (answer, next) := session.generate shape
    let (answers, last) := next.run shapes
    (answer :: answers, last)

abbrev after (session : Session) (shapes : List Shape) : Session := (session.run shapes).2

variable {session : Session} {shape : Shape} {id : String}

theorem run_cons (session : Session) (shape : Shape) (shapes : List Shape) :
    session.run (shape :: shapes) =
      ((session.generate shape).1 :: ((session.generate shape).2.run shapes).1,
        (session.generate shape).2.after shapes) := rfl

theorem after_append (session : Session) (earlier later : List Shape) :
    session.after (earlier ++ later) = (session.after earlier).after later := by
  induction earlier generalizing session with
  | nil => rfl
  | cons shape earlier ih => exact ih (session.generate shape).2

theorem grows (refers : session.memory.Refers) (shape : Shape) :
    Grows [] session.memory ((session.generate shape).1, (session.generate shape).2.memory) :=
  (grows_of_generate session.index).1 [] shape session.memory nofun refers

theorem steps_after (refers : session.memory.Refers) (shapes : List Shape) :
    session.memory.Steps (session.after shapes).memory := by
  induction shapes generalizing session with
  | nil => exact .refl
  | cons shape shapes ih =>
    have steps := (grows refers shape).steps
    exact steps.trans (ih (steps.refers refers))

theorem refs_of_run (refers : session.memory.Refers) {shapes : List Shape} {schema : Schema}
    (answer : .ok schema ∈ (session.run shapes).1) :
    schema.refs ⊆ (session.after shapes).memory.referred := by
  induction shapes generalizing session with
  | nil => cases answer
  | cons shape shapes ih =>
    have grown := grows refers shape
    have refers' := grown.steps.refers refers
    rw [run_cons, List.mem_cons] at answer
    rcases answer with first | others
    · have kept := (steps_after refers' shapes).referred_subset
      exact List.Subset.trans (grown.refs schema first.symm) kept
    · exact ih refers' others

/-- A call fails and leaves an identifier that it was the first to refer to. -/
def Strays (session : Session) (shape : Shape) (id : String) : Prop :=
  (∃ e, (session.generate shape).1 = .error e) ∧
    id ∉ session.memory.referred ∧ id ∈ (session.generate shape).2.memory.referred

/-- What is referred to without a definition was so at first, or since a call that failed. -/
theorem exists_strays (refers : session.memory.Refers) {shapes : List Shape}
    (referred : id ∈ (session.after shapes).memory.referred)
    (undefined : id ∉ (session.after shapes).memory.keys) :
    id ∈ session.memory.referred ∨
      ∃ before culprit rest, shapes = before ++ culprit :: rest ∧
        (session.after before).Strays culprit id := by
  induction shapes generalizing session with
  | nil => exact .inl referred
  | cons shape shapes ih =>
    by_cases old : id ∈ session.memory.referred
    · exact .inl old
    right
    have refers' := (grows refers shape).steps.refers refers
    rcases ih refers' referred undefined with new | ⟨before, culprit, rest, rfl, strays⟩
    · cases answer : (session.generate shape).1 with
      | error e => exact ⟨[], shape, shapes, rfl, ⟨e, answer⟩, old, new⟩
      | ok schema =>
        have made : session.generate shape = (.ok schema, (session.generate shape).2) :=
          Prod.ext answer rfl
        rcases (generates_of_generate made).2.defined new with early | key | within
        · exact absurd early old
        · exact absurd ((steps_after refers' shapes).keys_subset key) undefined
        · cases within
    · exact ⟨shape :: before, culprit, rest, rfl, strays⟩

/-- Whatever they are asked, two sessions give the same answers and have the same definitions. -/
def Agree (left right : Session) : Prop :=
  ∀ shapes, (left.run shapes).1 = (right.run shapes).1 ∧
    (left.after shapes).definitions = (right.after shapes).definitions

theorem agree_of_alike {left right : Session} (index : left.index = right.index)
    (alike : left.memory.Alike right.memory) : left.Agree right := by
  intro shapes
  induction shapes generalizing left right with
  | nil => exact ⟨rfl, alike.definitions⟩
  | cons shape shapes ih =>
    have made := (alike_of_generate left.index).1 [] shape left.memory right.memory alike
    obtain ⟨answer, after⟩ := made
    have first : (left.generate shape).1 = (right.generate shape).1 := by
      rw [generate, generate, ← index]
      exact answer
    have rest := @ih (left.generate shape).2 (right.generate shape).2 index (by
      rw [generate, generate, ← index]
      exact after)
    rw [run_cons, run_cons]
    exact ⟨congrArg₂ List.cons first rest.1, rest.2⟩

/-- A record type that has a schema only if one was built. -/
def probe (name : String) : ObjectShape :=
  ⟨name, [⟨"probe", .undescribed name, none, false⟩]⟩

theorem generate_built {object : ObjectShape} {schema : Schema}
    (built : session.memory.built? object.name = some schema) :
    session.generate (.object object) = (.ok schema, session) := by
  rw [generate, generateShape_built rfl List.not_mem_nil built]

theorem generate_probe {name : String} (new : session.memory.built? name = none) :
    (session.generate (.object (probe name))).1 = .error (.unsupported name) := by
  have target : (Shape.object (probe name)).target? session.index = some (probe name) := rfl
  rw [generate, generateShape_of_target target List.not_mem_nil new, probe,
    generateFields_cons List.not_mem_nil, generateShape]
  rfl

theorem generate_empty {name : String} (new : session.memory.built? name = none) :
    (session.generate (.object ⟨name, []⟩)).2.memory =
      session.memory.settle name (.object [] [] none) := by
  have target : (Shape.object ⟨name, []⟩).target? session.index = some ⟨name, []⟩ := rfl
  rw [generate, generateShape_of_target target List.not_mem_nil new, generateFields]
  rfl

section Distinguishing

variable {later : Session} (agree : later.Agree session)
  (steps : session.memory.Steps later.memory)
include agree steps

theorem built_eq_of_agree : later.memory.built = session.memory.built := by
  refine Classical.byContradiction fun grown => ?_
  obtain ⟨name, schema, new, built⟩ := steps.exists_built grown
  have answers := (agree [.object (probe name)]).1
  have again : later.generate (.object (probe name)) = (.ok schema, later) := generate_built built
  rw [run_cons, run_cons, generate_probe new, again] at answers
  cases (List.cons.inj answers).1

theorem referred_subset_of_agree (keys : session.memory.keys ⊆ session.memory.referred) :
    later.memory.referred ⊆ session.memory.referred := by
  intro id mem
  rcases steps.mem_referred mem with old | ⟨name, rfl, new⟩
  · exact old
  have again : later.memory.built? name = none := by
    rw [Memory.built?, built_eq_of_agree agree steps]
    exact new
  have definitions : (later.memory.settle name (.object [] [] none)).definitions =
      (session.memory.settle name (.object [] [] none)).definitions := by
    have same := (agree [.object ⟨name, []⟩]).2
    rw [← generate_empty new, ← generate_empty again]
    exact same
  have key : referenceId name ∈ (session.memory.settle name (.object [] [] none)).keys := by
    rw [Memory.keys, ← definitions]
    exact Memory.mem_keys_settle.2 (.inl ⟨rfl, mem⟩)
  rcases Memory.mem_keys_settle.1 key with ⟨-, referred⟩ | old
  · exact referred
  · exact keys old

end Distinguishing

/-- A call that fails is as good as none exactly if it built nothing and referred to nothing new. A
reference that the session returns later and that nothing defines comes from a call that failed. -/
theorem agree_after_failure_iff (index : ShapeIndex) (earlier : List Shape) (shape : Shape)
    (e : SchemaError) (session failed : Session)
    (reached : session = (withIndex index).after earlier)
    (failure : session.generate shape = (.error e, failed)) :
    (failed.Agree session ↔
      failed.memory.built = session.memory.built ∧
        failed.memory.referred ⊆ session.memory.referred) ∧
    ∀ later schema id, .ok schema ∈ (failed.run later).1 → id ∈ schema.refs →
      id ∉ (failed.after later).definitions.map (·.1) →
        ∃ before culprit rest, earlier ++ shape :: later = before ++ culprit :: rest ∧
          ((withIndex index).after before).Strays culprit id := by
  subst reached
  have initial : (withIndex index).memory.Refers := nofun
  have steps := steps_after initial earlier
  have refers := steps.refers initial
  have keys := steps.keys_referred (List.nil_subset _)
  have grown := grows refers shape
  rw [failure] at grown
  refine ⟨⟨fun agree => ?_, fun ⟨built, referred⟩ => ?_⟩,
    fun later schema id answer ref missing => ?_⟩
  · exact ⟨built_eq_of_agree agree grown.steps, referred_subset_of_agree agree grown.steps keys⟩
  · have index : failed.index = ((withIndex index).after earlier).index :=
      (congrArg (·.2.index) failure).symm
    refine agree_of_alike index ⟨built, grown.steps.definitions_eq built, fun id => ?_⟩
    exact ⟨fun mem => referred mem, fun mem => grown.steps.referred_subset mem⟩
  · have whole : (withIndex index).after (earlier ++ shape :: later) = failed.after later := by
      rw [after_append, after, run_cons, failure]
    have known := refs_of_run (grown.steps.refers refers) answer ref
    rw [← whole] at known missing
    rcases exists_strays initial known missing with none | strays
    · cases none
    · exact strays

def member : ObjectShape :=
  ⟨"Member", [⟨"team", .ref "Team", none, false⟩]⟩

def team : ObjectShape :=
  ⟨"Team", [⟨"members", .list (.object member), none, false⟩,
    ⟨"clock", .undescribed "Clock", none, false⟩]⟩

def memberSchema : Schema :=
  .object [("team", .reference (referenceId "Team"))] ["team"] none

private theorem referenceId_ne : referenceId "Member" ≠ referenceId "Team" := by
  decide +kernel

private theorem generate_team :
    (withIndex .empty).generate (.object team) = (.error (.unsupported "Clock"),
      ⟨.empty, ⟨[referenceId "Team"], [("Member", memberSchema)], []⟩⟩) := by
  simp [generate, withIndex, team, member, memberSchema, generateShape, generateFields,
    settleObject, Memory.initial, Memory.built?, Memory.refer, Memory.settle, Schema.describeWith,
    referenceId_ne]

private theorem generate_member :
    Session.generate ⟨.empty, ⟨[referenceId "Team"], [("Member", memberSchema)], []⟩⟩
        (.object member) =
      (.ok memberSchema, ⟨.empty, ⟨[referenceId "Team"], [("Member", memberSchema)], []⟩⟩) :=
  generate_built rfl

private theorem generate_member_alone : (withIndex .empty).generate (.object member) =
    (.error (.unresolvedReference "Team"), withIndex .empty) := by
  have stop : generateShape .empty ["Member"] (.ref "Team") .initial =
      (.error (.unresolvedReference "Team"), .initial) :=
    generateShape_unresolved (by decide) rfl rfl
  have whole : generateShape .empty [] (.object member) .initial = settleObject member.name
      (generateFields .empty [member.name] member.name [] member.fields .initial) :=
    generateShape_of_target rfl List.not_mem_nil rfl
  rw [generate, withIndex, whole]
  simp [member, generateFields, stop, settleObject]

theorem clock_agrees_and_team_strays :
    (∃ failed, (withIndex .empty).generate (.undescribed "Clock") =
        (.error (.unsupported "Clock"), failed) ∧
      failed.Agree (withIndex .empty)) ∧
    ∃ failed, (withIndex .empty).generate (.object team) =
        (.error (.unsupported "Clock"), failed) ∧
      ∃ before culprit rest, [.object team, .object member] = before ++ culprit :: rest ∧
        ((withIndex .empty).after before).Strays culprit (referenceId "Team") := by
  constructor
  · have failure : (withIndex .empty).generate (.undescribed "Clock") =
        (.error (.unsupported "Clock"), withIndex .empty) := by
      rw [generate, generateShape]
    obtain ⟨agrees, -⟩ := agree_after_failure_iff .empty [] _ _ _ _ rfl failure
    exact ⟨_, failure, agrees.2 ⟨rfl, List.Subset.refl _⟩⟩
  · obtain ⟨-, strays⟩ := agree_after_failure_iff .empty [] _ _ _ _ rfl generate_team
    refine ⟨_, generate_team, strays [.object member] memberSchema _ ?_ List.mem_cons_self ?_⟩
    · rw [run_cons, generate_member]
      exact List.mem_cons_self
    · rw [after, run_cons, generate_member]
      exact List.not_mem_nil

/-- Members are built while their team is expanded, and the team fails. A member is returned then
with a reference that nothing defines, where a session that was never asked for the team says that
there is none. -/
theorem team_leaves_member :
    ∃ failed, (withIndex .empty).generate (.object team) =
        (.error (.unsupported "Clock"), failed) ∧
      (failed.run [.object member]).1 = [.ok memberSchema] ∧
      referenceId "Team" ∈ memberSchema.refs ∧ (failed.after [.object member]).definitions = [] ∧
      ((withIndex .empty).run [.object member]).1 = [.error (.unresolvedReference "Team")] ∧
      ¬failed.Agree (withIndex .empty) := by
  have alone : ((withIndex .empty).run [.object member]).1 =
      [.error (.unresolvedReference "Team")] := by
    rw [run_cons, generate_member_alone]
    rfl
  refine ⟨_, generate_team, ?_, List.mem_cons_self, ?_, alone, fun agree => ?_⟩
  · rw [run_cons, generate_member]
    rfl
  · rw [after, run_cons, generate_member]
    rfl
  · have same := (agree [.object member]).1
    rw [alone, run_cons, generate_member] at same
    cases same

end Session

end ToolChat
