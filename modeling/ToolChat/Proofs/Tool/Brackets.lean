import Mathlib.Data.List.Flatten
import Mathlib.Data.List.Forall2
import ToolChat.Proofs.Tool.Interleaving

/-!
What the observer of calls is told in a round.

Each call is told as a bracket: that it starts, and later how it ends, which shows the outcome of
the call. Calls that run one after the other have one bracket after the other. Calls that are polled
together have their brackets shuffled, under any schedule and whatever their outcomes are.
-/

set_option autoImplicit false

namespace ToolChat

def Observer.Records {ε η : Type} (observer : Observer ε η) (view : η → List ε) : Prop :=
  ∀ event notes, ∃ kept,
    observer.notice event notes = .calm kept ∧ view kept = view notes ++ [event]

theorem Observer.Records.calm {ε η : Type} {observer : Observer ε η} {view : η → List ε}
    (records : observer.Records view) : observer.Calm := by
  intro event notes
  obtain ⟨kept, noticed, -⟩ := records event notes
  exact ⟨kept, noticed⟩

section Sequencing

variable {ς α β γ ε : Type} {view : ς → List ε}

/-- A computation that answers tells some more, which may depend on its answer. -/
def Tells (view : ς → List ε) (x : StateT ς Option α) (P : α → List ε → Prop) : Prop :=
  ∀ s a s', x s = some (a, s') → ∃ told, view s' = view s ++ told ∧ P a told

theorem tells_pure {a : α} {P : α → List ε → Prop} (h : P a []) :
    Tells view (pure a : StateT ς Option α) P := by
  intro s b s' hb
  cases pure_eq_some.1 hb
  exact ⟨[], (List.append_nil _).symm, h⟩

theorem Tells.bind {x : StateT ς Option α} {f : α → StateT ς Option β} {P : α → List ε → Prop}
    {Q : β → List ε → Prop} (hx : Tells view x P)
    (hf : ∀ a told, P a told → Tells view (f a) fun b more => Q b (told ++ more)) :
    Tells view (x >>= f) Q := by
  intro s b s'' hb
  obtain ⟨a, s', ha, hb⟩ := bind_eq_some.1 hb
  obtain ⟨told, before, answer⟩ := hx s a s' ha
  obtain ⟨more, after, whole⟩ := hf a told answer s' b s'' hb
  refine ⟨told ++ more, ?_, whole⟩
  rw [after, before, List.append_assoc]

theorem Tells.mono {x : StateT ς Option α} {P Q : α → List ε → Prop} (h : Tells view x P)
    (imp : ∀ a told, P a told → Q a told) : Tells view x Q := by
  intro s a s' ha
  obtain ⟨told, extended, answer⟩ := h s a s' ha
  exact ⟨told, extended, imp a told answer⟩

theorem Tells.map {x : StateT ς Option α} {f : α → β} {P : α → List ε → Prop}
    {Q : β → List ε → Prop} (hx : Tells view x P) (hf : ∀ a told, P a told → Q (f a) told) :
    Tells view (do return f (← x)) Q :=
  hx.bind fun a told ha => tells_pure ((List.append_nil told).symm ▸ hf a told ha)

end Sequencing

variable {σ η α β γ ε : Type} {view : ToolWorld σ η → List ε}

namespace Stage

def Tells (view : ToolWorld σ η → List ε) (past : List ε) (P : α → List ε → Prop) :
    Stage σ η α → Prop
  | .done answer => P answer past
  | .pending _ finish => ToolChat.Tells view finish fun answer more => P answer (past ++ more)

variable {past : List ε} {P : α → List ε → Prop} {stage : Stage σ η α}

theorem Tells.map {Q : β → List ε → Prop} (h : stage.Tells view past P) {f : α → β}
    (hf : ∀ a told, P a told → Q (f a) told) : (stage.map f).Tells view past Q := by
  cases stage with
  | done answer => exact hf answer past h
  | pending polls finish => exact ToolChat.Tells.map h fun a told ha => hf a _ ha

theorem Tells.complete (h : stage.Tells view past P) :
    ToolChat.Tells view stage.complete fun answer more => P answer (past ++ more) := by
  cases stage with
  | done answer => exact tells_pure ((List.append_nil past).symm ▸ h)
  | pending polls finish => exact h

theorem Tells.poll (h : stage.Tells view past P) :
    ToolChat.Tells view stage.poll fun next more => next.Tells view (past ++ more) P := by
  cases stage with
  | done answer => exact tells_pure ((List.append_nil past).symm ▸ h)
  | pending polls finish =>
    cases polls with
    | zero => exact ToolChat.Tells.map h fun a told ha => ha
    | succ polls => exact tells_pure ((List.append_nil past).symm ▸ h)

end Stage

def Task.Tells (view : ToolWorld σ η → List ε) (past : List ε) (P : α → List ε → Prop) :
    Task σ η α → Prop
  | .waiting start =>
    ToolChat.Tells view start fun stage more => stage.Tells view (past ++ more) P
  | .started stage => stage.Tells view past P

theorem Task.Tells.poll {past : List ε} {P : α → List ε → Prop} {task : Task σ η α}
    (h : task.Tells view past P) :
    ToolChat.Tells view task.poll fun next more => next.Tells view (past ++ more) P := by
  cases task with
  | waiting start => exact ToolChat.Tells.map h fun stage told hs => hs
  | started stage => exact ToolChat.Tells.map (Stage.Tells.poll h) fun next told hs => hs

/-- Traces of several parties, and how they are told together: each time one party goes on. -/
inductive Shuffles : List (List ε) → List ε → Prop
  | silent {traces : List (List ε)} (none : ∀ trace ∈ traces, trace = []) : Shuffles traces []
  | more {before after : List (List ε)} {trace told : List ε}
      (shuffles : Shuffles (before ++ trace :: after) told) (more : List ε) :
      Shuffles (before ++ (trace ++ more) :: after) (told ++ more)

theorem Shuffles.perm {traces : List (List ε)} {told : List ε} (h : Shuffles traces told) :
    told.Perm traces.flatten := by
  induction h with
  | silent none => rw [List.flatten_eq_nil_iff.2 none]
  | @more before after trace told _ more ih =>
    have swap : (after.flatten ++ more).Perm (more ++ after.flatten) := List.perm_append_comm
    have moved := (swap.append_left trace).append_left before.flatten
    simp only [List.flatten_append, List.flatten_cons] at ih ⊢
    refine (ih.append_right more).trans ?_
    simpa only [List.append_assoc] using moved

section Schedules

variable {P : γ → α → List ε → Prop} {pairs : List (γ × List ε)}

/-- A poll extends the trace of one task. -/
theorem PollsOne.tells {before after : List (Task σ η α) × ToolWorld σ η}
    (polled : PollsOne before after)
    (h : List.Forall₂ (fun pair task => Task.Tells view pair.2 (P pair.1) task) pairs before.1) :
    ∃ first x past rest more, pairs = first ++ (x, past) :: rest ∧
      view after.2 = view before.2 ++ more ∧
      List.Forall₂ (fun pair task => Task.Tells view pair.2 (P pair.1) task)
        (first ++ (x, past ++ more) :: rest) after.1 := by
  induction polled generalizing pairs with
  | here polled =>
    obtain _ | ⟨own, others⟩ := h
    obtain ⟨more, told, next⟩ := Task.Tells.poll own _ _ _ polled
    exact ⟨[], _, _, _, more, rfl, told, .cons next others⟩
  | there _ ih =>
    obtain _ | ⟨own, others⟩ := h
    obtain ⟨first, x, past, rest, more, rfl, told, each⟩ := ih others
    exact ⟨_ :: first, x, past, rest, more, rfl, told, .cons own each⟩

theorem Interleaves.tells {tasks : List (Task σ η α)} {world after : ToolWorld σ η}
    {answers : List α} {xs : List γ} (h : Interleaves tasks world answers after)
    (each : List.Forall₂ (fun x task => Task.Tells view [] (P x) task) xs tasks) :
    ∃ (pairs : List (γ × List ε)) (told : List ε), pairs.map (·.1) = xs ∧
      view after = view world ++ told ∧ Shuffles (pairs.map (·.2)) told ∧
      List.Forall₂ (fun pair answer => P pair.1 answer pair.2) pairs answers := by
  have kept : ∀ config, Relation.ReflTransGen PollsOne (tasks, world) config →
      ∃ (pairs : List (γ × List ε)) (told : List ε), pairs.map (·.1) = xs ∧
        view config.2 = view world ++ told ∧ Shuffles (pairs.map (·.2)) told ∧
        List.Forall₂ (fun pair task => Task.Tells view pair.2 (P pair.1) task) pairs config.1 := by
    intro config run
    induction run with
    | refl =>
      refine ⟨xs.map fun x => (x, []), [], ?_, (List.append_nil _).symm, .silent ?_,
        List.forall₂_map_left_iff.2 each⟩
      · rw [List.map_map]
        exact List.map_id xs
      · simp
    | tail _ polled ih =>
      obtain ⟨pairs, told, names, extended, shuffles, tells⟩ := ih
      obtain ⟨first, x, past, rest, more, rfl, last, tells⟩ := polled.tells tells
      refine ⟨_, told ++ more, ?_, ?_, ?_, tells⟩
      · rw [← names]
        simp only [List.map_append, List.map_cons]
      · rw [last, extended, List.append_assoc]
      · simp only [List.map_append, List.map_cons] at shuffles ⊢
        exact shuffles.more more
  obtain ⟨pairs, told, names, extended, shuffles, tells⟩ := kept _ h
  exact ⟨pairs, told, names, extended, shuffles, List.forall₂_map_right_iff.1 tells⟩

end Schedules

/-- What is told of one call that comes to an outcome. -/
inductive Brackets (context : Context) (call : ToolCall) :
    Except ToolError Execution → List ToolEvent → Prop
  | succeeded (text : String) (elapsed : Duration) (raw : Bool) :
      Brackets context call (.ok ⟨⟨call, text⟩, raw⟩)
        [.started call context, .succeeded call context ⟨call, text⟩ elapsed]
  /-- The model is given the message of the error. -/
  | captured (e : ToolError) (elapsed : Duration) (raw : Bool) :
      Brackets context call (.ok ⟨⟨call, e.message⟩, raw⟩)
        [.started call context, .failed call context e elapsed]
  | propagated (e : ToolError) (elapsed : Duration) :
      Brackets context call (.error e)
        [.started call context, .failed call context e elapsed]

inductive BracketsInTurn (context : Context) :
    List ToolCall → Except ToolError (List Execution) → List ToolEvent → Prop
  | done : BracketsInTurn context [] (.ok []) []
  | stopped {call : ToolCall} {calls : List ToolCall} {e : ToolError} {told : List ToolEvent}
      (last : Brackets context call (.error e) told) :
      BracketsInTurn context (call :: calls) (.error e) told
  | next {call : ToolCall} {calls : List ToolCall} {execution : Execution}
      {outcome : Except ToolError (List Execution)} {told more : List ToolEvent}
      (first : Brackets context call (.ok execution) told)
      (rest : BracketsInTurn context calls outcome more) :
      BracketsInTurn context (call :: calls) (outcome.map (execution :: ·)) (told ++ more)

def ToolEvent.closing (call : ToolCall) (context : Context) (elapsed : Duration) :
    Except ToolError Output → ToolEvent
  | .ok output => .succeeded call context ⟨call, output.toText⟩ elapsed
  | .error e =>
    .failed call context { e with toolName := some call.name, callId := some call.id } elapsed

def RegisteredTool.Traces (entry : RegisteredTool σ) (stopwatch : ToolCall → Duration)
    (context : Context) (call : ToolCall) (result : Except ToolError CallResult)
    (told : List ToolEvent) : Prop :=
  ∃ shared, result = entry.settle call (entry.attempt context call shared) ∧
    told = [.started call context,
      .closing call context (stopwatch call) (entry.attempt context call shared)]

namespace RegisteredTool

variable {entry : RegisteredTool σ} {stopwatch : ToolCall → Duration} {context : Context}
  {call : ToolCall}

theorem traces_of_unbound {e : ToolError} (unbound : entry.bind call.arguments = .error e)
    (shared : σ) :
    entry.Traces stopwatch context call (entry.settle call (.error e))
      [.started call context, .closing call context (stopwatch call) (.error e)] :=
  ⟨shared, by rw [attempt_of_unbound unbound], by rw [attempt_of_unbound unbound]⟩

theorem traces_of_bind {arguments : Arguments} (bound : entry.bind call.arguments = .ok arguments)
    (shared : σ) :
    entry.Traces stopwatch context call (entry.settle call (entry.answer context arguments shared))
      [.started call context,
        .closing call context (stopwatch call) (entry.answer context arguments shared)] :=
  ⟨shared, by rw [attempt_of_bind bound], by rw [attempt_of_bind bound]⟩

end RegisteredTool

namespace Toolset

/-- What a call comes to with what is told of it: its tool is not known, its arguments cannot be
bound, or its body answers, or fails with an error that is captured or propagated. -/
inductive Traces (tools : Toolset σ) (stopwatch : ToolCall → Duration) (context : Context)
    (call : ToolCall) : Except ToolError Execution → List ToolEvent → Prop
  | unknown (unknown : tools.get? call.name = none) :
      Traces tools stopwatch context call
        (.ok ⟨⟨call, (ToolError.notFound call.name).message⟩, false⟩)
        [.started call context,
          .failed call context { ToolError.notFound call.name with callId := some call.id } .zero]
  | unbound {entry : RegisteredTool σ} {e : ToolError} (known : tools.get? call.name = some entry)
      (unbound : entry.bind call.arguments = .error e) :
      Traces tools stopwatch context call (.ok ⟨⟨call, e.message⟩, entry.returnRaw⟩)
        [.started call context,
          .failed call context { e with toolName := some call.name, callId := some call.id }
            (stopwatch call)]
  | answered {entry : RegisteredTool σ} {arguments : Arguments} {shared : σ} {output : Output}
      (known : tools.get? call.name = some entry)
      (bound : entry.bind call.arguments = .ok arguments)
      (answers : entry.answer context arguments shared = .ok output) :
      Traces tools stopwatch context call (.ok ⟨⟨call, output.toText⟩, entry.returnRaw⟩)
        [.started call context,
          .succeeded call context ⟨call, output.toText⟩ (stopwatch call)]
  | captured {entry : RegisteredTool σ} {arguments : Arguments} {shared : σ} {e : ToolError}
      (known : tools.get? call.name = some entry)
      (bound : entry.bind call.arguments = .ok arguments)
      (fails : entry.answer context arguments shared = .error e)
      (contained : ¬(entry.propagateErrors = true ∧ e.isUserError = false)) :
      Traces tools stopwatch context call (.ok ⟨⟨call, e.message⟩, entry.returnRaw⟩)
        [.started call context,
          .failed call context { e with toolName := some call.name, callId := some call.id }
            (stopwatch call)]
  | propagated {entry : RegisteredTool σ} {arguments : Arguments} {shared : σ} {e : ToolError}
      (known : tools.get? call.name = some entry)
      (bound : entry.bind call.arguments = .ok arguments)
      (fails : entry.answer context arguments shared = .error e)
      (propagates : entry.propagateErrors = true) (own : e.isUserError = false) :
      Traces tools stopwatch context call
        (.error { e with toolName := some call.name, callId := some call.id })
        [.started call context,
          .failed call context { e with toolName := some call.name, callId := some call.id }
            (stopwatch call)]

variable {tools : Toolset σ} {stopwatch : ToolCall → Duration} {context : Context} {call : ToolCall}

/-- Whichever way a call takes, what is told of it is one bracket. -/
theorem Traces.brackets {outcome : Except ToolError Execution} {told : List ToolEvent}
    (h : tools.Traces stopwatch context call outcome told) :
    Brackets context call outcome told := by
  cases h with
  | unknown =>
    exact .captured { ToolError.notFound call.name with callId := some call.id } _ _
  | @unbound _ e =>
    exact .captured { e with toolName := some call.name, callId := some call.id } _ _
  | answered => exact .succeeded _ _ _
  | @captured _ _ _ e =>
    exact .captured { e with toolName := some call.name, callId := some call.id } _ _
  | propagated => exact .propagated _ _

theorem traces_of_entry {entry : RegisteredTool σ} (known : tools.get? call.name = some entry)
    {result : Except ToolError CallResult} {told : List ToolEvent}
    (h : entry.Traces stopwatch context call result told) :
    tools.Traces stopwatch context call (result.map (⟨·, entry.returnRaw⟩)) told := by
  obtain ⟨shared, rfl, rfl⟩ := h
  cases bound : entry.bind call.arguments with
  | error e =>
    have blamed : e.isUserError = true := isUserError_of_bindArguments bound
    rw [RegisteredTool.attempt_of_unbound bound, RegisteredTool.settle, blamed, Bool.not_true,
      Bool.and_false, if_neg Bool.false_ne_true]
    exact .unbound known bound
  | ok arguments =>
    rw [RegisteredTool.attempt_of_bind bound]
    cases answers : entry.answer context arguments shared with
    | ok output => exact .answered known bound answers
    | error e =>
      rw [RegisteredTool.settle]
      split
      · next propagates =>
        simp only [Bool.and_eq_true, Bool.not_eq_true'] at propagates
        exact .propagated known bound answers propagates.1 propagates.2
      · next contained =>
        simp only [Bool.and_eq_true, Bool.not_eq_true'] at contained
        exact .captured known bound answers contained

end Toolset

namespace Executor

variable {R S : ToolCall → Except ToolError Execution → List ε → Prop}

/-- What calls that run one after the other come to and tell: each one tells its whole trace before
the next one begins, and after the first error no other call tells anything. -/
inductive InTurn (R : ToolCall → Except ToolError Execution → List ε → Prop) :
    List ToolCall → Except ToolError (List Execution) → List ε → Prop
  | all {pairs : List (ToolCall × List ε)} {executions : List Execution}
      (each : List.Forall₂ (fun pair execution => R pair.1 (.ok execution) pair.2) pairs
        executions) :
      InTurn R (pairs.map (·.1)) (.ok executions) (pairs.map (·.2)).flatten
  | first {pairs : List (ToolCall × List ε)} {executions : List Execution} {call : ToolCall}
      {later : List ToolCall} {e : ToolError} {told : List ε}
      (fine : List.Forall₂ (fun pair execution => R pair.1 (.ok execution) pair.2) pairs executions)
      (fails : R call (.error e) told) :
      InTurn R (pairs.map (·.1) ++ call :: later) (.error e) ((pairs.map (·.2)).flatten ++ told)

/-- What calls that are polled together come to and tell: each one tells its whole trace, whatever
the others come to. -/
inductive Together (R : ToolCall → Except ToolError Execution → List ε → Prop) :
    List ToolCall → Except ToolError (List Execution) → List ε → Prop
  | shuffled {pairs : List (ToolCall × List ε)} {answers : List (Except ToolError Execution)}
      {told : List ε} (shuffles : Shuffles (pairs.map (·.2)) told)
      (each : List.Forall₂ (fun pair answer => R pair.1 answer pair.2) pairs answers) :
      Together R (pairs.map (·.1)) (firstError answers) told

namespace InTurn

variable {call : ToolCall} {calls : List ToolCall} {told more : List ε}

theorem nil : InTurn R [] (.ok []) [] := .all .nil

theorem cons_error {e : ToolError} (fails : R call (.error e) told) :
    InTurn R (call :: calls) (.error e) told :=
  .first .nil fails

theorem cons_ok {execution : Execution} {outcome : Except ToolError (List Execution)}
    (fine : R call (.ok execution) told) (rest : InTurn R calls outcome more) :
    InTurn R (call :: calls) (outcome.map (execution :: ·)) (told ++ more) := by
  cases rest with
  | @all pairs executions each =>
    have all := List.Forall₂.cons (a := (call, told)) fine each
    exact .all all
  | @first pairs executions failing later e last earlier fails =>
    have all := List.Forall₂.cons (a := (call, told)) fine earlier
    rw [← List.append_assoc]
    exact .first all fails

theorem bracketsInTurn {tools : Toolset σ} {stopwatch : ToolCall → Duration} {context : Context}
    {outcome : Except ToolError (List Execution)} {told : List ToolEvent}
    (h : InTurn (tools.Traces stopwatch context) calls outcome told) :
    BracketsInTurn context calls outcome told := by
  cases h with
  | all each =>
    induction each with
    | nil => exact .done
    | cons first _ ih => exact .next first.brackets ih
  | first fine fails =>
    induction fine with
    | nil => exact .stopped fails.brackets
    | cons first _ ih =>
      rw [List.map_cons, List.map_cons, List.flatten_cons, List.append_assoc]
      exact .next first.brackets ih

end InTurn

end Executor

namespace Invoker

variable {observer : Observer ToolEvent η} {events : η → List ToolEvent}
  (records : observer.Records events)
include records

theorem tells_tell (event : ToolEvent) :
    Tells (fun world : ToolWorld σ η => events world.observers) (ToolRun.tell observer event)
      fun _ told => told = [event] := by
  intro world a after h
  obtain ⟨kept, noticed, extended⟩ := records event world.observers
  simp only [ToolRun.tell, noticed] at h
  cases h
  exact ⟨[event], extended, rfl⟩

omit records in
theorem tells_runBody {β : Type} (body : StateM σ β) :
    Tells (fun world : ToolWorld σ η => events world.observers) (ToolRun.runBody body)
      fun answer told => told = [] ∧ ∃ shared, answer = (body.run shared).1 := by
  rintro world a after ⟨⟩
  exact ⟨[], (List.append_nil _).symm, rfl, world.tools, rfl⟩

theorem tells_conclude (elapsed : Duration) (entry : RegisteredTool σ) (call : ToolCall)
    (context : Context) (attempt : Except ToolError Output) :
    Tells (fun world : ToolWorld σ η => events world.observers)
      (conclude observer elapsed entry call context attempt) fun result more =>
        result = entry.settle call attempt ∧ more = [.closing call context elapsed attempt] := by
  cases attempt with
  | ok output =>
    refine (tells_tell records _).bind ?_
    rintro _ _ rfl
    exact tells_pure ⟨rfl, rfl⟩
  | error e =>
    refine (tells_tell records _).bind ?_
    rintro _ _ rfl
    unfold RegisteredTool.settle ToolError.isUserError
    dsimp only
    split
    · exact tells_pure ⟨rfl, rfl⟩
    · exact tells_pure ⟨rfl, rfl⟩

theorem tells_invoke (stopwatch : ToolCall → Duration) (entry : RegisteredTool σ)
    (call : ToolCall) (context : Context) :
    Tells (fun world : ToolWorld σ η => events world.observers)
      ((observed observer stopwatch).invoke entry call context) fun stage past =>
        stage.Tells (fun world : ToolWorld σ η => events world.observers) past
          (entry.Traces stopwatch context call) := by
  -- If the body does not run, what tools share at first will do.
  have whole : ∀ shared : σ, Tells (fun world : ToolWorld σ η => events world.observers)
      ((observed observer stopwatch).invoke entry call context) fun stage past =>
        stage.Tells (fun world : ToolWorld σ η => events world.observers) past
          (entry.Traces stopwatch context call) := by
    intro shared
    refine (tells_tell records _).bind ?_
    rintro _ _ rfl
    split
    · next e unbound =>
      refine (tells_conclude records _ entry call context _).map ?_
      rintro _ _ ⟨rfl, rfl⟩
      exact RegisteredTool.traces_of_unbound unbound shared
    · next arguments bound =>
      have finish : Tells (fun world : ToolWorld σ η => events world.observers)
          (do
            let outcome ← ToolRun.runBody (entry.handler.body arguments context)
            conclude observer (stopwatch call) entry call context outcome)
          fun result more =>
            entry.Traces stopwatch context call result (.started call context :: more) := by
        refine (tells_runBody _).bind ?_
        rintro _ _ ⟨rfl, shared, rfl⟩
        refine (tells_conclude records _ entry call context _).mono ?_
        rintro _ _ ⟨rfl, rfl⟩
        exact RegisteredTool.traces_of_bind bound shared
      dsimp only
      split
      · exact finish.map fun _ _ closed => closed
      · exact tells_pure finish
  exact fun world => whole world.tools world

theorem tells_unknown (stopwatch : ToolCall → Duration) (call : ToolCall) (context : Context) :
    Tells (fun world : ToolWorld σ η => events world.observers)
      ((observed observer stopwatch).unknown call context) fun result told =>
        result = ⟨call, (ToolError.notFound call.name).message⟩ ∧
          told = [.started call context,
            .failed call context { ToolError.notFound call.name with callId := some call.id }
              .zero] := by
  refine (tells_tell records _).bind ?_
  rintro _ _ rfl
  refine (tells_tell records _).bind ?_
  rintro _ _ rfl
  exact tells_pure ⟨rfl, rfl⟩

end Invoker

namespace Executor

section Telling

variable {executor : Executor σ η} {observer : Observer ToolEvent η}
  {stopwatch : ToolCall → Duration} {events : η → List ToolEvent}
  (plain : executor.invoker = .observed observer stopwatch) (records : observer.Records events)
  (context : Context)
include plain records

theorem tells_start (call : ToolCall) :
    Tells (fun world : ToolWorld σ η => events world.observers) (executor.start context call)
      fun stage past => stage.Tells (fun world : ToolWorld σ η => events world.observers) past
        (executor.tools.Traces stopwatch context call) := by
  unfold start
  rw [plain]
  split
  · next unknown =>
    refine (Invoker.tells_unknown records stopwatch call context).map ?_
    rintro _ _ ⟨rfl, rfl⟩
    exact .unknown unknown
  · next entry known =>
    refine (Invoker.tells_invoke records stopwatch entry call context).map fun stage told hs => ?_
    exact hs.map fun _ _ trace => Toolset.traces_of_entry known trace

theorem tells_runCall (call : ToolCall) :
    Tells (fun world : ToolWorld σ η => events world.observers) (executor.runCall context call)
      (executor.tools.Traces stopwatch context call) :=
  (tells_start plain records context call).bind fun _ _ hs => hs.complete

theorem traces_runInTurn (calls : List ToolCall) :
    Tells (fun world : ToolWorld σ η => events world.observers) (executor.runInTurn context calls)
      (InTurn (executor.tools.Traces stopwatch context) calls) := by
  induction calls with
  | nil => exact tells_pure .nil
  | cons call calls ih =>
    refine (tells_runCall plain records context call).bind fun outcome told first => ?_
    cases outcome with
    | error e =>
      refine tells_pure ?_
      rw [List.append_nil]
      exact .cons_error first
    | ok execution =>
      refine ih.bind fun outcomes more rest => ?_
      have whole := InTurn.cons_ok first rest
      cases outcomes with
      | error e => exact tells_pure ((List.append_nil more).symm ▸ whole)
      | ok executions => exact tells_pure ((List.append_nil more).symm ▸ whole)

theorem tells_runInTurn (calls : List ToolCall) :
    Tells (fun world : ToolWorld σ η => events world.observers) (executor.runInTurn context calls)
      (BracketsInTurn context calls) :=
  (traces_runInTurn plain records context calls).mono fun _ _ told => told.bracketsInTurn

theorem RunsInterleaved.traces {calls : List ToolCall} {world after : ToolWorld σ η}
    {outcome : Except ToolError (List Execution)}
    (h : executor.RunsInterleaved context calls world outcome after) :
    ∃ told, events after.observers = events world.observers ++ told ∧
      Together (executor.tools.Traces stopwatch context) calls outcome told := by
  obtain ⟨answers, run, rfl⟩ := h
  have tasks : List.Forall₂ (fun call task => Task.Tells
      (fun world : ToolWorld σ η => events world.observers) []
      (executor.tools.Traces stopwatch context call) task)
      calls (calls.map (executor.task context)) :=
    List.forall₂_map_right_iff.2 (List.forall₂_same.2 fun call _ =>
      tells_start plain records context call)
  obtain ⟨pairs, told, rfl, extended, shuffles, traces⟩ := run.tells tasks
  exact ⟨told, extended, .shuffled shuffles traces⟩

theorem RunsInterleaved.tells {calls : List ToolCall} {world after : ToolWorld σ η}
    {outcome : Except ToolError (List Execution)}
    (h : executor.RunsInterleaved context calls world outcome after) :
    ∃ (pairs : List (ToolCall × List ToolEvent)) (answers : List (Except ToolError Execution))
        (told : List ToolEvent),
      pairs.map (·.1) = calls ∧ outcome = firstError answers ∧
      events after.observers = events world.observers ++ told ∧
      Shuffles (pairs.map (·.2)) told ∧
      List.Forall₂ (fun pair answer => Brackets context pair.1 answer pair.2) pairs answers := by
  obtain ⟨told, extended, together⟩ := RunsInterleaved.traces plain records context h
  cases together with
  | shuffled shuffles traces =>
    exact ⟨_, _, told, rfl, rfl, extended, shuffles, traces.imp fun _ _ trace => trace.brackets⟩

end Telling

/-- Every call of a round that is carried out tells that it starts, and then how it ends. One after
the other the calls tell this in the order of the request, up to the first error that is propagated;
polled together they all do, under every schedule and whatever the others come to. -/
theorem runCalls_traces (executor : Executor σ η) (observer : Observer ToolEvent η)
    (stopwatch : ToolCall → Duration) (events : η → List ToolEvent)
    (plain : executor.invoker = .observed observer stopwatch) (records : observer.Records events)
    (context : Context) (calls : List ToolCall) (world : ToolWorld σ η) :
    (∀ parallel, ∃ outcome after,
      executor.runCalls context parallel calls world = some (outcome, after)) ∧
    (∀ outcome after, executor.runCalls context false calls world = some (outcome, after) →
      ∃ told, events after.observers = events world.observers ++ told ∧
        InTurn (executor.tools.Traces stopwatch context) calls outcome told) ∧
    (∀ outcome after, executor.runCalls context true calls world = some (outcome, after) →
      executor.RunsInterleaved context calls world outcome after) ∧
    ∀ outcome after, executor.RunsInterleaved context calls world outcome after →
      ∃ told, events after.observers = events world.observers ++ told ∧
        Together (executor.tools.Traces stopwatch context) calls outcome told := by
  refine ⟨fun parallel => ?_, fun outcome after run => ?_, fun outcome after run => ?_,
    fun outcome after run => RunsInterleaved.traces plain records context run⟩
  · obtain ⟨⟨outcome, after⟩, run⟩ := (meets_runCalls_settles plain (fun _ => records.calm) context
      parallel calls).exists_eq_some world
    exact ⟨outcome, after, run⟩
  · exact traces_runInTurn plain records context calls _ _ _ run
  · exact runsInterleaved_of_runTogether run

def keeping : Observer ToolEvent (List ToolEvent) :=
  ⟨fun event events => .calm (events ++ [event])⟩

def errandTools : Toolset RunCounts :=
  (Toolset.ofTools
    [{ name := "greet", handler := .constant (.text "hello") },
      { name := "add", parameters := [{ name := some "n", shape := .integer .i32 }],
        handler := .sum ["n"], propagateErrors := true },
      { name := "break", handler := (Handler.failing (.execution "broken")).delayed 2,
        propagateErrors := true }]).toOption.getD .empty

def errands : List ToolCall :=
  [⟨"a", "nope", ""⟩, ⟨"b", "add", ""⟩, ⟨"c", "break", ""⟩, ⟨"d", "greet", ""⟩]

def errandExecutor : Executor RunCounts (List ToolEvent) :=
  ⟨errandTools, .observed keeping fun _ => .zero⟩

/-- Which call an event is about, and how far it has come. -/
def errandSign : ToolEvent → String
  | .started call _ => call.id ++ " starts"
  | .succeeded call .. => call.id ++ " succeeds"
  | .failed call .. => call.id ++ " fails"

theorem add_entered : RegisteredTool.ofTool (σ := RunCounts)
    { name := "add", parameters := [{ name := some "n", shape := .integer .i32 }],
      handler := .sum ["n"], propagateErrors := true } =
    .ok ⟨{ name := "add", parameters := some (.object [("n", .integer none)] ["n"] none) },
      [{ name := some "n", shape := .integer .i32 }], .empty, .sum ["n"], false, true⟩ := by
  have named : isBlank "add" = false := by decide
  have names : nameParameters [{ name := some "n", shape := .integer .i32 }] =
      [("n", ⟨some "n", .integer .i32, none, false⟩)] := rfl
  have required : requiredParameters [{ name := some "n", shape := .integer .i32 }] = ["n"] := rfl
  have index : ShapeIndex.ofParameters [{ name := some "n", shape := .integer .i32 }] = .empty :=
    rfl
  simp [RegisteredTool.ofTool, named, generateParametersWith, names, required, index,
    generateProperties, Session.generate, Session.withIndex, Session.definitions, generateShape,
    Schema.describeWith, Memory.initial, Specification.withParameters]

theorem errandTools_eq : errandTools =
    ⟨⟨[("greet", 0), ("add", 1), ("break", 2)],
      [("greet", ⟨{ name := "greet" }, [], .empty, .constant (.text "hello"), false, false⟩),
        ("add",
          ⟨{ name := "add", parameters := some (.object [("n", .integer none)] ["n"] none) },
            [{ name := some "n", shape := .integer .i32 }], .empty, .sum ["n"], false, true⟩),
        ("break", ⟨{ name := "break" }, [], .empty,
          (Handler.failing (.execution "broken")).delayed 2, false, true⟩)]⟩⟩ := by
  have greet : RegisteredTool.ofTool (σ := RunCounts)
      { name := "greet", handler := .constant (.text "hello") } =
        .ok ⟨{ name := "greet" }, [], .empty, .constant (.text "hello"), false, false⟩ := rfl
  have breaks : RegisteredTool.ofTool (σ := RunCounts)
      { name := "break", handler := (Handler.failing (.execution "broken")).delayed 2,
        propagateErrors := true } =
        .ok ⟨{ name := "break" }, [], .empty, (Handler.failing (.execution "broken")).delayed 2,
          false, true⟩ := rfl
  simp [errandTools, Toolset.ofTools, Toolset.registerAll, Toolset.register, greet, add_entered,
    breaks, Toolset.contains, Toolset.empty, Registry.contains, Registry.insert?, Registry.empty,
    List.lookup_cons, Except.toOption]

theorem errands_traced :
    (∃ outcome told,
      InTurn (errandTools.Traces (fun _ => .zero) ⟨"s", 1, []⟩) errands outcome told ∧
      told.map errandSign =
        ["a starts", "a fails", "b starts", "b fails", "c starts", "c fails"]) ∧
    ∃ outcome told,
      Together (errandTools.Traces (fun _ => .zero) ⟨"s", 1, []⟩) errands outcome told ∧
      told.map errandSign =
        ["a starts", "a fails", "b starts", "b fails", "c starts", "d starts", "d succeeds",
          "c fails"] := by
  have records : keeping.Records id := fun event events => ⟨events ++ [event], rfl, rfl⟩
  obtain ⟨returns, inTurn, scheduled, together⟩ := runCalls_traces errandExecutor keeping
    (fun _ => .zero) id rfl records ⟨"s", 1, []⟩ errands ⟨[], []⟩
  constructor
  · obtain ⟨outcome, after, run⟩ := returns false
    obtain ⟨told, extended, traces⟩ := inTurn outcome after run
    have signs : (errandExecutor.runCalls ⟨"s", 1, []⟩ false errands ⟨[], []⟩).map
        (fun r => r.2.observers.map errandSign) =
          some ["a starts", "a fails", "b starts", "b fails", "c starts", "c fails"] := by
      rw [errandExecutor, errandTools_eq]
      decide +kernel
    have kept : after.observers = told := extended
    rw [run, Option.map_some, Option.some.injEq, kept] at signs
    exact ⟨outcome, told, traces, signs⟩
  · obtain ⟨outcome, after, run⟩ := returns true
    obtain ⟨told, extended, traces⟩ := together outcome after (scheduled outcome after run)
    have signs : (errandExecutor.runCalls ⟨"s", 1, []⟩ true errands ⟨[], []⟩).map
        (fun r => r.2.observers.map errandSign) =
          some ["a starts", "a fails", "b starts", "b fails", "c starts", "d starts", "d succeeds",
            "c fails"] := by
      rw [errandExecutor, errandTools_eq]
      decide +kernel
    have kept : after.observers = told := extended
    rw [run, Option.map_some, Option.some.injEq, kept] at signs
    exact ⟨outcome, told, traces, signs⟩

end Executor

end ToolChat
