import Mathlib.Logic.Relation
import ToolChat.Proofs.Tool.Outcome

/-!
Rounds whose calls are polled in any order.

A task waits for its first poll or is a stage. A schedule picks the task that is polled next, one
poll at a time, until each task has its answer. Whatever the schedule, each task gets its own
answer; polling all tasks again and again in their order is one schedule.
-/

set_option autoImplicit false

namespace ToolChat

variable {σ η α β γ : Type} {mayPanic : Prop}

/-- A computation that is polled together with others. -/
inductive Task (σ η α : Type) where
  /-- Nothing of it has run. -/
  | waiting (start : ToolRun σ η (Stage σ η α))
  | started (stage : Stage σ η α)

namespace Task

def poll : Task σ η α → ToolRun σ η (Task σ η α)
  | .waiting start => do return .started (← start)
  | .started stage => do return .started (← stage.poll)

def done (answer : α) : Task σ η α := .started (.done answer)

/-- The answer of a task, now or later, has a property, and no panic takes its place unless one
may. -/
def Meets (mayPanic : Prop) (P : α → Prop) : Task σ η α → Prop
  | .waiting start => ToolChat.Meets mayPanic start (Stage.Meets mayPanic P)
  | .started stage => stage.Meets mayPanic P

theorem meets_poll {P : α → Prop} {task : Task σ η α} (h : task.Meets mayPanic P) :
    ToolChat.Meets mayPanic task.poll (Task.Meets mayPanic P) := by
  cases task with
  | waiting start => exact ToolChat.Meets.bind h fun stage hs => meets_pure hs
  | started stage => exact (Stage.meets_poll h).bind fun stage hs => meets_pure hs

def Polls (before after : Task σ η α × ToolWorld σ η) : Prop :=
  before.1.poll before.2 = some after

theorem polls_start {start : ToolRun σ η (Stage σ η α)} {world after : ToolWorld σ η}
    {stage : Stage σ η α} (h : start world = some (stage, after)) :
    Polls (.waiting start, world) (.started stage, after) :=
  bind_of_eq_some h

theorem polls_poll {stage next : Stage σ η α} {world after : ToolWorld σ η}
    (h : stage.poll world = some (next, after)) :
    Polls (.started stage, world) (.started next, after) :=
  bind_of_eq_some h

theorem polls_complete {stage : Stage σ η α} {world after : ToolWorld σ η} {answer : α}
    (h : stage.complete world = some (answer, after)) :
    Relation.ReflTransGen Polls (.started stage, world) (.done answer, after) := by
  cases stage with
  | done own =>
    cases pure_eq_some.1 h
    exact .refl
  | pending polls finish =>
    induction polls with
    | zero => exact .single (polls_poll (bind_of_eq_some h))
    | succ polls ih => exact .head (polls_poll rfl) (ih h)

end Task

/-- One of the tasks is polled. -/
inductive PollsOne : List (Task σ η α) × ToolWorld σ η → List (Task σ η α) × ToolWorld σ η → Prop
  | here {task next : Task σ η α} {others : List (Task σ η α)} {world after : ToolWorld σ η}
      (polled : Task.Polls (task, world) (next, after)) :
      PollsOne (task :: others, world) (next :: others, after)
  | there {task : Task σ η α} {others next : List (Task σ η α)} {world after : ToolWorld σ η}
      (polled : PollsOne (others, world) (next, after)) :
      PollsOne (task :: others, world) (task :: next, after)

/-- Under some schedule all tasks get their answers. -/
def Interleaves (tasks : List (Task σ η α)) (world : ToolWorld σ η) (answers : List α)
    (after : ToolWorld σ η) : Prop :=
  Relation.ReflTransGen PollsOne (tasks, world) (answers.map .done, after)

section Soundness

variable {Q : γ → α → Prop} {xs : List γ}

theorem PollsOne.meets {before after : List (Task σ η α) × ToolWorld σ η}
    (polled : PollsOne before after)
    (h : List.Forall₂ (fun x task => task.Meets True (Q x)) xs before.1) :
    List.Forall₂ (fun x task => task.Meets True (Q x)) xs after.1 := by
  induction polled generalizing xs with
  | here polled =>
    obtain _ | ⟨first, rest⟩ := h
    exact .cons ((Task.meets_poll first _).2 _ _ polled) rest
  | there _ ih =>
    obtain _ | ⟨first, rest⟩ := h
    exact .cons first (ih rest)

theorem Interleaves.answers {tasks : List (Task σ η α)} {world after : ToolWorld σ η}
    {answers : List α} (h : Interleaves tasks world answers after)
    (each : List.Forall₂ (fun x task => task.Meets True (Q x)) xs tasks) :
    List.Forall₂ Q xs answers := by
  have kept : ∀ config, Relation.ReflTransGen PollsOne (tasks, world) config →
      List.Forall₂ (fun x task => Task.Meets True (Q x) task) xs config.1 := by
    intro config run
    induction run with
    | refl => exact each
    | tail _ polled ih => exact polled.meets ih
  have finished : List.Forall₂ (fun x answer => Task.Meets True (Q x) (Task.done answer)) xs
      answers :=
    List.forall₂_map_right_iff.1 (kept _ h)
  exact finished

end Soundness

section Adequacy

open Relation (ReflTransGen)

/-- Tasks that are polled one after the other, each some number of times, are polled under some
schedule. -/
theorem reaches_of_mapM {f : γ → ToolRun σ η β} {before : γ → Task σ η α}
    {between : β → Task σ η α}
    (each : ∀ x world y after, f x world = some (y, after) →
      ReflTransGen Task.Polls (before x, world) (between y, after))
    {xs : List γ} {ys : List β} {world after : ToolWorld σ η}
    (h : xs.mapM f world = some (ys, after)) :
    ReflTransGen PollsOne (xs.map before, world) (ys.map between, after) := by
  induction xs generalizing ys world with
  | nil =>
    cases pure_eq_some.1 h
    exact .refl
  | cons x xs ih =>
    rw [List.mapM_cons] at h
    obtain ⟨y, middle, first, h⟩ := bind_eq_some.1 h
    obtain ⟨ys, _, rest, h⟩ := bind_eq_some.1 h
    cases pure_eq_some.1 h
    have head : ReflTransGen PollsOne ((x :: xs).map before, world)
        (between y :: xs.map before, middle) :=
      (each _ _ _ _ first).lift (fun config => (config.1 :: xs.map before, config.2))
        fun _ _ polled => .here polled
    have tail : ReflTransGen PollsOne (between y :: xs.map before, middle)
        ((y :: ys).map between, after) :=
      (ih rest).lift (fun config => (between y :: config.1, config.2)) fun _ _ polled =>
        .there polled
    exact head.trans tail

theorem interleaves_of_settle (rounds : Nat) {stages : List (Stage σ η α)}
    {world after : ToolWorld σ η} {answers : List α}
    (h : Stage.settle rounds stages world = some (answers, after)) :
    Interleaves (stages.map .started) world answers after := by
  -- Each round polls all stages once; what is not done after the last is completed in its order.
  induction rounds generalizing stages world with
  | zero => exact reaches_of_mapM (fun _ _ _ _ completed => Task.polls_complete completed) h
  | succ rounds ih =>
    obtain ⟨next, between, polled, h⟩ := bind_eq_some.1 h
    have swept : ReflTransGen PollsOne (stages.map Task.started, world)
        (next.map .started, between) :=
      reaches_of_mapM (fun _ _ _ _ one => .single (Task.polls_poll one)) polled
    exact swept.trans (ih h)

end Adequacy

namespace Executor

variable (executor : Executor σ η) (context : Context)

def task (call : ToolCall) : Task σ η (Except ToolError Execution) :=
  .waiting (executor.start context call)

/-- The calls of a round are polled under some schedule, and the round comes to an outcome. -/
def RunsInterleaved (calls : List ToolCall) (world : ToolWorld σ η)
    (outcome : Except ToolError (List Execution)) (after : ToolWorld σ η) : Prop :=
  ∃ answers, Interleaves (calls.map (executor.task context)) world answers after ∧
    outcome = firstError answers

variable {executor context} {calls : List ToolCall} {world after : ToolWorld σ η}
  {outcome : Except ToolError (List Execution)}

/-- A parallel round polls its calls under a schedule. -/
theorem runsInterleaved_of_runTogether
    (h : executor.runTogether context calls world = some (outcome, after)) :
    executor.RunsInterleaved context calls world outcome after := by
  obtain ⟨stages, between, started, h⟩ := bind_eq_some.1 h
  obtain ⟨answers, last, joined, h⟩ := bind_eq_some.1 h
  cases pure_eq_some.1 h
  have first : Relation.ReflTransGen PollsOne (calls.map (executor.task context), world)
      (stages.map .started, between) :=
    reaches_of_mapM (fun _ _ _ _ one => .single (Task.polls_start one)) started
  exact ⟨answers, first.trans (interleaves_of_settle _ joined), rfl⟩

theorem RunsInterleaved.settles {observer : Observer ToolEvent η}
    {stopwatch : ToolCall → Duration}
    (plain : executor.invoker = .observed observer stopwatch)
    (h : executor.RunsInterleaved context calls world outcome after) :
    Settles (executor.tools.MayComeTo context) calls outcome := by
  obtain ⟨answers, run, rfl⟩ := h
  have tasks : List.Forall₂
      (fun call task => Task.Meets True (executor.tools.MayComeTo context call) task) calls
      (calls.map (executor.task context)) := by
    refine List.forall₂_map_right_iff.2 (List.forall₂_same.2 fun call _ => ?_)
    exact meets_start_mayComeTo plain (fun h => (h trivial).elim) context call
  exact .firstError (run.answers tasks)

end Executor

end ToolChat
