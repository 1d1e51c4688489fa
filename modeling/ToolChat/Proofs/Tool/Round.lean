import ToolChat.Proofs.Run
import ToolChat.Tool.Executor

/-!
What a round of calls gives back.

A round has one execution for each call, in the order of the calls, whether the calls run one after
the other or together. An execution is marked raw if its tool is registered and returns raw, and it
carries the result of its own call if the invoker keeps calls, as `Invoker.observed` does.
-/

set_option autoImplicit false

namespace ToolChat

variable {σ η α β : Type} {mayPanic : Prop}

namespace Stage

/-- The answer of a stage, now or later, has a property, and no panic takes its place unless one
may. -/
def Meets (mayPanic : Prop) (P : α → Prop) : Stage σ η α → Prop
  | .done answer => P answer
  | .pending _ finish => ToolChat.Meets mayPanic finish P

theorem Meets.map {f : α → β} {P : α → Prop} {Q : β → Prop} {stage : Stage σ η α}
    (h : stage.Meets mayPanic P) (hf : ∀ a, P a → Q (f a)) : (stage.map f).Meets mayPanic Q := by
  cases stage with
  | done answer => exact hf answer h
  | pending polls finish => exact ToolChat.Meets.bind h fun a ha => meets_pure (hf a ha)

theorem Meets.mono {P Q : α → Prop} {stage : Stage σ η α} (h : stage.Meets mayPanic P)
    (imp : ∀ a, P a → Q a) : stage.Meets mayPanic Q := by
  cases stage with
  | done answer => exact imp answer h
  | pending polls finish => exact ToolChat.Meets.mono h imp

theorem meets_complete {P : α → Prop} {stage : Stage σ η α} (h : stage.Meets mayPanic P) :
    ToolChat.Meets mayPanic stage.complete P := by
  cases stage with
  | done answer => exact meets_pure h
  | pending polls finish => exact h

theorem meets_poll {P : α → Prop} {stage : Stage σ η α} (h : stage.Meets mayPanic P) :
    ToolChat.Meets mayPanic stage.poll (Stage.Meets mayPanic P) := by
  cases stage with
  | done answer => exact meets_pure h
  | pending polls finish =>
    cases polls with
    | zero => exact ToolChat.Meets.bind h fun a ha => meets_pure ha
    | succ polls => exact meets_pure h

theorem meets_settle {γ : Type} {Q : γ → α → Prop} {xs : List γ} (rounds : Nat)
    {stages : List (Stage σ η α)}
    (h : List.Forall₂ (fun x stage => stage.Meets mayPanic (Q x)) xs stages) :
    ToolChat.Meets mayPanic (settle rounds stages) (List.Forall₂ Q xs) := by
  induction rounds generalizing stages with
  | zero => exact meets_mapM h fun x stage hx => meets_complete hx
  | succ rounds ih =>
    have polled : ToolChat.Meets mayPanic (stages.mapM poll)
        (List.Forall₂ (fun x stage => stage.Meets mayPanic (Q x)) xs) :=
      meets_mapM h fun x stage hx => meets_poll hx
    exact polled.bind fun stages hs => ih hs

end Stage

namespace Invoker

structure Meets (mayPanic : Prop) (P : ToolCall → CallResult → Prop) (invoker : Invoker σ η) :
    Prop where
  invoke : ∀ entry call context, ToolChat.Meets mayPanic (invoker.invoke entry call context)
    (Stage.Meets mayPanic fun outcome => ∀ result, outcome = .ok result → P call result)
  unknown : ∀ call context, ToolChat.Meets mayPanic (invoker.unknown call context) (P call)

theorem Meets.mono {P Q : ToolCall → CallResult → Prop} {invoker : Invoker σ η}
    (h : invoker.Meets mayPanic P) (imp : ∀ call result, P call result → Q call result) :
    invoker.Meets mayPanic Q where
  invoke entry call context := (h.invoke entry call context).mono fun _ hs =>
    hs.mono fun _ ho result hr => imp call result (ho result hr)
  unknown call context := (h.unknown call context).mono (imp call)

/-- Every result is the result of the call that was to be carried out. -/
def KeepsCalls (invoker : Invoker σ η) : Prop :=
  invoker.Meets True fun call result => result.call = call

def Answers (invoker : Invoker σ η) : Prop :=
  invoker.Meets False fun _ _ => True

private theorem meets_conclude {observer : Observer ToolEvent η}
    (calm : ¬mayPanic → observer.Calm) (elapsed : Duration) (entry : RegisteredTool σ)
    (call : ToolCall) (context : Context) (outcome : Except ToolError Output) :
    ToolChat.Meets mayPanic (conclude observer elapsed entry call context outcome)
      fun answer => ∀ result, answer = .ok result → result.call = call := by
  cases outcome with
  | ok output =>
    refine (ToolRun.meets_tell calm _).bind fun _ _ => meets_pure ?_
    rintro result ⟨⟩
    rfl
  | error e =>
    refine (ToolRun.meets_tell calm _).bind fun _ _ => ?_
    split
    · exact meets_pure nofun
    · refine meets_pure ?_
      rintro result ⟨⟩
      rfl

theorem meets_observed {observer : Observer ToolEvent η} (calm : ¬mayPanic → observer.Calm)
    (stopwatch : ToolCall → Duration) :
    (observed observer stopwatch : Invoker σ η).Meets mayPanic
      fun call result => result.call = call where
  invoke entry call context := by
    refine (ToolRun.meets_tell calm _).bind fun _ _ => ?_
    split
    · exact (meets_conclude calm _ entry call context _).bind fun a ha => meets_pure ha
    · next arguments _ =>
      have body : ToolChat.Meets mayPanic
          (ToolRun.runBody (entry.handler.body arguments context) : ToolRun σ η _) fun _ => True :=
        ToolRun.meets_runBody _
      have finish := body.bind fun outcome _ =>
        meets_conclude calm (stopwatch call) entry call context outcome
      split
      · exact finish.bind fun a ha => meets_pure ha
      · exact meets_pure finish
  unknown call context := by
    refine (ToolRun.meets_tell calm _).bind fun _ _ => ?_
    exact (ToolRun.meets_tell calm _).bind fun _ _ => meets_pure rfl

theorem keepsCalls_observed (observer : Observer ToolEvent η) (stopwatch : ToolCall → Duration) :
    (observed observer stopwatch : Invoker σ η).KeepsCalls :=
  meets_observed (fun h => (h trivial).elim) stopwatch

theorem answers_observed {observer : Observer ToolEvent η} (calm : observer.Calm)
    (stopwatch : ToolCall → Duration) : (observed observer stopwatch : Invoker σ η).Answers :=
  (meets_observed (fun _ => calm) stopwatch).mono fun _ _ _ => trivial

end Invoker

namespace Executor

def returnsRaw (executor : Executor σ η) (call : ToolCall) : Bool :=
  (executor.tools.get? call.name).any (·.returnRaw)

variable {executor : Executor σ η} {P : ToolCall → CallResult → Prop}

/-- What an execution of a call is like when results are like `P`. -/
def Executes (executor : Executor σ η) (P : ToolCall → CallResult → Prop) (call : ToolCall)
    (execution : Execution) : Prop :=
  P call execution.result ∧ execution.raw = executor.returnsRaw call

theorem meets_start (h : executor.invoker.Meets mayPanic P) (context : Context)
    (call : ToolCall) :
    Meets mayPanic (executor.start context call) (Stage.Meets mayPanic fun outcome =>
      ∀ execution, outcome = .ok execution → executor.Executes P call execution) := by
  unfold start
  split
  · next unknown =>
    refine (h.unknown call context).bind fun result hr => meets_pure ?_
    rintro execution ⟨⟩
    exact ⟨hr, by simp only [returnsRaw, unknown, Option.any_none]⟩
  · next entry known =>
    refine (h.invoke entry call context).bind fun stage hs => meets_pure (hs.map ?_)
    rintro (_ | result) hr execution ⟨⟩
    exact ⟨hr result rfl, by simp only [returnsRaw, known, Option.any_some]⟩

theorem meets_runCall (h : executor.invoker.Meets mayPanic P) (context : Context)
    (call : ToolCall) :
    Meets mayPanic (executor.runCall context call) fun outcome =>
      ∀ execution, outcome = .ok execution → executor.Executes P call execution :=
  (meets_start h context call).bind fun _ hs => Stage.meets_complete hs

theorem meets_runInTurn (h : executor.invoker.Meets mayPanic P) (context : Context)
    (calls : List ToolCall) :
    Meets mayPanic (executor.runInTurn context calls) fun outcome =>
      ∀ executions, outcome = .ok executions →
        List.Forall₂ (executor.Executes P) calls executions := by
  induction calls with
  | nil =>
    refine meets_pure ?_
    rintro executions ⟨⟩
    exact .nil
  | cons call calls ih =>
    refine (meets_runCall h context call).bind fun outcome ho => ?_
    cases outcome with
    | error e => exact meets_pure nofun
    | ok execution =>
      refine ih.bind fun outcomes hos => ?_
      cases outcomes with
      | error e => exact meets_pure nofun
      | ok executions =>
        refine meets_pure ?_
        rintro _ ⟨⟩
        exact .cons (ho execution rfl) (hos executions rfl)

private theorem forall₂_of_firstError {Q : ToolCall → α → Prop} {calls : List ToolCall}
    {outcomes : List (Except ToolError α)} {answers : List α}
    (h : List.Forall₂ (fun call outcome => ∀ a, outcome = .ok a → Q call a) calls outcomes)
    (ok : firstError outcomes = .ok answers) : List.Forall₂ Q calls answers := by
  induction h generalizing answers with
  | nil =>
    cases ok
    exact .nil
  | @cons call outcome calls outcomes ho _ ih =>
    cases outcome with
    | error e => cases ok
    | ok a =>
      cases hs : firstError outcomes with
      | error e => simp [firstError, hs, Except.map] at ok
      | ok rest =>
        simp only [firstError, hs, Except.map, Except.ok.injEq] at ok
        subst ok
        exact .cons (ho a rfl) (ih hs)

theorem meets_runTogether (h : executor.invoker.Meets mayPanic P) (context : Context)
    (calls : List ToolCall) :
    Meets mayPanic (executor.runTogether context calls) fun outcome =>
      ∀ executions, outcome = .ok executions →
        List.Forall₂ (executor.Executes P) calls executions := by
  have self : List.Forall₂ Eq calls calls := List.forall₂_eq_eq_eq ▸ rfl
  have started : Meets mayPanic (calls.mapM (executor.start context))
      (List.Forall₂ (fun call stage => stage.Meets mayPanic fun outcome =>
        ∀ execution, outcome = .ok execution → executor.Executes P call execution) calls) :=
    meets_mapM self fun call _ same => same ▸ meets_start h context call
  refine started.bind fun stages hs => (Stage.meets_settle _ hs).bind fun outcomes ho => ?_
  exact meets_pure fun executions ok => forall₂_of_firstError ho ok

/-- A round that is run to its end has one execution for each call, in order. -/
theorem meets_runRound (h : executor.invoker.Meets mayPanic P) (context : Context)
    (parallel : Bool) (calls : List ToolCall) :
    Meets mayPanic (executor.runRound context parallel calls) fun outcome =>
      ∀ executions, outcome = .ok executions →
        List.Forall₂ (executor.Executes P) calls executions := by
  refine Run.meets_ofTools ?_
  unfold runCalls
  split
  · exact meets_runTogether h context calls
  · exact meets_runInTurn h context calls

end Executor

end ToolChat
