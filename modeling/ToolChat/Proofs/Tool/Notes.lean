import Mathlib.Data.List.Basic
import ToolChat.Proofs.Run
import ToolChat.Tool.Executor

/-!
What a round of calls leaves as it is.

An invariant of what runs of tools see is kept by a round if it is kept by telling the observer of
calls and by the bodies of tools. A stage keeps it if the rest of its computation does, however
often it is polled before.
-/

set_option autoImplicit false

namespace ToolChat

section Sequencing

variable {ς α β γ : Type} {I : ς → Prop}

/-- Where an invariant holds it still holds after a computation, and the answer has a property. -/
def Preserves (I : ς → Prop) (x : StateT ς Option α) (P : α → Prop) : Prop :=
  ∀ s, I s → ∀ a s', x s = some (a, s') → I s' ∧ P a

theorem preserves_pure {a : α} {P : α → Prop} (h : P a) :
    Preserves I (pure a : StateT ς Option α) P := by
  intro s hs b s' hb
  cases pure_eq_some.1 hb
  exact ⟨hs, h⟩

theorem Preserves.bind {x : StateT ς Option α} {f : α → StateT ς Option β} {P : α → Prop}
    {Q : β → Prop} (hx : Preserves I x P) (hf : ∀ a, P a → Preserves I (f a) Q) :
    Preserves I (x >>= f) Q := by
  intro s hs b s'' hb
  obtain ⟨a, s', ha, hb⟩ := bind_eq_some.1 hb
  obtain ⟨hs', answer⟩ := hx s hs a s' ha
  exact hf a answer s' hs' b s'' hb

theorem Preserves.mono {x : StateT ς Option α} {P Q : α → Prop} (h : Preserves I x P)
    (imp : ∀ a, P a → Q a) : Preserves I x Q := by
  intro s hs a s' ha
  obtain ⟨hs', answer⟩ := h s hs a s' ha
  exact ⟨hs', imp a answer⟩

theorem preserves_mapM {f : α → StateT ς Option β} {P : α → Prop} {Q : β → Prop}
    (hf : ∀ a, P a → Preserves I (f a) Q) {as : List α} (all : ∀ a ∈ as, P a) :
    Preserves I (as.mapM f) fun bs => ∀ b ∈ bs, Q b := by
  induction as with
  | nil => exact preserves_pure nofun
  | cons a as ih =>
    rw [List.mapM_cons]
    obtain ⟨first, rest⟩ := List.forall_mem_cons.1 all
    refine (hf a first).bind fun b hb => (ih rest).bind fun bs hbs => preserves_pure ?_
    exact List.forall_mem_cons.2 ⟨hb, hbs⟩

end Sequencing

variable {σ η α β : Type} {I : ToolWorld σ η → Prop}

namespace Stage

def Preserves (I : ToolWorld σ η → Prop) : Stage σ η α → Prop
  | .done _ => True
  | .pending _ finish => ToolChat.Preserves I finish fun _ => True

theorem Preserves.map {stage : Stage σ η α} (h : stage.Preserves I) (f : α → β) :
    (stage.map f).Preserves I := by
  cases stage with
  | done answer => trivial
  | pending polls finish => exact ToolChat.Preserves.bind h fun a _ => preserves_pure trivial

theorem preserves_complete {stage : Stage σ η α} (h : stage.Preserves I) :
    ToolChat.Preserves I stage.complete fun _ => True := by
  cases stage with
  | done answer => exact preserves_pure trivial
  | pending polls finish => exact h

theorem preserves_poll {stage : Stage σ η α} (h : stage.Preserves I) :
    ToolChat.Preserves I stage.poll (Stage.Preserves I) := by
  cases stage with
  | done answer => exact preserves_pure trivial
  | pending polls finish =>
    cases polls with
    | zero => exact ToolChat.Preserves.bind h fun a _ => preserves_pure trivial
    | succ polls => exact preserves_pure h

theorem preserves_settle (rounds : Nat) {stages : List (Stage σ η α)}
    (h : ∀ stage ∈ stages, stage.Preserves I) :
    ToolChat.Preserves I (settle rounds stages) fun _ => True := by
  induction rounds generalizing stages with
  | zero =>
    exact (preserves_mapM (fun stage hs => preserves_complete hs) h).mono fun _ _ => trivial
  | succ rounds ih =>
    exact (preserves_mapM (fun stage hs => preserves_poll hs) h).bind fun stages hs => ih hs

end Stage

namespace Invoker

structure Preserves (I : ToolWorld σ η → Prop) (invoker : Invoker σ η) : Prop where
  invoke : ∀ entry call context,
    ToolChat.Preserves I (invoker.invoke entry call context) (Stage.Preserves I)
  unknown : ∀ call context, ToolChat.Preserves I (invoker.unknown call context) fun _ => True

section Observed

variable {observer : Observer ToolEvent η}
  (tell : ∀ event, ToolChat.Preserves I (ToolRun.tell observer event) fun _ => True)
include tell

private theorem preserves_conclude (elapsed : Duration) (entry : RegisteredTool σ)
    (call : ToolCall) (context : Context) (outcome : Except ToolError Output) :
    ToolChat.Preserves I (conclude observer elapsed entry call context outcome) fun _ => True := by
  cases outcome with
  | ok output => exact (tell _).bind fun _ _ => preserves_pure trivial
  | error e =>
    refine (tell _).bind fun _ _ => ?_
    split
    · exact preserves_pure trivial
    · exact preserves_pure trivial

theorem preserves_observed
    (body : ∀ {α : Type} (body : StateM σ α),
      ToolChat.Preserves I (ToolRun.runBody body) fun _ => True)
    (stopwatch : ToolCall → Duration) : (observed observer stopwatch).Preserves I where
  invoke entry call context := by
    refine (tell _).bind fun _ _ => ?_
    split
    · next e _ =>
      exact (preserves_conclude tell _ entry call context (.error e)).bind fun _ _ =>
        preserves_pure trivial
    · next arguments _ =>
      have finish := (body (entry.handler.body arguments context)).bind fun outcome _ =>
        preserves_conclude tell (stopwatch call) entry call context outcome
      split
      · exact finish.bind fun _ _ => preserves_pure trivial
      · exact preserves_pure finish
  unknown call context :=
    (tell _).bind fun _ _ => (tell _).bind fun _ _ => preserves_pure trivial

end Observed

end Invoker

namespace Executor

variable {executor : Executor σ η} (h : executor.invoker.Preserves I) (context : Context)
include h

theorem preserves_start (call : ToolCall) :
    Preserves I (executor.start context call) (Stage.Preserves I) := by
  unfold start
  split
  · exact (h.unknown call context).bind fun _ _ => preserves_pure trivial
  · next entry _ =>
    exact (h.invoke entry call context).bind fun stage hs => preserves_pure (hs.map _)

theorem preserves_runCall (call : ToolCall) :
    Preserves I (executor.runCall context call) fun _ => True :=
  (preserves_start h context call).bind fun _ hs => Stage.preserves_complete hs

theorem preserves_runInTurn (calls : List ToolCall) :
    Preserves I (executor.runInTurn context calls) fun _ => True := by
  induction calls with
  | nil => exact preserves_pure trivial
  | cons call calls ih =>
    refine (preserves_runCall h context call).bind fun outcome _ => ?_
    cases outcome with
    | error e => exact preserves_pure trivial
    | ok execution =>
      refine ih.bind fun outcomes _ => ?_
      cases outcomes with
      | error e => exact preserves_pure trivial
      | ok executions => exact preserves_pure trivial

theorem preserves_runTogether (calls : List ToolCall) :
    Preserves I (executor.runTogether context calls) fun _ => True := by
  have started : Preserves I (calls.mapM (executor.start context))
      fun stages => ∀ stage ∈ stages, Stage.Preserves I stage :=
    preserves_mapM (fun call _ => preserves_start h context call) fun _ _ => trivial
  exact started.bind fun stages hs => (Stage.preserves_settle _ hs).bind fun _ _ =>
    preserves_pure trivial

theorem preserves_runCalls (parallel : Bool) (calls : List ToolCall) :
    Preserves I (executor.runCalls context parallel calls) fun _ => True := by
  unfold runCalls
  split
  · exact preserves_runTogether h context calls
  · exact preserves_runInTurn h context calls

end Executor

end ToolChat
