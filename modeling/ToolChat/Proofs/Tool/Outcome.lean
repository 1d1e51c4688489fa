import ToolChat.Proofs.Tool.Attempt

/-!
What the calls of a round come to.

A call comes to a result or to an error that is propagated, and which of them it is depends at most
on what tools share when its body runs. A round comes to the results of all its calls, or to the
error of the first call that has one: this is so whether its calls run one after the other or
together.
-/

set_option autoImplicit false

namespace ToolChat

variable {σ η : Type} {mayPanic : Prop}

theorem ToolRun.returns_of_meets {α : Type} {run : ToolRun σ η α} {a : α} {calm : Prop}
    (meets : ∀ {mayPanic : Prop}, (¬mayPanic → calm) → ToolChat.Meets mayPanic run (· = a))
    (world : ToolWorld σ η) :
    (calm → ∃ after, run world = some (a, after)) ∧
      ∀ b after, run world = some (b, after) → b = a := by
  refine ⟨fun never => ?_, fun b after ran => ?_⟩
  · have total : ToolChat.Meets False run (· = a) := meets fun _ => never
    obtain ⟨⟨b, after⟩, ran⟩ := total.exists_eq_some world
    obtain rfl := (total world).2 _ _ ran
    exact ⟨after, ran⟩
  · exact ((meets fun h : ¬True => (h trivial).elim) world).2 _ _ ran

namespace Toolset

def outcome (tools : Toolset σ) (context : Context) (call : ToolCall) (shared : σ) :
    Except ToolError Execution :=
  match tools.get? call.name with
  | none => .ok ⟨⟨call, (ToolError.notFound call.name).message⟩, false⟩
  | some entry =>
    (entry.settle call (entry.attempt context call shared)).map (⟨·, entry.returnRaw⟩)

/-- A call may come to an outcome: it does so if its body runs at the right time. -/
def MayComeTo (tools : Toolset σ) (context : Context) (call : ToolCall)
    (outcome : Except ToolError Execution) : Prop :=
  ∃ shared, outcome = tools.outcome context call shared

variable {tools : Toolset σ} {context : Context} {call : ToolCall} {shared : σ}

theorem outcome_of_unknown (unknown : tools.get? call.name = none) :
    tools.outcome context call shared =
      .ok ⟨⟨call, (ToolError.notFound call.name).message⟩, false⟩ := by
  rw [outcome, unknown]

theorem outcome_of_known {entry : RegisteredTool σ} (known : tools.get? call.name = some entry) :
    tools.outcome context call shared =
      (entry.settle call (entry.attempt context call shared)).map (⟨·, entry.returnRaw⟩) := by
  rw [outcome, known]

theorem outcome_eq_error_iff {e : ToolError} :
    tools.outcome context call shared = .error e ↔
      ∃ entry, tools.get? call.name = some entry ∧ entry.propagateErrors = true ∧
        ∃ cause, entry.attempt context call shared = .error cause ∧
          cause.isUserError = false ∧
          e = { cause with toolName := some call.name, callId := some call.id } := by
  cases known : tools.get? call.name with
  | none => simp [outcome_of_unknown known]
  | some entry =>
    have mapped : ∀ settled : Except ToolError CallResult,
        settled.map (Execution.mk · entry.returnRaw) = .error e ↔ settled = .error e := by
      rintro (_ | _) <;> simp [Except.map]
    simp only [outcome_of_known known, mapped, RegisteredTool.settle_eq_error_iff,
      Option.some.injEq, exists_eq_left']

theorem result_of_outcome {execution : Execution}
    (h : tools.outcome context call shared = .ok execution) :
    execution.result.call = call ∧
      (tools.get? call.name = none →
        execution.result.text = (ToolError.notFound call.name).message) ∧
      ∀ entry, tools.get? call.name = some entry →
        execution.result.text = RegisteredTool.reply (entry.attempt context call shared) := by
  cases known : tools.get? call.name with
  | none =>
    rw [outcome_of_unknown known] at h
    cases h
    exact ⟨rfl, fun _ => rfl, nofun⟩
  | some entry =>
    rw [outcome_of_known known] at h
    cases settled : entry.settle call (entry.attempt context call shared) with
    | error e =>
      rw [settled] at h
      cases h
    | ok result =>
      rw [settled] at h
      cases h
      have own := RegisteredTool.eq_of_settle_eq_ok settled
      refine ⟨by rw [own], nofun, ?_⟩
      rintro _ ⟨⟩
      rw [own]

/-- The answer of each tool body is a function of its arguments and its context. -/
def Functional (tools : Toolset σ) : Prop :=
  ∀ name entry, tools.get? name = some entry → ∀ context arguments before after,
    entry.answer context arguments before = entry.answer context arguments after

theorem Functional.outcome_eq (functional : tools.Functional) (before after : σ) :
    tools.outcome context call before = tools.outcome context call after := by
  cases known : tools.get? call.name with
  | none => rw [outcome_of_unknown known, outcome_of_unknown known]
  | some entry =>
    have same : entry.attempt context call before = entry.attempt context call after := by
      cases bound : entry.bind call.arguments with
      | error e =>
        rw [RegisteredTool.attempt_of_unbound bound, RegisteredTool.attempt_of_unbound bound]
      | ok arguments =>
        rw [RegisteredTool.attempt_of_bind bound, RegisteredTool.attempt_of_bind bound]
        exact functional _ _ known _ _ _ _
    rw [outcome_of_known known, outcome_of_known known, same]

theorem Functional.eq_outcome (functional : tools.Functional)
    {outcome : Except ToolError Execution} (h : tools.MayComeTo context call outcome) (shared : σ) :
    outcome = tools.outcome context call shared := by
  obtain ⟨_, rfl⟩ := h
  exact functional.outcome_eq _ _

end Toolset

namespace Executor

/-- What a round comes to if its calls come to what `R` allows: the executions of all calls, in
their order, or the error of the first call that has one. -/
inductive Settles (R : ToolCall → Except ToolError Execution → Prop) :
    List ToolCall → Except ToolError (List Execution) → Prop
  | all {calls : List ToolCall} {executions : List Execution}
      (each : List.Forall₂ (fun call execution => R call (.ok execution)) calls executions) :
      Settles R calls (.ok executions)
  | first {before after : List ToolCall} {call : ToolCall} {e : ToolError}
      (fine : ∀ earlier ∈ before, ∃ execution, R earlier (.ok execution))
      (fails : R call (.error e)) :
      Settles R (before ++ call :: after) (.error e)

namespace Settles

variable {R : ToolCall → Except ToolError Execution → Prop} {call : ToolCall}
  {calls : List ToolCall}

theorem nil : Settles R [] (.ok []) := .all .nil

theorem cons_error {e : ToolError} (fails : R call (.error e)) :
    Settles R (call :: calls) (.error e) := by
  rw [← List.nil_append (call :: calls)]
  exact .first nofun fails

theorem cons_ok {execution : Execution} (fine : R call (.ok execution))
    {outcome : Except ToolError (List Execution)} (rest : Settles R calls outcome) :
    Settles R (call :: calls) (outcome.map (execution :: ·)) := by
  cases rest with
  | all each => exact .all (.cons fine each)
  | @first before after failing e earlier fails =>
    have all : ∀ c ∈ call :: before, ∃ execution, R c (.ok execution) := by
      intro c hc
      rcases List.mem_cons.1 hc with rfl | hc
      · exact ⟨execution, fine⟩
      · exact earlier c hc
    rw [← List.cons_append]
    exact .first all fails

theorem firstError {outcomes : List (Except ToolError Execution)}
    (each : List.Forall₂ R calls outcomes) : Settles R calls (firstError outcomes) := by
  induction each with
  | nil => exact nil
  | @cons call outcome calls outcomes one _ ih =>
    cases outcome with
    | error e => exact cons_error one
    | ok execution => exact cons_ok one ih

theorem firstError_map (own : ToolCall → Except ToolError Execution) (calls : List ToolCall) :
    Settles (fun call outcome => outcome = own call) calls
      (Executor.firstError (calls.map own)) :=
  .firstError (List.forall₂_map_right_iff.2 (List.forall₂_same.2 fun _ _ => rfl))

theorem cons_iff {outcome : Except ToolError (List Execution)} :
    Settles R (call :: calls) outcome ↔
      (∃ e, R call (.error e) ∧ outcome = .error e) ∨
        ∃ execution rest, R call (.ok execution) ∧ Settles R calls rest ∧
          outcome = rest.map (execution :: ·) := by
  constructor
  · intro h
    generalize whole : call :: calls = all at h
    cases h with
    | all each =>
      subst whole
      obtain _ | ⟨fine, each⟩ := each
      exact .inr ⟨_, _, fine, .all each, rfl⟩
    | @first before after failing e fine fails =>
      cases before with
      | nil =>
        cases whole
        exact .inl ⟨e, fails, rfl⟩
      | cons earlier before =>
        cases whole
        obtain ⟨execution, first⟩ := fine _ List.mem_cons_self
        have others : ∀ c ∈ before, ∃ execution, R c (.ok execution) :=
          fun c hc => fine c (List.mem_cons_of_mem _ hc)
        exact .inr ⟨execution, .error e, first, .first others fails, rfl⟩
  · rintro (⟨e, fails, rfl⟩ | ⟨execution, rest, fine, settles, rfl⟩)
    · exact cons_error fails
    · exact cons_ok fine settles

/-- A round whose calls can come to one outcome each comes to one outcome. -/
theorem unique (functional : ∀ call a b, R call a → R call b → a = b) {calls : List ToolCall}
    {a b : Except ToolError (List Execution)} (ha : Settles R calls a) (hb : Settles R calls b) :
    a = b := by
  induction calls generalizing a b with
  | nil =>
    have empty : ∀ {o}, Settles R [] o → o = .ok [] := by
      intro o h
      generalize none : ([] : List ToolCall) = calls at h
      cases h with
      | all each =>
        subst none
        cases each
        rfl
      | first _ _ => exact absurd none.symm (List.append_ne_nil_of_right_ne_nil _ nofun)
    rw [empty ha, empty hb]
  | cons call calls ih =>
    rcases cons_iff.1 ha with ⟨e, fails, rfl⟩ | ⟨x, rest, fine, settles, rfl⟩ <;>
    rcases cons_iff.1 hb with ⟨e', fails', rfl⟩ | ⟨x', rest', fine', settles', rfl⟩
    · cases functional _ _ _ fails fails'
      rfl
    · cases functional _ _ _ fails fine'
    · cases functional _ _ _ fine fails'
    · cases functional _ _ _ fine fine'
      rw [ih settles settles']

theorem mono {S : ToolCall → Except ToolError Execution → Prop}
    (imp : ∀ call o, R call o → S call o) {outcome : Except ToolError (List Execution)}
    (h : Settles R calls outcome) : Settles S calls outcome := by
  cases h with
  | all each => exact .all (each.imp fun _ _ => imp _ _)
  | first fine fails =>
    exact .first (fun c hc => (fine c hc).imp fun _ => imp _ _) (imp _ _ fails)

end Settles

variable {executor : Executor σ η} {observer : Observer ToolEvent η}
  {stopwatch : ToolCall → Duration}

theorem meets_start_mayComeTo (plain : executor.invoker = .observed observer stopwatch)
    (calm : ¬mayPanic → observer.Calm) (context : Context) (call : ToolCall) :
    Meets mayPanic (executor.start context call)
      (Stage.Meets mayPanic (executor.tools.MayComeTo context call)) := by
  unfold start
  rw [plain]
  split
  · next unknown =>
    intro world
    refine ((Invoker.meets_unknown calm).bind (Q := Stage.Meets mayPanic _)
      fun result own => meets_pure ?_) world
    exact ⟨world.tools, by rw [own, Toolset.outcome_of_unknown unknown]⟩
  · next entry known =>
    refine (Invoker.meets_invoke calm).bind fun stage hs => meets_pure (hs.map ?_)
    rintro _ ⟨shared, rfl⟩
    exact ⟨shared, (Toolset.outcome_of_known known).symm⟩

theorem meets_runCall_mayComeTo (plain : executor.invoker = .observed observer stopwatch)
    (calm : ¬mayPanic → observer.Calm) (context : Context) (call : ToolCall) :
    Meets mayPanic (executor.runCall context call) (executor.tools.MayComeTo context call) :=
  (meets_start_mayComeTo plain calm context call).bind fun _ hs => Stage.meets_complete hs

theorem meets_runInTurn_settles (plain : executor.invoker = .observed observer stopwatch)
    (calm : ¬mayPanic → observer.Calm) (context : Context) (calls : List ToolCall) :
    Meets mayPanic (executor.runInTurn context calls)
      (Settles (executor.tools.MayComeTo context) calls) := by
  induction calls with
  | nil => exact meets_pure .nil
  | cons call calls ih =>
    refine (meets_runCall_mayComeTo plain calm context call).bind fun outcome ho => ?_
    cases outcome with
    | error e => exact meets_pure (.cons_error ho)
    | ok execution =>
      refine ih.bind fun rest hr => ?_
      cases rest with
      | error e => exact meets_pure (.cons_ok ho hr)
      | ok executions => exact meets_pure (.cons_ok ho hr)

theorem meets_runTogether_settles (plain : executor.invoker = .observed observer stopwatch)
    (calm : ¬mayPanic → observer.Calm) (context : Context) (calls : List ToolCall) :
    Meets mayPanic (executor.runTogether context calls)
      (Settles (executor.tools.MayComeTo context) calls) := by
  have self : List.Forall₂ Eq calls calls := List.forall₂_eq_eq_eq ▸ rfl
  have started : Meets mayPanic (calls.mapM (executor.start context))
      (List.Forall₂
        (fun call => Stage.Meets mayPanic (executor.tools.MayComeTo context call)) calls) :=
    meets_mapM self fun call _ same => same ▸ meets_start_mayComeTo plain calm context call
  refine started.bind fun stages hs => (Stage.meets_settle _ hs).bind fun outcomes each => ?_
  exact meets_pure (.firstError each)

/-- A round settles as its calls do, whether they run together or one after the other. -/
theorem meets_runCalls_settles (plain : executor.invoker = .observed observer stopwatch)
    (calm : ¬mayPanic → observer.Calm) (context : Context) (parallel : Bool)
    (calls : List ToolCall) :
    Meets mayPanic (executor.runCalls context parallel calls)
      (Settles (executor.tools.MayComeTo context) calls) := by
  unfold runCalls
  split
  · exact meets_runTogether_settles plain calm context calls
  · exact meets_runInTurn_settles plain calm context calls

section Functional

/-- If the answers of bodies are functions, a round settles in one way. -/
theorem Settles.eq_firstError {tools : Toolset σ} (functional : tools.Functional)
    {context : Context} {calls : List ToolCall} {outcome : Except ToolError (List Execution)}
    (h : Settles (tools.MayComeTo context) calls outcome) (shared : σ) :
    outcome = Executor.firstError (calls.map (tools.outcome context · shared)) :=
  unique (fun _ _ _ ha hb => ha.trans hb.symm)
    (h.mono fun _ _ may => functional.eq_outcome may shared) (firstError_map _ calls)

variable (plain : executor.invoker = .observed observer stopwatch)
  (functional : executor.tools.Functional) (shared : σ)
include plain functional

theorem runCall_of_functional (context : Context) (call : ToolCall) (world : ToolWorld σ η) :
    (observer.Calm → ∃ after, executor.runCall context call world =
      some (executor.tools.outcome context call shared, after)) ∧
    ∀ outcome after, executor.runCall context call world = some (outcome, after) →
      outcome = executor.tools.outcome context call shared :=
  ToolRun.returns_of_meets (fun calm => (meets_runCall_mayComeTo plain calm context call).mono
    fun _ may => functional.eq_outcome may shared) world

theorem runCalls_of_functional (context : Context) (parallel : Bool) (calls : List ToolCall)
    (world : ToolWorld σ η) :
    (observer.Calm → ∃ after, executor.runCalls context parallel calls world =
      some (firstError (calls.map (executor.tools.outcome context · shared)), after)) ∧
    ∀ outcome after, executor.runCalls context parallel calls world = some (outcome, after) →
      outcome = firstError (calls.map (executor.tools.outcome context · shared)) :=
  ToolRun.returns_of_meets (fun calm => (meets_runCalls_settles plain calm context parallel
    calls).mono fun _ settles => settles.eq_firstError functional shared) world

end Functional

end Executor

end ToolChat
