import ToolChat.Proofs.Chat.Transcript
import ToolChat.Proofs.Tool.Outcome
import ToolChat.Tool.Stock

/-!
What faults of calls come to in a turn.

In a tool round that is run to its end each fault is the result text of its own call. A round that
is not run to its end fails by the body of a tool that propagates errors, on arguments that were
bound. So a turn without such tools ends with a text, with results, or with an error that no tool
is part of.
-/

set_option autoImplicit false

namespace ToolChat

variable {σ η : Type}

/-- What an execution has of its call, in a round that is run to its end: the message that there is
no such tool, or that the arguments cannot be bound, or else the reply of the body. -/
structure Toolset.Contains (tools : Toolset σ) (context : Context) (call : ToolCall)
    (execution : Execution) : Prop where
  own : execution.result.call = call
  unknown : tools.get? call.name = none →
    execution.result.text = (ToolError.notFound call.name).message
  unbound : ∀ entry e, tools.get? call.name = some entry →
    entry.bind call.arguments = .error e → execution.result.text = e.message
  bound : ∀ entry arguments, tools.get? call.name = some entry →
    entry.bind call.arguments = .ok arguments →
      ∃ shared, execution.result.text =
        RegisteredTool.reply (entry.answer context arguments shared)

/-- An error of a round is that of a call of a tool that propagates errors: its arguments can be
bound, and its body fails on them. -/
def Toolset.Propagates (tools : Toolset σ) (context : Context) (calls : List ToolCall)
    (e : ToolError) : Prop :=
  ∃ call ∈ calls, ∃ entry arguments shared cause,
    tools.get? call.name = some entry ∧ entry.propagateErrors = true ∧
    entry.bind call.arguments = .ok arguments ∧
    entry.answer context arguments shared = .error cause ∧ cause.isUserError = false ∧
    e = { cause with toolName := some call.name, callId := some call.id }

namespace Toolset

variable {tools : Toolset σ} {context : Context} {call : ToolCall}

theorem contains_of_mayComeTo {execution : Execution}
    (h : tools.MayComeTo context call (.ok execution)) : tools.Contains context call execution := by
  obtain ⟨shared, same⟩ := h
  obtain ⟨own, unknown, known⟩ := result_of_outcome same.symm
  refine ⟨own, unknown, fun entry e registered unbound => ?_,
    fun entry arguments registered bound => ⟨shared, ?_⟩⟩
  · rw [known entry registered, RegisteredTool.attempt_of_unbound unbound]
    rfl
  · rw [known entry registered, RegisteredTool.attempt_of_bind bound]

theorem propagates_of_mayComeTo {calls : List ToolCall} (member : call ∈ calls) {e : ToolError}
    (h : tools.MayComeTo context call (.error e)) : tools.Propagates context calls e := by
  obtain ⟨shared, same⟩ := h
  obtain ⟨entry, known, propagates, cause, attempted, own, rfl⟩ := outcome_eq_error_iff.1 same.symm
  obtain ⟨arguments, bound, failed⟩ := RegisteredTool.exists_answer_of_attempt attempted own
  exact ⟨call, member, entry, arguments, shared, cause, known, propagates, bound, failed, own, rfl⟩

end Toolset

namespace Executor

variable {executor : Executor σ η} {observer : Observer ToolEvent η}
  {stopwatch : ToolCall → Duration} {context : Context} {calls : List ToolCall}

theorem Settles.contains {tools : Toolset σ} {executions : List Execution}
    (h : Settles (tools.MayComeTo context) calls (.ok executions)) :
    List.Forall₂ (tools.Contains context) calls executions := by
  cases h with
  | all each => exact each.imp fun _ _ => Toolset.contains_of_mayComeTo

theorem Settles.propagates {tools : Toolset σ} {e : ToolError}
    (h : Settles (tools.MayComeTo context) calls (.error e)) :
    tools.Propagates context calls e := by
  cases h with
  | first _ fails => exact Toolset.propagates_of_mayComeTo (by simp) fails

end Executor

namespace Chat

variable {chat : Chat σ η} {request : TurnRequest} {observer : Observer ToolEvent η}
  {stopwatch : ToolCall → Duration}

theorem settles_of_runTools (plain : chat.executor.invoker = .observed observer stopwatch)
    {progress : TurnProgress} {world after : World σ η} {calls : List ToolCall}
    {outcome : Except ChatError (List Execution)}
    (h : chat.runTools request progress calls world = some (outcome, after)) :
    ∃ result, outcome = result.mapError .ofToolError ∧
      Executor.Settles (chat.executor.tools.MayComeTo
        ⟨request.session.id, progress.toolRounds + 1, request.metadata⟩) calls result := by
  obtain ⟨-, before, between, result, ran, same⟩ := runTools_spec h
  have settled := Run.meets_ofTools (Executor.meets_runCalls_settles plain
    (fun h => (h trivial).elim) ⟨request.session.id, progress.toolRounds + 1, request.metadata⟩
    chat.policy.parallel calls)
  exact ⟨result, same, (settled before).2 _ _ ran⟩

variable (chat request) in
def ContainsFaults (number : Nat) (round : Round) : Prop :=
  List.Forall₂ (chat.executor.tools.Contains ⟨request.session.id, number, request.metadata⟩)
    round.response.calls round.executions

variable {start : World σ η} {rounds : List Round} {progress : TurnProgress} {world : World σ η}

theorem AtHead.containsFaults (head : chat.AtHead request start rounds progress world)
    (plain : chat.executor.invoker = .observed observer stopwatch) {round : Round}
    {after : World σ η} (completes : chat.Completes request progress world round after) :
    chat.ContainsFaults request (rounds.length + 1) round := by
  obtain ⟨heard, -, ran⟩ := completes.ran
  obtain ⟨result, same, settles⟩ := settles_of_runTools plain ran
  cases result with
  | error e => cases same
  | ok executions =>
    cases same
    have number : progress.asking.toolRounds = rounds.length := head.toolRounds
    rw [number] at settles
    exact settles.contains

theorem Reaches.containsFaults (plain : chat.executor.invoker = .observed observer stopwatch)
    (h : chat.Reaches request start rounds progress world) (k : Nat) (round : Round)
    (hk : rounds[k]? = some round) : chat.ContainsFaults request (k + 1) round := by
  induction h with
  | start => cases hk
  | @round rounds progress next world after last reaches step ih =>
    obtain ⟨completes, -⟩ := step
    rcases getElem?_concat_eq_some hk with ⟨-, hk⟩ | ⟨rfl, rfl⟩
    · exact ih hk
    · exact reaches.atHead.containsFaults plain completes

variable {ending : Ending} {last : World σ η}

theorem containsFaults_of_ends (plain : chat.executor.invoker = .observed observer stopwatch)
    (reaches : chat.Reaches request start rounds progress world)
    {answer : Except ChatError TurnResult}
    (ends : chat.Ends request progress world ending answer last) (k : Nat) (round : Round)
    (hk : (rounds ++ ending.completed)[k]? = some round) :
    chat.ContainsFaults request (k + 1) round := by
  cases ends with
  | handedBack completes _ =>
    rcases getElem?_concat_eq_some hk with ⟨-, hk⟩ | ⟨rfl, rfl⟩
    · exact reaches.containsFaults plain k round hk
    · exact reaches.atHead.containsFaults plain completes
  | _ =>
    change (rounds ++ [])[k]? = some round at hk
    rw [List.append_nil] at hk
    exact reaches.containsFaults plain k round hk

variable (chat request) in
def FailsByTool (number : Nat) (ending : Ending) (e : ChatError) : Prop :=
  ∃ sent response cause, ending = .failed sent response e ∧ e = .ofToolError cause ∧
    chat.executor.tools.Propagates ⟨request.session.id, number, request.metadata⟩ response.calls
      cause

theorem AtHead.fails_of_ends (head : chat.AtHead request start rounds progress world)
    (plain : chat.executor.invoker = .observed observer stopwatch) {e : ChatError}
    (ends : chat.Ends request progress world ending (.error e) last) :
    ((e.kind = .invalidRequest ∨ e.kind = .provider ∨ e.kind = .maxRoundsExceeded) ∧
        ∀ sent response, ending ≠ .failed sent response e) ∨
      chat.FailsByTool request (rounds.length + 1) ending e := by
  cases ends with
  | refused asked _ =>
    left
    obtain ⟨⟨⟩ | ⟨⟩ | ⟨⟩, -⟩ := asked_of_ask asked
    · exact ⟨.inl rfl, nofun⟩
    · exact ⟨.inr (.inl rfl), nofun⟩
  | unanswered asked _ =>
    left
    obtain ⟨⟨⟩ | ⟨⟩ | ⟨⟩, -⟩ := asked_of_ask asked
    · exact ⟨.inl rfl, nofun⟩
    · exact ⟨.inr (.inl rfl), nofun⟩
  | exhausted _ _ _ => exact .inl ⟨.inr (.inr rfl), nofun⟩
  | @failed response _ _ _ _ _ _ ran =>
    obtain ⟨result, same, settles⟩ := settles_of_runTools plain ran
    cases result with
    | ok executions => cases same
    | error cause =>
      cases same
      have number : progress.asking.toolRounds = rounds.length := head.toolRounds
      rw [number] at settles
      exact .inr ⟨_, response, cause, rfl, rfl, settles.propagates⟩

/-- In each tool round that is run to its end faults become the result texts of their calls. A turn
that fails by a tool fails by the body of one that propagates errors, called in the last answer with
arguments that can be bound; without such tools it can only be refused, unanswered or cut off. -/
theorem runTurn_contains_faults (chat : Chat σ η) (observer : Observer ToolEvent η)
    (stopwatch : ToolCall → Duration) (plain : chat.executor.invoker = .observed observer stopwatch)
    (request : TurnRequest) (start : World σ η) :
    (observer.Calm → chat.observer.Calm →
      ∃ answer after, chat.runTurn request start = some (answer, after)) ∧
    ∀ answer after, chat.runTurn request start = some (answer, after) →
      ∃ course last, chat.Takes request start course answer last ∧
        (∀ k round, course.completed[k]? = some round →
          chat.ContainsFaults request (k + 1) round) ∧
        ∀ e, answer = .error e →
          (e.kind = .invalidRequest ∨ e.kind = .provider ∨ e.kind = .maxRoundsExceeded ∨
            e.kind = .tooling) ∧
          (e.kind = .tooling → ∃ sent response, course.ending = .failed sent response e ∧
            ∃ call ∈ response.calls, ∃ entry arguments shared cause,
              chat.executor.tools.get? call.name = some entry ∧ entry.propagateErrors = true ∧
              entry.bind call.arguments = .ok arguments ∧
              entry.answer ⟨request.session.id, course.rounds.length + 1, request.metadata⟩
                arguments shared = .error cause ∧
              cause.isUserError = false ∧ e.toolName = some call.name ∧
              e.toolErrorKind = some cause.kind) ∧
          ((∀ name entry, chat.executor.tools.get? name = some entry →
              entry.propagateErrors = false) →
            e.kind ≠ .tooling ∧ ∀ sent response, course.ending ≠ .failed sent response e) := by
  refine ⟨fun calm chatCalm => ?_, fun answer after run => ?_⟩
  · obtain ⟨⟨answer, after⟩, run⟩ :=
      exists_runTurn chatCalm (plain ▸ Invoker.answers_observed calm stopwatch) start
    exact ⟨answer, after, run⟩
  obtain ⟨course, last, takes, -, -⟩ := exists_takes_of_runTurn run
  refine ⟨course, last, takes, ?_⟩
  cases takes with
  | rejected rejected =>
    refine ⟨nofun, ?_⟩
    rintro e ⟨⟩
    have kind := kind_of_rejected rejected
    exact ⟨.inl kind, fun tooling => absurd (kind.symm.trans tooling) nofun,
      fun _ => ⟨fun tooling => absurd (kind.symm.trans tooling) nofun, nofun⟩⟩
  | @rounds rounds ending progress world _ _ accepted reaches ends =>
    refine ⟨containsFaults_of_ends plain reaches ends, ?_⟩
    rintro e rfl
    rcases reaches.atHead.fails_of_ends plain ends with ⟨mild, other⟩ | byTool
    · have unequal : e.kind ≠ .tooling := by
        intro tooling
        rw [tooling] at mild
        simp at mild
      refine ⟨?_, fun tooling => absurd tooling unequal, fun _ => ⟨unequal, other⟩⟩
      rcases mild with kind | kind | kind
      · exact .inl kind
      · exact .inr (.inl kind)
      · exact .inr (.inr (.inl kind))
    · obtain ⟨sent, response, _, rfl, rfl, call, called, entry, arguments, shared, cause, known,
        propagates, bound, failed, own, rfl⟩ := byTool
      refine ⟨.inr (.inr (.inr rfl)), fun _ => ⟨sent, response, rfl, call, called, entry, arguments,
        shared, cause, known, propagates, bound, failed, own, rfl, rfl⟩, fun none => ?_⟩
      exact absurd (propagates.symm.trans (none _ _ known)) nofun

/-- A chat whose model first asks for a tool that does not exist, and for one that propagates errors
with arguments that cannot be bound, and then for the second one as it should. -/
def straying : Chat RunCounts Unit where
  provider := fun requests =>
    if requests.length = 1 then
      .ok (.ofCalls "m" [⟨"a", "missing", ""⟩, ⟨"a", "broken", "[]"⟩])
    else .ok (.ofCalls "m" [⟨"b", "broken", "null"⟩])
  executor :=
    ⟨(Toolset.ofTools [Invoker.broken]).toOption.getD .empty, .observed .silent fun _ => .zero⟩

theorem straying_contains_faults :
    straying.executor.invoker = .observed .silent (fun _ => .zero) ∧
    ∃ e after course last,
      straying.runTurn ⟨⟨"s", "m", none⟩, "hi", {}, []⟩ ⟨[], (), []⟩ = some (.error e, after) ∧
      straying.Takes ⟨⟨"s", "m", none⟩, "hi", {}, []⟩ ⟨[], (), []⟩ course (.error e) last ∧
      (∀ k round, course.completed[k]? = some round →
        straying.ContainsFaults ⟨⟨"s", "m", none⟩, "hi", {}, []⟩ (k + 1) round) ∧
      e.kind = .tooling ∧ e.toolName = some "broken" ∧ after.requests.length = 2 ∧
      ∃ sent response, course.ending = .failed sent response e := by
  obtain ⟨returns, contains⟩ := runTurn_contains_faults straying .silent (fun _ => .zero) rfl
    ⟨⟨"s", "m", none⟩, "hi", {}, []⟩ ⟨[], (), []⟩
  obtain ⟨answer, after, run⟩ := returns Observer.calm_silent Observer.calm_silent
  have outcome : (straying.runTurn ⟨⟨"s", "m", none⟩, "hi", {}, []⟩ ⟨[], (), []⟩).map
      (fun r => (r.2.requests.length, match r.1 with
        | .error e => some (e.kind, e.toolName)
        | .ok _ => none)) = some (2, some (.tooling, some "broken")) := by decide +kernel
  rw [run, Option.map_some, Option.some.injEq, Prod.mk.injEq] at outcome
  obtain ⟨two, outcome⟩ := outcome
  cases answer with
  | ok result => cases outcome
  | error e =>
    obtain ⟨kind, name⟩ := Prod.mk.inj (Option.some.inj outcome)
    obtain ⟨course, last, takes, contained, failure⟩ := contains _ after run
    obtain ⟨-, byTool, -⟩ := failure e rfl
    obtain ⟨sent, response, ending, -⟩ := byTool kind
    exact ⟨rfl, e, after, course, last, run, takes, contained, kind, name, two, sent, response,
      ending⟩

end Chat

end ToolChat
