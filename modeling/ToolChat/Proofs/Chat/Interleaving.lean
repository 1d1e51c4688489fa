import ToolChat.Proofs.Chat.Course
import ToolChat.Proofs.Tool.Interleaving
import ToolChat.Tool.Stock

/-!
Turns whose parallel rounds run under any schedule.

A turn plays like the loop of the chat, but each of its parallel rounds may poll its calls in any
order. If the answers of tool bodies are functions of their arguments and contexts, neither the
schedules nor the choice between parallel and sequential rounds can be told from the answer of the
turn: the next request depends on nothing but the requests before and the results of the calls.
-/

set_option autoImplicit false

namespace ToolChat

variable {σ η : Type}

namespace Executor

/-- The calls of a round are run: one after the other, or together under some schedule. -/
inductive Runs (executor : Executor σ η) (context : Context) (calls : List ToolCall)
    (world : ToolWorld σ η) (outcome : Except ToolError (List Execution))
    (after : ToolWorld σ η) : Bool → Prop
  | inTurn (run : executor.runInTurn context calls world = some (outcome, after)) :
      Runs executor context calls world outcome after false
  | together (run : executor.RunsInterleaved context calls world outcome after) :
      Runs executor context calls world outcome after true

variable {executor : Executor σ η} {context : Context} {calls : List ToolCall}
  {parallel : Bool} {observer : Observer ToolEvent η} {stopwatch : ToolCall → Duration}

theorem runs_of_runCalls {world after : ToolWorld σ η}
    {outcome : Except ToolError (List Execution)}
    (h : executor.runCalls context parallel calls world = some (outcome, after)) :
    executor.Runs context calls world outcome after parallel := by
  cases parallel with
  | false => exact .inTurn h
  | true => exact .together (runsInterleaved_of_runTogether h)

theorem Runs.settles (plain : executor.invoker = .observed observer stopwatch)
    {world after : ToolWorld σ η} {outcome : Except ToolError (List Execution)}
    (h : executor.Runs context calls world outcome after parallel) :
    Settles (executor.tools.MayComeTo context) calls outcome := by
  cases h with
  | inTurn run => exact (meets_runInTurn_settles plain (fun h => (h trivial).elim) _ _ _).2 _ _ run
  | together run => exact run.settles plain

/-- If the answers of bodies are functions, a round comes to the same under all schedules and in
turn. -/
theorem Runs.unique (plain : executor.invoker = .observed observer stopwatch)
    (functional : executor.tools.Functional) {world after world' after' : ToolWorld σ η}
    {a b : Except ToolError (List Execution)} {parallel' : Bool}
    (ha : executor.Runs context calls world a after parallel)
    (hb : executor.Runs context calls world' b after' parallel') : a = b := by
  refine Settles.unique ?_ (ha.settles plain) (hb.settles plain)
  rintro call _ outcome ⟨shared, rfl⟩ other
  exact (functional.eq_outcome other shared).symm

end Executor

namespace Chat

def withParallel (chat : Chat σ η) (parallel : Bool) : Chat σ η :=
  { chat with policy := { chat.policy with parallel } }

section Playing

variable (chat : Chat σ η) (request : TurnRequest)

inductive RunsTools (progress : TurnProgress) (calls : List ToolCall) (world : World σ η) :
    Except ChatError (List Execution) → World σ η → Prop
  | failed {told : World σ η} {after : ToolWorld σ η} {e : ToolError}
      (announced : Run.tell chat.observer (.phase request.session .executingTools) world =
        some ((), told))
      (ran : chat.executor.Runs ⟨request.session.id, progress.toolRounds + 1, request.metadata⟩
        calls told.forTools (.error e) after chat.policy.parallel) :
      RunsTools progress calls world (.error (.ofToolError e)) (told.afterTools after)
  | executed {told after : World σ η} {between : ToolWorld σ η} {executions : List Execution}
      (announced : Run.tell chat.observer (.phase request.session .executingTools) world =
        some ((), told))
      (ran : chat.executor.Runs ⟨request.session.id, progress.toolRounds + 1, request.metadata⟩
        calls told.forTools (.ok executions) between chat.policy.parallel)
      (reported : Run.tell chat.observer (.toolsExecuted request.session (progress.toolRounds + 1)
        (executions.map (·.result))) (told.afterTools between) = some ((), after)) :
      RunsTools progress calls world (.ok executions) after

/-- A turn from a loop head to its end, under some schedule of each parallel round. -/
inductive Plays : TurnProgress → World σ η → Except ChatError TurnResult → World σ η → Prop
  | unanswered {progress : TurnProgress} {world after : World σ η} {e : ChatError}
      (asked : chat.ask request progress.asking world = some (.error e, after)) :
      Plays progress world (.error e) after
  | answered {progress : TurnProgress} {world after : World σ η} {response : ModelResponse}
      (asked : chat.ask request progress.asking world = some (.ok response, after))
      (text : response.calls = []) :
      Plays progress world
        (.ok (progress.asking.answered request response.text response.stopReason)) after
  | exhausted {progress : TurnProgress} {world after : World σ η} {response : ModelResponse}
      (asked : chat.ask request progress.asking world = some (.ok response, after))
      (calls : response.calls ≠ [])
      (spent : chat.policy.maxToolRounds ≤ progress.toolRounds) :
      Plays progress world (.error { ChatError.maxRoundsExceeded chat.policy.maxToolRounds with
        phase := some .executingTools }) after
  | failed {progress : TurnProgress} {world heard after : World σ η} {response : ModelResponse}
      {e : ChatError}
      (asked : chat.ask request progress.asking world = some (.ok response, heard))
      (calls : response.calls ≠ [])
      (allowed : progress.toolRounds < chat.policy.maxToolRounds)
      (ran : chat.RunsTools request progress.asking response.calls heard (.error e) after) :
      Plays progress world (.error e) after
  | handedBack {progress : TurnProgress} {world heard after : World σ η}
      {response : ModelResponse} {executions : List Execution}
      (asked : chat.ask request progress.asking world = some (.ok response, heard))
      (calls : response.calls ≠ [])
      (allowed : progress.toolRounds < chat.policy.maxToolRounds)
      (ran : chat.RunsTools request progress.asking response.calls heard (.ok executions) after)
      (raw : (progress.asking.afterRound response.text response.calls executions).allRaw = true) :
      Plays progress world (.ok ((progress.asking.afterRound response.text response.calls
        executions).handedBack request)) after
  | round {progress : TurnProgress} {world heard between after : World σ η}
      {response : ModelResponse} {executions : List Execution}
      {answer : Except ChatError TurnResult}
      (asked : chat.ask request progress.asking world = some (.ok response, heard))
      (calls : response.calls ≠ [])
      (allowed : progress.toolRounds < chat.policy.maxToolRounds)
      (ran : chat.RunsTools request progress.asking response.calls heard (.ok executions) between)
      (mixed : (progress.asking.afterRound response.text response.calls executions).allRaw = false)
      (rest : Plays (progress.asking.afterRound response.text response.calls executions) between
        answer after) :
      Plays progress world answer after

def MayAnswer (start : World σ η) (answer : Except ChatError TurnResult) : Prop :=
  match chat.rejection? request with
  | some e => answer = .error e
  | none => ∃ after, chat.Plays request (.initial request) start answer after

/-- What asking comes to if some requests were sent before, and all requests sent then. -/
def reply (progress : TurnProgress) (requests : List ModelRequest) :
    Except ChatError ModelResponse × List ModelRequest :=
  match (chat.nextRequest request progress).objection? with
  | some message =>
    (.error { ChatError.invalidRequest message with phase := some .awaitingModel }, requests)
  | none =>
    ((chat.provider (requests ++ [chat.nextRequest request progress])).mapError .ofProviderError,
      requests ++ [chat.nextRequest request progress])

end Playing

variable {chat : Chat σ η} {request : TurnRequest} {progress : TurnProgress}
  {world after : World σ η}

theorem reply_of_ask {outcome : Except ChatError ModelResponse}
    (h : chat.ask request progress.asking world = some (outcome, after)) :
    chat.reply request progress world.requests = (outcome, after.requests) := by
  unfold reply
  obtain ⟨⟨objection, unsent⟩ | ⟨valid, sent, answer⟩ | ⟨valid, sent, answer⟩, -⟩ := asked_of_ask h
  · rw [objection, unsent]
  · rw [sent] at answer
    rw [valid, answer, sent]
    rfl
  · rw [sent] at answer
    rw [valid, answer, sent]
    rfl

section Adequacy

theorem runsTools_of_runTools {calls : List ToolCall} {outcome : Except ChatError (List Execution)}
    (h : chat.runTools request progress calls world = some (outcome, after)) :
    chat.RunsTools request progress calls world outcome after := by
  obtain ⟨_, told, announced, h⟩ := bind_eq_some.1 h
  obtain ⟨result, between, ran, h⟩ := bind_eq_some.1 h
  obtain ⟨_, _, run, ⟨⟩⟩ := Run.ofTools_eq_some.1 ran
  cases result with
  | error e =>
    cases pure_eq_some.1 h
    exact .failed announced (Executor.runs_of_runCalls run)
  | ok executions =>
    obtain ⟨_, heard, reported, h⟩ := bind_eq_some.1 h
    cases pure_eq_some.1 h
    exact .executed announced (Executor.runs_of_runCalls run) reported

theorem plays_of_ends {ending : Ending} {answer : Except ChatError TurnResult}
    (h : chat.Ends request progress world ending answer after) :
    chat.Plays request progress world answer after := by
  cases h with
  | refused asked _ => exact .unanswered asked
  | unanswered asked _ => exact .unanswered asked
  | answered asked text => exact .answered asked text
  | exhausted asked calls spent => exact .exhausted asked calls spent
  | failed asked calls allowed ran =>
    exact .failed asked calls allowed (runsTools_of_runTools ran)
  | handedBack completes raw =>
    obtain ⟨-, calls, allowed, heard, asked, ran⟩ := completes
    exact .handedBack asked calls allowed (runsTools_of_runTools ran) raw

theorem plays_of_runRounds {answer : Except ChatError TurnResult}
    (h : chat.runRounds request progress world = some (answer, after)) :
    chat.Plays request progress world answer after := by
  -- On the tool rounds that are left: each round that goes on leaves fewer.
  induction hn : chat.policy.maxToolRounds - progress.toolRounds using Nat.strongRecOn
    generalizing progress world with
  | ind n ih =>
    rcases ends_or_continues h with ⟨ending, ends⟩ | ⟨round, next, between, step, h⟩
    · exact plays_of_ends ends
    · obtain ⟨⟨-, calls, allowed, heard, asked, ran⟩, mixed⟩ := step
      have fewer : chat.policy.maxToolRounds - (progress.after round).toolRounds < n := by
        simp only [TurnProgress.after, TurnProgress.afterRound, TurnProgress.asking]
        omega
      exact .round asked calls allowed (runsTools_of_runTools ran) mixed (ih _ fewer h rfl)

theorem mayAnswer_of_runTurn {answer : Except ChatError TurnResult}
    (h : chat.runTurn request world = some (answer, after)) :
    chat.MayAnswer request world answer := by
  obtain ⟨outcome, last, drive, h⟩ := bind_eq_some.1 h
  have same : outcome = answer := by
    cases outcome with
    | ok result =>
      obtain ⟨_, _, _, h⟩ := bind_eq_some.1 h
      obtain ⟨_, _, _, h⟩ := bind_eq_some.1 h
      cases pure_eq_some.1 h
      rfl
    | error e =>
      obtain ⟨_, _, _, h⟩ := bind_eq_some.1 h
      cases pure_eq_some.1 h
      rfl
  subst same
  unfold MayAnswer
  cases rejected : chat.rejection? request with
  | some e =>
    rw [drive_of_rejected rejected] at drive
    cases pure_eq_some.1 drive
    rfl
  | none =>
    rw [drive_of_accepted rejected] at drive
    exact ⟨last, plays_of_runRounds drive⟩

end Adequacy

section Agreement

variable {observer : Observer ToolEvent η} {stopwatch : ToolCall → Duration} {p q : Bool}
  {world' after' : World σ η}

theorem ask_unique {a b : Except ChatError ModelResponse}
    (requests : world.requests = world'.requests)
    (ha : (chat.withParallel p).ask request progress.asking world = some (a, after))
    (hb : (chat.withParallel q).ask request progress.asking world' = some (b, after')) :
    a = b ∧ after.requests = after'.requests := by
  have ra := reply_of_ask ha
  have rb := reply_of_ask hb
  rw [← requests] at rb
  exact Prod.mk.inj (ra.symm.trans rb)

theorem requests_of_runsTools {calls : List ToolCall}
    {outcome : Except ChatError (List Execution)}
    (h : chat.RunsTools request progress calls world outcome after) :
    after.requests = world.requests := by
  cases h with
  | failed announced _ =>
    have told := Run.requests_of_tell announced
    exact told
  | executed announced _ reported =>
    have told := Run.requests_of_tell announced
    exact (Run.requests_of_tell reported).trans told

theorem exists_runs_of_runsTools {calls : List ToolCall}
    {outcome : Except ChatError (List Execution)}
    (h : chat.RunsTools request progress calls world outcome after) :
    ∃ before result between,
      chat.executor.Runs ⟨request.session.id, progress.toolRounds + 1, request.metadata⟩ calls
        before result between chat.policy.parallel ∧
      outcome = result.mapError .ofToolError := by
  cases h with
  | failed _ ran => exact ⟨_, _, _, ran, rfl⟩
  | executed _ ran _ => exact ⟨_, _, _, ran, rfl⟩

theorem Plays.runsTools {response : ModelResponse} {heard : World σ η}
    {answer : Except ChatError TurnResult} (requests : world.requests = world'.requests)
    (asked : (chat.withParallel p).ask request progress.asking world =
      some (.ok response, heard)) (calls : response.calls ≠ [])
    (allowed : progress.toolRounds < chat.policy.maxToolRounds)
    (h : (chat.withParallel q).Plays request progress world' answer after') :
    ∃ heard' outcome between, heard.requests = heard'.requests ∧
      (chat.withParallel q).RunsTools request progress.asking response.calls heard' outcome
        between ∧
      match outcome with
      | .error e => answer = .error e
      | .ok executions =>
        let next := progress.asking.afterRound response.text response.calls executions
        next.allRaw = true ∧ answer = .ok (next.handedBack request) ∨
          next.allRaw = false ∧ (chat.withParallel q).Plays request next between answer after' := by
  cases h with
  | unanswered asked' => cases (ask_unique requests asked asked').1
  | answered asked' text =>
    cases (ask_unique requests asked asked').1
    exact absurd text calls
  | exhausted _ _ spent => exact absurd spent (Nat.not_le.2 allowed)
  | failed asked' _ _ ran =>
    obtain ⟨same, kept⟩ := ask_unique requests asked asked'
    cases same
    exact ⟨_, _, _, kept, ran, rfl⟩
  | handedBack asked' _ _ ran raw =>
    obtain ⟨same, kept⟩ := ask_unique requests asked asked'
    cases same
    exact ⟨_, _, _, kept, ran, .inl ⟨raw, rfl⟩⟩
  | round asked' _ _ ran mixed rest =>
    obtain ⟨same, kept⟩ := ask_unique requests asked asked'
    cases same
    exact ⟨_, _, _, kept, ran, .inr ⟨mixed, rest⟩⟩

variable (plain : chat.executor.invoker = .observed observer stopwatch)
  (functional : chat.executor.tools.Functional)
include plain functional

theorem RunsTools.unique {calls : List ToolCall} {a b : Except ChatError (List Execution)}
    (ha : (chat.withParallel p).RunsTools request progress calls world a after)
    (hb : (chat.withParallel q).RunsTools request progress calls world' b after') : a = b := by
  obtain ⟨_, ra, _, runsA, rfl⟩ := exists_runs_of_runsTools ha
  obtain ⟨_, rb, _, runsB, rfl⟩ := exists_runs_of_runsTools hb
  have same : ra = rb := Executor.Runs.unique plain functional runsA runsB
  rw [same]

theorem Plays.unique {a b : Except ChatError TurnResult}
    (requests : world.requests = world'.requests)
    (ha : (chat.withParallel p).Plays request progress world a after)
    (hb : (chat.withParallel q).Plays request progress world' b after') : a = b := by
  -- Both ask the same and hear the same, so the second ends as the first does or goes on with it.
  induction ha generalizing world' b after' with
  | unanswered asked =>
    cases hb with
    | unanswered asked' =>
      cases (ask_unique requests asked asked').1
      rfl
    | answered asked' | exhausted asked' | failed asked' | handedBack asked' | round asked' =>
      cases (ask_unique requests asked asked').1
  | answered asked text =>
    cases hb with
    | unanswered asked' => cases (ask_unique requests asked asked').1
    | answered asked' =>
      cases (ask_unique requests asked asked').1
      rfl
    | exhausted asked' calls | failed asked' calls | handedBack asked' calls
    | round asked' calls =>
      cases (ask_unique requests asked asked').1
      exact absurd text calls
  | exhausted asked calls spent =>
    cases hb with
    | unanswered asked' => cases (ask_unique requests asked asked').1
    | answered asked' text =>
      cases (ask_unique requests asked asked').1
      exact absurd text calls
    | exhausted asked' => rfl
    | failed _ _ allowed | handedBack _ _ allowed | round _ _ allowed =>
      exact absurd spent (Nat.not_le.2 allowed)
  | failed asked calls allowed ran =>
    obtain ⟨_, _, _, -, ran', rest⟩ := hb.runsTools requests asked calls allowed
    cases RunsTools.unique plain functional ran ran'
    exact rest.symm
  | handedBack asked calls allowed ran raw =>
    obtain ⟨_, _, _, -, ran', rest⟩ := hb.runsTools requests asked calls allowed
    cases RunsTools.unique plain functional ran ran'
    rcases rest with ⟨-, same⟩ | ⟨mixed, -⟩
    · exact same.symm
    · exact absurd (raw.symm.trans mixed) nofun
  | round asked calls allowed ran mixed _ ih =>
    obtain ⟨_, _, _, heard, ran', rest⟩ := hb.runsTools requests asked calls allowed
    cases RunsTools.unique plain functional ran ran'
    rcases rest with ⟨raw, -⟩ | ⟨-, plays⟩
    · exact absurd (raw.symm.trans mixed) nofun
    · refine ih ?_ plays
      rw [requests_of_runsTools ran, requests_of_runsTools ran', heard]

theorem MayAnswer.unique {a b : Except ChatError TurnResult} {start : World σ η}
    (ha : (chat.withParallel p).MayAnswer request start a)
    (hb : (chat.withParallel q).MayAnswer request start b) : a = b := by
  have rejections : (chat.withParallel p).rejection? request =
      (chat.withParallel q).rejection? request := rfl
  unfold MayAnswer at ha hb
  rw [← rejections] at hb
  cases rejected : (chat.withParallel p).rejection? request with
  | some e =>
    rw [rejected] at ha hb
    exact ha.trans hb.symm
  | none =>
    rw [rejected] at ha hb
    obtain ⟨_, playsA⟩ := ha
    obtain ⟨_, playsB⟩ := hb
    exact Plays.unique plain functional rfl playsA playsB

end Agreement

/-- Let the answers of tool bodies be functions of their arguments and contexts. Then a round gives
one outcome in turn, together, and under every schedule: for each call what the call gives alone, or
the error of the first call of the request that has one. So a turn gives one answer, in parallel or
not, and whatever the schedules of its rounds. -/
theorem runTurn_agrees (chat : Chat σ η) (observer : Observer ToolEvent η)
    (stopwatch : ToolCall → Duration) (plain : chat.executor.invoker = .observed observer stopwatch)
    (functional : chat.executor.tools.Functional) (request : TurnRequest) (start : World σ η) :
    (∀ context, ∃ alone : ToolCall → Except ToolError Execution,
      (∀ call world,
        (observer.Calm →
          ∃ after, chat.executor.runCall context call world = some (alone call, after)) ∧
        ∀ outcome after, chat.executor.runCall context call world = some (outcome, after) →
          outcome = alone call) ∧
      ∀ calls, ∃ outcome, Executor.Settles (fun call own => own = alone call) calls outcome ∧
        (∀ parallel world,
          (observer.Calm → ∃ after,
            chat.executor.runCalls context parallel calls world = some (outcome, after)) ∧
          ∀ answer after,
            chat.executor.runCalls context parallel calls world = some (answer, after) →
              answer = outcome) ∧
        ∀ world answer after, chat.executor.RunsInterleaved context calls world answer after →
          answer = outcome) ∧
    (∀ parallel,
      (observer.Calm → chat.observer.Calm → ∃ answer after,
        (chat.withParallel parallel).runTurn request start = some (answer, after)) ∧
      ∀ answer after, (chat.withParallel parallel).runTurn request start = some (answer, after) →
        (chat.withParallel parallel).MayAnswer request start answer) ∧
    ∀ parallel parallel' answer answer',
      (chat.withParallel parallel).MayAnswer request start answer →
      (chat.withParallel parallel').MayAnswer request start answer' → answer = answer' := by
  refine ⟨fun context => ?_, fun parallel => ⟨fun calm chatCalm => ?_, fun answer after run => ?_⟩,
    fun parallel parallel' answer answer' ha hb => MayAnswer.unique plain functional ha hb⟩
  · refine ⟨(chat.executor.tools.outcome context · start.tools),
      Executor.runCall_of_functional plain functional start.tools context, fun calls => ?_⟩
    exact ⟨_, .firstError_map _ calls,
      fun parallel => Executor.runCalls_of_functional plain functional start.tools context parallel
        calls,
      fun world answer after run => (run.settles plain).eq_firstError functional start.tools⟩
  · have answers : (chat.withParallel parallel).executor.invoker.Answers :=
      plain ▸ Invoker.answers_observed calm stopwatch
    have told : (chat.withParallel parallel).observer.Calm := chatCalm
    obtain ⟨⟨answer, after⟩, run⟩ := exists_runTurn told answers start
    exact ⟨answer, after, run⟩
  · exact mayAnswer_of_runTurn run

def failing (name : String) (polls : Nat) : Tool RunCounts where
  name
  handler := (Handler.failing (.execution (name ++ " failed"))).delayed polls
  propagateErrors := true

/-- A chat whose model asks for two tools that fail, the one that fails later first. -/
def racing : Chat RunCounts Unit where
  provider := fun _ => .ok (.ofCalls "m" [⟨"a", "slow", ""⟩, ⟨"b", "quick", ""⟩])
  executor :=
    ⟨(Toolset.ofTools [failing "slow" 2, failing "quick" 0]).toOption.getD .empty,
      .observed .silent fun _ => .zero⟩

def blamed : Except ChatError TurnResult → Option String
  | .error e => e.toolName
  | .ok _ => none

theorem racing_agrees :
    racing.executor.invoker = .observed .silent (fun _ => .zero) ∧
    racing.executor.tools.Functional ∧
    ∃ e after after', e.toolName = some "slow" ∧
      (racing.withParallel true).runTurn ⟨⟨"s", "m", none⟩, "hi", {}, []⟩ ⟨[], (), []⟩ =
        some (.error e, after) ∧
      (racing.withParallel false).runTurn ⟨⟨"s", "m", none⟩, "hi", {}, []⟩ ⟨[], (), []⟩ =
        some (.error e, after') := by
  have handlers : racing.executor.tools.entries.values.map (·.handler) =
      [(failing "slow" 2).handler, (failing "quick" 0).handler] := rfl
  have functional : racing.executor.tools.Functional := by
    intro name entry known context arguments before after
    have member : entry.handler ∈ racing.executor.tools.entries.values.map (·.handler) :=
      List.mem_map_of_mem (Registry.mem_values_of_get? known)
    rw [handlers] at member
    unfold RegisteredTool.answer
    simp only [List.mem_cons, List.not_mem_nil, or_false] at member
    rcases member with same | same <;> rw [same] <;> rfl
  obtain ⟨-, plays, unique⟩ := runTurn_agrees racing .silent (fun _ => .zero) rfl functional
    ⟨⟨"s", "m", none⟩, "hi", {}, []⟩ ⟨[], (), []⟩
  obtain ⟨answer, after, together⟩ := (plays true).1 Observer.calm_silent Observer.calm_silent
  obtain ⟨answer', after', inTurn⟩ := (plays false).1 Observer.calm_silent Observer.calm_silent
  obtain rfl := unique true false answer answer' ((plays true).2 _ _ together)
    ((plays false).2 _ _ inTurn)
  have outcome : ((racing.withParallel true).runTurn ⟨⟨"s", "m", none⟩, "hi", {}, []⟩
      ⟨[], (), []⟩).map (fun r => blamed r.1) = some (some "slow") := by decide +kernel
  rw [together, Option.map_some, Option.some.injEq] at outcome
  cases answer with
  | ok result => cases outcome
  | error e => exact ⟨rfl, functional, e, after, after', outcome, together, inTurn⟩

end Chat

end ToolChat
