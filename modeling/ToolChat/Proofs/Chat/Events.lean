import ToolChat.Observe.Log
import ToolChat.Proofs.Chat.HandedBack
import ToolChat.Proofs.Tool.Notes

/-!
What the observer of a chat is told in a turn.

Each tool round that is run to its end is told as one block of events, numbered from one. Then the
turn closes in one of seven ways, and the last event has its answer. The events are read off the
notes of any observer that keeps them all and that the calls of tools do not touch, as the one that
records them in a log.
-/

set_option autoImplicit false

namespace ToolChat

variable {σ η : Type}

namespace ChatEvent

variable (session : ChatSession)

def asking (k : Nat) : Except ChatError ModelResponse → List ChatEvent
  | .ok response =>
    [.phase session .awaitingModel, .roundStarted session k, .modelResponded session k response]
  | .error _ => [.phase session .awaitingModel, .roundStarted session k]

def executing (k : Nat) : Except ChatError (List Execution) → List ChatEvent
  | .ok executions =>
    [.phase session .executingTools, .toolsExecuted session k (executions.map (·.result))]
  | .error _ => [.phase session .executingTools]

def ofRound (k : Nat) (round : Round) : List ChatEvent :=
  [.phase session .awaitingModel, .roundStarted session k,
    .modelResponded session k round.response, .phase session .executingTools,
    .toolsExecuted session k round.results]

def ofRounds (rounds : List Round) : List ChatEvent :=
  (rounds.zipIdx 1).flatMap fun (round, k) => ofRound session k round

def ofAnswer : Except ChatError TurnResult → ChatEvent
  | .ok result => .turnCompleted session result
  | .error e => .turnFailed session e

def announcing : Except ChatError TurnResult → List ChatEvent
  | .ok result => [.phase session .terminal, .turnCompleted session result]
  | .error e => [.turnFailed session e]

def endsTurn : ChatEvent → Bool
  | .turnCompleted _ _ | .turnFailed _ _ => true
  | _ => false

variable {session}

theorem ofRounds_concat (rounds : List Round) (round : Round) :
    ofRounds session (rounds ++ [round]) =
      ofRounds session rounds ++ ofRound session (rounds.length + 1) round := by
  rw [ofRounds, List.zipIdx_append, List.flatMap_append, List.zipIdx_singleton,
    List.flatMap_singleton, Nat.add_comm]
  rfl

theorem underway_of_mem_ofRounds {rounds : List Round} {event : ChatEvent}
    (h : event ∈ ofRounds session rounds) :
    event.endsTurn = false ∧ event ≠ .phase session .terminal := by
  obtain ⟨⟨round, k⟩, -, mem⟩ := List.mem_flatMap.1 h
  simp only [ofRound, List.mem_cons, List.not_mem_nil, or_false] at mem
  rcases mem with rfl | rfl | rfl | rfl | rfl <;> exact ⟨rfl, nofun⟩

end ChatEvent

theorem Round.calls_of_kept {round : Round} (kept : round.Kept) :
    round.results.map (·.call) = round.response.calls := by
  have same : List.Forall₂ Eq (round.executions.map fun execution => execution.result.call)
      round.response.calls :=
    List.forall₂_map_left_iff.2 (kept.flip)
  rw [List.forall₂_eq_eq_eq] at same
  rw [Round.results, List.map_map]
  exact same

def Log.chatEvents (log : Log) : List ChatEvent :=
  log.filterMap fun
    | .chat event => some event
    | _ => none

theorem Log.chatEvents_append (log more : Log) :
    Log.chatEvents (log ++ more) = log.chatEvents ++ more.chatEvents :=
  List.filterMap_append

namespace Chat

/-- The notes of the observer show all the events of the chat, in order and untouched by the calls
of tools. -/
structure Records (chat : Chat σ η) (view : η → List ChatEvent) : Prop where
  notes : ∀ event notes, ∃ kept,
    chat.observer.notice event notes = .calm kept ∧ view kept = view notes ++ [event]
  calls : ∀ events,
    chat.executor.invoker.Preserves fun world => view world.observers = events

def logged (provider : Provider) (tools : Toolset σ) (policy : ChatPolicy)
    (stopwatch : ToolCall → Duration) : Chat σ Log where
  provider
  executor := ⟨tools, .observed Observers.recording.tools stopwatch⟩
  policy
  observer := Observers.recording.chat

theorem records_logged (provider : Provider) (tools : Toolset σ) (policy : ChatPolicy)
    (stopwatch : ToolCall → Duration) :
    (logged provider tools policy stopwatch).Records Log.chatEvents where
  notes event log := ⟨log ++ [.chat event], rfl, log.chatEvents_append _⟩
  calls events := by
    refine Invoker.preserves_observed (fun event world hw _ after told => ?_)
      (fun body world hw _ after ran => ?_) stopwatch
    · cases told
      have extended := Log.chatEvents_append world.observers [.tool event]
      exact ⟨extended.trans ((List.append_nil _).trans hw), trivial⟩
    · cases ran
      exact ⟨hw, trivial⟩

variable {chat : Chat σ η} {request : TurnRequest} {start : World σ η} {rounds : List Round}
  {progress : TurnProgress} {world after : World σ η} {view : η → List ChatEvent}

section Told

variable (records : chat.Records view)
include records

theorem Records.calm : chat.observer.Calm := by
  intro event notes
  obtain ⟨kept, noticed, -⟩ := records.notes event notes
  exact ⟨kept, noticed⟩

theorem Records.tell {event : ChatEvent}
    (h : Run.tell chat.observer event world = some ((), after)) :
    view after.observers = view world.observers ++ [event] := by
  obtain ⟨_, told, noticing, ⟨⟩⟩ := Run.ofTools_eq_some.1 h
  obtain ⟨kept, noticed, extended⟩ := records.notes event world.observers
  simp only [ToolRun.tell, World.forTools, noticed] at noticing
  cases noticing
  exact extended

theorem Records.runRound {context : Context} {parallel : Bool} {calls : List ToolCall}
    {outcome : Except ToolError (List Execution)}
    (h : chat.executor.runRound context parallel calls world = some (outcome, after)) :
    view after.observers = view world.observers := by
  obtain ⟨_, ran, running, ⟨⟩⟩ := Run.ofTools_eq_some.1 h
  have kept := Executor.preserves_runCalls (records.calls (view world.observers)) context parallel
    calls world.forTools rfl outcome ran running
  exact kept.1

theorem Records.ask {outcome : Except ChatError ModelResponse}
    (h : chat.ask request progress world = some (outcome, after)) :
    view after.observers = view world.observers ++
      ChatEvent.asking request.session progress.modelRounds outcome := by
  obtain ⟨_, waiting, phase, h⟩ := bind_eq_some.1 h
  obtain ⟨_, begun, round, h⟩ := bind_eq_some.1 h
  have told : view begun.observers = view world.observers ++
      [.phase request.session .awaitingModel,
        .roundStarted request.session progress.modelRounds] := by
    rw [records.tell round, records.tell phase, List.append_assoc]
    rfl
  cases checked : (chat.modelRequest request progress.messages).validated with
  | error e =>
    rw [checked] at h
    cases pure_eq_some.1 h
    exact told
  | ok valid =>
    rw [checked] at h
    obtain ⟨requests, sending, ⟨⟩, h⟩ := bind_eq_some.1 h
    cases answered : chat.provider (begun.requests ++ [valid]) with
    | error e =>
      rw [answered] at h
      cases pure_eq_some.1 h
      exact told
    | ok response =>
      rw [answered] at h
      obtain ⟨_, heard, responded, h⟩ := bind_eq_some.1 h
      cases pure_eq_some.1 h
      rw [records.tell responded]
      change view begun.observers ++ _ = _
      rw [told, List.append_assoc]
      rfl

theorem Records.runTools {calls : List ToolCall} {outcome : Except ChatError (List Execution)}
    (h : chat.runTools request progress calls world = some (outcome, after)) :
    view after.observers = view world.observers ++
      ChatEvent.executing request.session (progress.toolRounds + 1) outcome := by
  obtain ⟨_, executing, phase, h⟩ := bind_eq_some.1 h
  obtain ⟨result, ran, running, h⟩ := bind_eq_some.1 h
  have told : view ran.observers = view world.observers ++
      [.phase request.session .executingTools] := by
    rw [records.runRound running, records.tell phase]
  cases result with
  | error e =>
    cases pure_eq_some.1 h
    exact told
  | ok executions =>
    obtain ⟨_, heard, executed, h⟩ := bind_eq_some.1 h
    cases pure_eq_some.1 h
    rw [records.tell executed, told, List.append_assoc]
    rfl

theorem Records.completes (head : chat.AtHead request start rounds progress world) {round : Round}
    (completes : chat.Completes request progress world round after) :
    view after.observers = view world.observers ++
      ChatEvent.ofRound request.session (rounds.length + 1) round := by
  obtain ⟨heard, asked, ran⟩ := completes.ran
  have asking := records.ask asked
  have executing := records.runTools ran
  have modelRounds : progress.asking.modelRounds = rounds.length + 1 :=
    congrArg (· + 1) head.modelRounds
  have toolRounds : progress.asking.toolRounds = rounds.length := head.toolRounds
  rw [executing, asking, modelRounds, toolRounds, List.append_assoc]
  rfl

theorem Records.reaches (h : chat.Reaches request start rounds progress world) :
    view world.observers =
      view start.observers ++ ChatEvent.ofRounds request.session rounds := by
  induction h with
  | start => exact (List.append_nil _).symm
  | round reaches step ih =>
    obtain ⟨completes, -⟩ := step
    rw [records.completes reaches.atHead completes, ih, List.append_assoc,
      ChatEvent.ofRounds_concat]

end Told

theorem objection?_requestAfter (rounds : List Round) :
    (chat.requestAfter request rounds).objection? = (chat.requestAfter request []).objection? := by
  have spoken : ∀ rounds : List Round,
      (request.opening ++ rounds.flatMap Round.messages).isEmpty = false := by
    intro rounds
    unfold TurnRequest.opening
    cases request.session.systemPrompt <;> rfl
  unfold ModelRequest.objection? requestAfter modelRequest
  dsimp only
  rw [spoken rounds, spoken []]

theorem Reaches.eq_nil_of_objection (h : chat.Reaches request start rounds progress world)
    {message : String} (objection : (chat.nextRequest request progress).objection? = some message) :
    rounds = [] := by
  rw [h.atHead.nextRequest_eq, objection?_requestAfter] at objection
  cases h with
  | start => rfl
  | round reaches step =>
    obtain ⟨completes, -⟩ := step
    obtain ⟨_, asked, -⟩ := completes.ran
    obtain ⟨⟨⟩ | ⟨⟩ | ⟨valid, -, -⟩, -⟩ := asked_of_ask asked
    rw [reaches.atHead.nextRequest_eq, objection?_requestAfter, objection] at valid
    cases valid

variable (chat request) in
/-- How a turn closes when `count` tool rounds were run to their end, and what is told then. -/
inductive Closes (count : Nat) : Ending → Except ChatError TurnResult → List ChatEvent → Prop
  | answered {sent : ModelRequest} {response : ModelResponse} {result : TurnResult}
      (text : response.calls = []) :
      Closes count (.answered sent response) (.ok result)
        [.phase request.session .awaitingModel, .roundStarted request.session (count + 1),
          .modelResponded request.session (count + 1) response,
          .phase request.session .terminal, .turnCompleted request.session result]
  | handedBack {last : Round} {result : TurnResult} (only : count = 1) :
      Closes count (.handedBack last) (.ok result)
        [.phase request.session .terminal, .turnCompleted request.session result]
  | rejected {e : ChatError} (rejected : chat.rejection? request = some e) (first : count = 0) :
      Closes count (.refused e) (.error e) [.turnFailed request.session e]
  | refused {message : String} {e : ChatError}
      (accepted : chat.rejection? request = none)
      (objection : (chat.requestAfter request []).objection? = some message)
      (error : e = { ChatError.invalidRequest message with phase := some .awaitingModel })
      (first : count = 0) :
      Closes count (.refused e) (.error e)
        [.phase request.session .awaitingModel, .roundStarted request.session (count + 1),
          .turnFailed request.session e]
  | unanswered {sent : ModelRequest} {cause : ProviderError} {e : ChatError}
      (error : e = .ofProviderError cause) :
      Closes count (.unanswered sent e) (.error e)
        [.phase request.session .awaitingModel, .roundStarted request.session (count + 1),
          .turnFailed request.session e]
  | exhausted {sent : ModelRequest} {response : ModelResponse} {e : ChatError}
      (calls : response.calls ≠ []) (spent : count = chat.policy.maxToolRounds)
      (error : e = { ChatError.maxRoundsExceeded chat.policy.maxToolRounds with
        phase := some .executingTools }) :
      Closes count (.exhausted sent response) (.error e)
        [.phase request.session .awaitingModel, .roundStarted request.session (count + 1),
          .modelResponded request.session (count + 1) response, .turnFailed request.session e]
  | failed {sent : ModelRequest} {response : ModelResponse} {cause : ToolError} {e : ChatError}
      (calls : response.calls ≠ []) (error : e = .ofToolError cause) :
      Closes count (.failed sent response e) (.error e)
        [.phase request.session .awaitingModel, .roundStarted request.session (count + 1),
          .modelResponded request.session (count + 1) response,
          .phase request.session .executingTools, .turnFailed request.session e]

theorem Takes.answered {course : Course} {answer : Except ChatError TurnResult} {last : World σ η}
    (takes : chat.Takes request start course answer last) :
    chat.provider.Answered start.requests course.sent course.responses := by
  cases takes with
  | rejected _ => exact nofun
  | rounds _ reaches ends => exact reaches.atHead.answered_of_ends ends

theorem Takes.kept (keeps : chat.executor.invoker.KeepsCalls) {course : Course}
    {answer : Except ChatError TurnResult} {last : World σ η}
    (takes : chat.Takes request start course answer last) :
    ∀ round ∈ course.completed, round.response.calls ≠ [] ∧ round.Kept := by
  cases takes with
  | rejected _ => exact nofun
  | rounds _ reaches ends => exact kept_of_ends keeps reaches ends

section Closing

variable {ending : Ending} {answer : Except ChatError TurnResult} {last : World σ η}

theorem Records.ends (records : chat.Records view) (accepted : chat.rejection? request = none)
    (reaches : chat.Reaches request start rounds progress world)
    (ends : chat.Ends request progress world ending answer last) :
    ∃ events, chat.Closes request (rounds ++ ending.completed).length ending answer
        (events ++ ChatEvent.announcing request.session answer) ∧
      view last.observers = view start.observers ++
        (ChatEvent.ofRounds request.session (rounds ++ ending.completed) ++ events) := by
  have head := reaches.atHead
  have told := records.reaches reaches
  have modelRounds : progress.asking.modelRounds = rounds.length + 1 :=
    congrArg (· + 1) head.modelRounds
  have asking : ∀ {outcome heard},
      chat.ask request progress.asking world = some (outcome, heard) →
      view heard.observers = view start.observers ++
        (ChatEvent.ofRounds request.session (rounds ++ []) ++
          ChatEvent.asking request.session (rounds.length + 1) outcome) := by
    intro outcome heard asked
    rw [records.ask asked, told, modelRounds, List.append_assoc, List.append_nil]
  have count : (rounds ++ []).length = rounds.length := by rw [List.append_nil]
  -- All ends but the last leave the rounds before the loop head as those that were completed.
  cases ends with
  | refused asked unsent =>
    refine ⟨_, ?_, asking asked⟩
    obtain ⟨objection, -⟩ | ⟨-, sent, -⟩ | ⟨⟩ := (asked_of_ask asked).1
    · obtain rfl := reaches.eq_nil_of_objection objection
      rw [head.nextRequest_eq] at objection
      exact .refused accepted objection rfl rfl
    · rw [unsent, List.self_eq_append_right] at sent
      cases sent
  | unanswered asked sent =>
    refine ⟨_, ?_, asking asked⟩
    obtain ⟨-, unsent⟩ | ⟨-, -, -⟩ | ⟨⟩ := (asked_of_ask asked).1
    · rw [unsent, List.self_eq_append_right] at sent
      cases sent
    · change chat.Closes request (rounds ++ []).length _ _ _
      rw [count]
      exact .unanswered rfl
  | answered asked text =>
    refine ⟨_, ?_, asking asked⟩
    change chat.Closes request (rounds ++ []).length _ _ _
    rw [count]
    exact .answered text
  | exhausted asked calls spent =>
    refine ⟨_, ?_, asking asked⟩
    change chat.Closes request (rounds ++ []).length _ _ _
    rw [count]
    have all : rounds.length = chat.policy.maxToolRounds :=
      Nat.le_antisymm head.within (head.toolRounds ▸ spent)
    exact .exhausted calls all rfl
  | @failed response e heard _ asked calls allowed ran =>
    refine ⟨ChatEvent.asking request.session (rounds.length + 1) (.ok response) ++
      [.phase request.session .executingTools], ?_, ?_⟩
    · change chat.Closes request (rounds ++ []).length _ _ _
      rw [count]
      obtain ⟨-, _, _, result, -, outcome⟩ := runTools_spec ran
      cases result with
      | error cause =>
        cases outcome
        exact .failed calls rfl
      | ok executions => cases outcome
    · rw [records.runTools ran, asking asked, List.append_assoc, List.append_assoc]
      rfl
  | handedBack completes raw =>
    obtain ⟨rfl, -⟩ := (head.allRaw_after completes).1 raw
    refine ⟨[], .handedBack rfl, ?_⟩
    rw [records.completes head completes, told, List.append_nil, Ending.completed,
      ChatEvent.ofRounds_concat, List.append_assoc]

/-- A turn tells the rounds that it completes and how it closes, up to its announcement. -/
theorem Records.takes (records : chat.Records view) {course : Course}
    (takes : chat.Takes request start course answer last) :
    ∃ events, chat.Closes request course.completed.length course.ending answer
        (events ++ ChatEvent.announcing request.session answer) ∧
      view last.observers = view start.observers ++
        (ChatEvent.ofRounds request.session course.completed ++ events) := by
  cases takes with
  | rejected rejected => exact ⟨[], .rejected rejected rfl, (List.append_nil _).symm⟩
  | rounds accepted reaches ends => exact records.ends accepted reaches ends

theorem Records.runTurn (records : chat.Records view)
    (h : chat.runTurn request start = some (answer, after)) :
    ∃ course last, chat.Takes request start course answer last ∧
      view after.observers =
        view last.observers ++ ChatEvent.announcing request.session answer := by
  obtain ⟨outcome, last, hdrive, h⟩ := bind_eq_some.1 h
  obtain ⟨course, takes⟩ := drive_eq_some_iff.1 hdrive
  cases outcome with
  | ok result =>
    obtain ⟨_, told, htold, h⟩ := bind_eq_some.1 h
    obtain ⟨_, heard, hheard, h⟩ := bind_eq_some.1 h
    cases pure_eq_some.1 h
    refine ⟨course, last, takes, ?_⟩
    rw [records.tell hheard, records.tell htold, List.append_assoc]
    rfl
  | error e =>
    obtain ⟨_, told, htold, h⟩ := bind_eq_some.1 h
    cases pure_eq_some.1 h
    exact ⟨course, last, takes, records.tell htold⟩

theorem Closes.eq_concat {count : Nat} {events : List ChatEvent}
    (h : chat.Closes request count ending answer events) :
    ∃ before, events = before ++ [.ofAnswer request.session answer] ∧
      (∀ event ∈ before, event.endsTurn = false) ∧
      (.phase request.session .terminal ∈ before ↔ ∃ result, answer = .ok result) := by
  cases h with
  | answered _ => exact ⟨[_, _, _, _], rfl, by simp [ChatEvent.endsTurn], by simp⟩
  | handedBack _ => exact ⟨[_], rfl, by simp [ChatEvent.endsTurn], by simp⟩
  | rejected _ _ => exact ⟨[], rfl, nofun, by simp⟩
  | refused _ _ _ _ => exact ⟨[_, _], rfl, by simp [ChatEvent.endsTurn], by simp⟩
  | unanswered _ => exact ⟨[_, _], rfl, by simp [ChatEvent.endsTurn], by simp⟩
  | exhausted _ _ _ => exact ⟨[_, _, _], rfl, by simp [ChatEvent.endsTurn], by simp⟩
  | failed _ _ => exact ⟨[_, _, _, _], rfl, by simp [ChatEvent.endsTurn], by simp⟩

end Closing

variable (chat request) in
/-- The events of a turn: one block for each of the completed rounds, and then how it closes. The
answer is told once and last, and the terminal phase exactly if the turn succeeds. -/
structure Announces (course : Course) (answer : Except ChatError TurnResult)
    (closing trace : List ChatEvent) : Prop where
  trace_eq : trace = ChatEvent.ofRounds request.session course.completed ++ closing
  closes : chat.Closes request course.completed.length course.ending answer closing
  once : trace.filter ChatEvent.endsTurn = [.ofAnswer request.session answer]
  last : trace.getLast? = some (.ofAnswer request.session answer)
  terminal : .phase request.session .terminal ∈ trace ↔ ∃ result, answer = .ok result

theorem Closes.announces {course : Course} {answer : Except ChatError TurnResult}
    {closing : List ChatEvent}
    (h : chat.Closes request course.completed.length course.ending answer closing) :
    chat.Announces request course answer closing
      (ChatEvent.ofRounds request.session course.completed ++ closing) := by
  obtain ⟨before, rfl, silent, terminal⟩ := h.eq_concat
  have underway : ∀ event ∈ ChatEvent.ofRounds request.session course.completed,
      event.endsTurn = false ∧ event ≠ .phase request.session .terminal :=
    fun event mem => ChatEvent.underway_of_mem_ofRounds mem
  have ends : (ChatEvent.ofAnswer request.session answer).endsTurn = true := by
    cases answer <;> rfl
  have other : ChatEvent.phase request.session .terminal ≠ .ofAnswer request.session answer := by
    cases answer <;> exact nofun
  refine ⟨rfl, h, ?_, ?_, ?_⟩
  · have rounds := List.filter_eq_nil_iff.2 fun event mem =>
      Bool.not_eq_true _ ▸ (underway event mem).1
    have closing := List.filter_eq_nil_iff.2 fun event mem =>
      Bool.not_eq_true _ ▸ silent event mem
    rw [List.filter_append, List.filter_append, rounds, closing, List.filter_singleton, ends]
    rfl
  · rw [← List.append_assoc, List.getLast?_concat]
  · rw [List.mem_append, List.mem_append, List.mem_singleton, ← terminal]
    simp only [other, or_false, or_iff_right_iff_imp]
    exact fun mem => absurd rfl (underway _ mem).2

/-- A turn of a chat whose observer keeps all events takes a course to its answer, and the events
are those of this course. The chat that logs its events is such a chat, whatever its provider, tools
and policy are. -/
theorem runTurn_announces :
    (∀ (provider : Provider) (tools : Toolset σ) (policy : ChatPolicy)
        (stopwatch : ToolCall → Duration),
      (logged provider tools policy stopwatch).Records Log.chatEvents ∧
      (logged provider tools policy stopwatch).executor.invoker.Answers ∧
      (logged provider tools policy stopwatch).executor.invoker.KeepsCalls) ∧
    ∀ (chat : Chat σ η) (view : η → List ChatEvent), chat.Records view →
      ∀ (request : TurnRequest) (start : World σ η),
        (chat.executor.invoker.Answers →
          ∃ answer after, chat.runTurn request start = some (answer, after)) ∧
        ∀ answer after, chat.runTurn request start = some (answer, after) →
          ∃ course last closing trace, chat.Takes request start course answer last ∧
            chat.provider.Answered start.requests course.sent course.responses ∧
            view after.observers = view start.observers ++ trace ∧
            chat.Announces request course answer closing trace ∧
            (chat.executor.invoker.KeepsCalls → ∀ round ∈ course.completed,
              round.response.calls ≠ [] ∧
              round.results.map (·.call) = round.response.calls) := by
  refine ⟨fun provider tools policy stopwatch =>
    ⟨records_logged provider tools policy stopwatch,
      Invoker.answers_observed (fun event log => ⟨_, rfl⟩) stopwatch,
      Invoker.keepsCalls_observed _ stopwatch⟩,
    fun chat view records request start => ⟨fun answers => ?_, fun answer after run => ?_⟩⟩
  · obtain ⟨⟨answer, after⟩, run⟩ := exists_runTurn records.calm answers start
    exact ⟨answer, after, run⟩
  · obtain ⟨course, last, takes, announced⟩ := records.runTurn run
    obtain ⟨events, closes, told⟩ := records.takes takes
    refine ⟨course, last, _, _, takes, takes.answered, ?_, closes.announces, fun keeps => ?_⟩
    · rw [announced, told, List.append_assoc, List.append_assoc]
    · intro round mem
      obtain ⟨calls, kept⟩ := takes.kept keeps round mem
      exact ⟨calls, Round.calls_of_kept kept⟩

/-- A chat whose model asks for an unknown tool and then answers, with a log of what happens. -/
def overheard : Chat Unit Log :=
  logged
    (fun requests =>
      if requests.length = 1 then .ok (.ofCalls "m" [⟨"a", "missing", ""⟩])
      else .ok (.ofText "m" "Nothing."))
    .empty {} fun _ => .zero

theorem overheard_announces :
    ∃ result after course closing,
      overheard.runTurn ⟨⟨"s", "m", none⟩, "hi", {}, []⟩ ⟨(), [], []⟩ =
        some (.ok result, after) ∧
      after.observers.chatEvents =
        [.phase ⟨"s", "m", none⟩ .awaitingModel, .roundStarted ⟨"s", "m", none⟩ 1,
          .modelResponded ⟨"s", "m", none⟩ 1 (.ofCalls "m" [⟨"a", "missing", ""⟩]),
          .phase ⟨"s", "m", none⟩ .executingTools,
          .toolsExecuted ⟨"s", "m", none⟩ 1
            [⟨⟨"a", "missing", ""⟩, "There is no tool called 'missing'"⟩],
          .phase ⟨"s", "m", none⟩ .awaitingModel, .roundStarted ⟨"s", "m", none⟩ 2,
          .modelResponded ⟨"s", "m", none⟩ 2 (.ofText "m" "Nothing."),
          .phase ⟨"s", "m", none⟩ .terminal, .turnCompleted ⟨"s", "m", none⟩ result] ∧
      overheard.Announces ⟨⟨"s", "m", none⟩, "hi", {}, []⟩ course (.ok result) closing
        after.observers.chatEvents ∧
      ∀ round ∈ course.completed, round.results.map (·.call) = round.response.calls := by
  have logs : ∃ result, (overheard.runTurn ⟨⟨"s", "m", none⟩, "hi", {}, []⟩
      ⟨(), [], []⟩).map (fun r => (r.1.toOption, r.2.observers.chatEvents)) = some (some result,
        [.phase ⟨"s", "m", none⟩ .awaitingModel, .roundStarted ⟨"s", "m", none⟩ 1,
          .modelResponded ⟨"s", "m", none⟩ 1 (.ofCalls "m" [⟨"a", "missing", ""⟩]),
          .phase ⟨"s", "m", none⟩ .executingTools,
          .toolsExecuted ⟨"s", "m", none⟩ 1
            [⟨⟨"a", "missing", ""⟩, "There is no tool called 'missing'"⟩],
          .phase ⟨"s", "m", none⟩ .awaitingModel, .roundStarted ⟨"s", "m", none⟩ 2,
          .modelResponded ⟨"s", "m", none⟩ 2 (.ofText "m" "Nothing."),
          .phase ⟨"s", "m", none⟩ .terminal, .turnCompleted ⟨"s", "m", none⟩ result]) :=
    ⟨⟨"s", some "Nothing.", [⟨⟨"a", "missing", ""⟩, "There is no tool called 'missing'"⟩], 2,
      [{ role := .user, content := "hi" },
        { role := .assistant, content := "", calls := [⟨"a", "missing", ""⟩] },
        { role := .tool, content := "There is no tool called 'missing'", answers := some "a" },
        { role := .assistant, content := "Nothing." }], .endTurn⟩, by decide +kernel⟩
  obtain ⟨logged, announces⟩ := runTurn_announces (σ := Unit) (η := Log)
  obtain ⟨records, answers, keeps⟩ := logged overheard.provider .empty {} fun _ => .zero
  obtain ⟨returns, turn⟩ := announces overheard Log.chatEvents records
    ⟨⟨"s", "m", none⟩, "hi", {}, []⟩ ⟨(), [], []⟩
  obtain ⟨answer, after, run⟩ := returns answers
  obtain ⟨course, last, closing, trace, -, -, told, whole, calls⟩ := turn answer after run
  obtain ⟨result, logs⟩ := logs
  rw [run, Option.map_some, Option.some.injEq, Prod.mk.injEq] at logs
  obtain ⟨made, events⟩ := logs
  have heard : after.observers.chatEvents = trace := told
  cases answer with
  | error e => cases made
  | ok other =>
    cases made
    exact ⟨result, after, course, closing, run, events, heard ▸ whole,
      fun round mem => (calls keeps round mem).2⟩

end Chat

end ToolChat
