import Mathlib.Data.List.Induction
import ToolChat.Proofs.Chat.Events
import ToolChat.Proofs.Chat.Invariant
import ToolChat.Proofs.Observe.Totals

/-!
What metering adds up to.

Turns of any chats share the log of one metering observer. After each of them the totals agree:
calls that started have ended, each turn was counted once when it ended, and a round without an
answer of the model is the last one of a turn that failed for this reason.
-/

set_option autoImplicit false

namespace ToolChat

variable {σ η α : Type}

/-- As many calls have ended as have started, going by what was told. -/
def Notice.CallsEnded (told : List Notice) : Prop :=
  Log.CallsEnded ((told.filterMap Notice.tool?).flatMap ToolEvent.samples)

theorem Notice.CallsEnded.extend {told later : List Notice} {events : List ToolEvent}
    (h : Notice.CallsEnded told)
    (extended : later.filterMap Notice.tool? = told.filterMap Notice.tool? ++ events)
    (ended : Log.CallsEnded (events.flatMap ToolEvent.samples)) : Notice.CallsEnded later := by
  unfold Notice.CallsEnded
  rw [extended, List.flatMap_append]
  exact h.append ended

structure PlayedTurn where
  /-- Why it was rejected before its first round, if it was. -/
  rejection : Option ChatError
  course : Course
  answer : Except ChatError TurnResult

namespace PlayedTurn

/-- The rounds that were started: one before each round after which the turn went on, and the last
one. A turn that is rejected starts none. -/
def rounds (turn : PlayedTurn) : Nat :=
  if turn.rejection.isSome then 0 else turn.course.rounds.length + 1

/-- Whether the turn ended because the provider gave an error or a request was not fit to be
sent. -/
def isUnheard (turn : PlayedTurn) : Bool :=
  match turn.answer with
  | .ok _ => false
  | .error e =>
    e.kind == .provider || e.kind == .invalidRequest && e.phase == some .awaitingModel

end PlayedTurn

namespace Log

/-- What the totals about turns are after some turns. -/
structure TurnsEnded (turns : List PlayedTurn) (log : Log) : Prop where
  ended : log.counted "fassistant_chat_turn_complete_total" [] +
    log.counted "fassistant_chat_turn_failure_total" [] = turns.length
  rounds : log.counted "fassistant_chat_rounds_total" [] = (turns.map (·.rounds)).sum
  responses : log.counted "fassistant_chat_rounds_total" [] =
    log.counted "fassistant_chat_model_responses_total" [] + turns.countP (·.isUnheard)
  toolRounds : log.recorded "fassistant_chat_tool_calls_per_round" [] =
    (turns.map (·.course.completed.length)).sum

variable {log more : Log} {turns : List PlayedTurn}

theorem TurnsEnded.nil : TurnsEnded [] [] :=
  ⟨rfl, rfl, rfl, rfl⟩

theorem TurnsEnded.append {next : List PlayedTurn} (h : TurnsEnded turns log)
    (hm : TurnsEnded next more) : TurnsEnded (turns ++ next) (log ++ more) := by
  constructor
  · rw [counted_append, counted_append, List.length_append, ← h.ended, ← hm.ended]
    omega
  · rw [counted_append, List.map_append, List.sum_append, h.rounds, hm.rounds]
  · rw [counted_append, counted_append, List.countP_append, h.responses, hm.responses]
    omega
  · rw [recorded_append, List.map_append, List.sum_append, h.toolRounds, hm.toolRounds]

theorem TurnsEnded.perm (h : TurnsEnded turns log) (same : log.Perm more) :
    TurnsEnded turns more := by
  constructor
  · simp only [← counted_eq_of_perm same]
    exact h.ended
  · simp only [← counted_eq_of_perm same]
    exact h.rounds
  · simp only [← counted_eq_of_perm same]
    exact h.responses
  · simp only [← recorded_eq_of_perm same]
    exact h.toolRounds

theorem turnsEnded_calls (events : List ToolEvent) :
    TurnsEnded [] (events.flatMap ToolEvent.samples) := by
  induction events with
  | nil => exact .nil
  | cons event events ih =>
    have first : TurnsEnded [] event.samples := by
      constructor <;> cases event <;>
        simp [ToolEvent.samples, Sample.ofToolEvent, LogEntry.counts, LogEntry.records]
    rw [List.flatMap_cons]
    exact first.append ih

theorem callsEnded_chat (events : List ChatEvent) :
    CallsEnded (events.flatMap ChatEvent.samples) := by
  induction events with
  | nil => exact .nil
  | cons event events ih =>
    have first : CallsEnded event.samples := by
      constructor <;> intro name <;> cases event <;>
        simp [ChatEvent.samples, Sample.ofChatEvent, LogEntry.counts, LogEntry.records,
          ToolError.kinds]
    rw [List.flatMap_cons]
    exact first.append ih

/-- The totals of a log that are about turns. -/
structure Counts (rounds responses toolRounds completed failed : Nat) (log : Log) : Prop where
  rounds : log.counted "fassistant_chat_rounds_total" [] = rounds
  responses : log.counted "fassistant_chat_model_responses_total" [] = responses
  toolRounds : log.recorded "fassistant_chat_tool_calls_per_round" [] = toolRounds
  completed : log.counted "fassistant_chat_turn_complete_total" [] = completed
  failed : log.counted "fassistant_chat_turn_failure_total" [] = failed

theorem Counts.append {rounds responses toolRounds completed failed rounds' responses' toolRounds'
    completed' failed' : Nat} (h : Counts rounds responses toolRounds completed failed log)
    (hm : Counts rounds' responses' toolRounds' completed' failed' more) :
    Counts (rounds + rounds') (responses + responses') (toolRounds + toolRounds')
      (completed + completed') (failed + failed') (log ++ more) := by
  constructor
  · rw [counted_append, h.rounds, hm.rounds]
  · rw [counted_append, h.responses, hm.responses]
  · rw [recorded_append, h.toolRounds, hm.toolRounds]
  · rw [counted_append, h.completed, hm.completed]
  · rw [counted_append, h.failed, hm.failed]

theorem counts_ofRounds (session : ChatSession) (rounds : List Round) :
    Counts rounds.length rounds.length rounds.length 0 0
      ((ChatEvent.ofRounds session rounds).flatMap ChatEvent.samples) := by
  induction rounds using List.reverseRecOn with
  | nil => exact ⟨rfl, rfl, rfl, rfl, rfl⟩
  | append_singleton rounds round ih =>
    have one : Counts 1 1 1 0 0
        ((ChatEvent.ofRound session (rounds.length + 1) round).flatMap ChatEvent.samples) := by
      constructor <;>
        simp [ChatEvent.ofRound, ChatEvent.samples, Sample.ofChatEvent, LogEntry.counts,
          LogEntry.records]
    rw [ChatEvent.ofRounds_concat, List.flatMap_append, List.length_append, List.length_singleton]
    exact ih.append one

end Log

namespace Chat

variable {chat : Chat σ η} {request : TurnRequest} {start last : World σ η} {course : Course}
  {answer : Except ChatError TurnResult}

theorem phase_of_rejected {e : ChatError} (h : chat.rejection? request = some e) :
    e.phase = none := by
  unfold rejection? ChatPolicy.objection? at h
  split at h
  · cases h
    rfl
  · split at h
    · cases h
      rfl
    · cases h

section Closing

variable {ending : Ending} {count : Nat} {closing : List ChatEvent}

theorem Closes.counts (accepted : chat.rejection? request = none)
    (closes : chat.Closes request count ending answer closing) :
    Log.Counts (1 - ending.completed.length) (ending.responses.length - ending.completed.length) 0
      answer.toBool.toNat (!answer.toBool).toNat (closing.flatMap ChatEvent.samples) := by
  cases closes with
  | rejected rejected => exact absurd (rejected.symm.trans accepted) nofun
  | _ =>
    constructor <;>
      simp [ChatEvent.samples, Sample.ofChatEvent, LogEntry.counts, LogEntry.records,
        Ending.completed, Ending.responses, Except.toBool]

/-- The last round of a turn lacks an answer of the model exactly if the turn fails for it. -/
theorem Closes.unheard (accepted : chat.rejection? request = none)
    (closes : chat.Closes request count ending answer closing) (turn : PlayedTurn)
    (same : turn.answer = answer) :
    1 - ending.completed.length =
      ending.responses.length - ending.completed.length + if turn.isUnheard then 1 else 0 := by
  cases closes with
  | rejected rejected => exact absurd (rejected.symm.trans accepted) nofun
  | refused _ _ error _ =>
    simp [PlayedTurn.isUnheard, same, error, Ending.completed, Ending.responses,
      ChatError.invalidRequest]
  | unanswered error =>
    simp [PlayedTurn.isUnheard, same, error, Ending.completed, Ending.responses,
      ChatError.ofProviderError]
  | exhausted _ _ error =>
    simp [PlayedTurn.isUnheard, same, error, Ending.completed, Ending.responses,
      ChatError.maxRoundsExceeded]
  | failed _ error =>
    simp [PlayedTurn.isUnheard, same, error, Ending.completed, Ending.responses,
      ChatError.ofToolError]
  | _ => simp [PlayedTurn.isUnheard, same, Ending.completed, Ending.responses]

theorem turnsEnded_of_rejected {e : ChatError} (rejected : chat.rejection? request = some e)
    (takes : chat.Takes request start course answer last)
    (closes : chat.Closes request course.completed.length course.ending answer closing) :
    Log.TurnsEnded [⟨some e, course, answer⟩]
      ((ChatEvent.ofRounds request.session course.completed ++ closing).flatMap
        ChatEvent.samples) := by
  have mild : e.phase ≠ some .awaitingModel := by simp [phase_of_rejected rejected]
  have kind := kind_of_rejected rejected
  cases takes with
  | rounds accepted _ _ => exact absurd (rejected.symm.trans accepted) nofun
  | rejected own =>
    obtain rfl := Option.some.inj (rejected.symm.trans own)
    cases closes with
    | refused accepted _ _ _ => exact absurd (rejected.symm.trans accepted) nofun
    | rejected _ _ =>
      have none : (ChatEvent.ofRounds request.session
          (Course.completed ⟨[], .refused e⟩)) = [] := rfl
      rw [none]
      constructor <;>
        simp [ChatEvent.samples, Sample.ofChatEvent, LogEntry.counts, LogEntry.records,
          PlayedTurn.rounds, PlayedTurn.isUnheard, Course.completed, Ending.completed, kind, mild]

theorem turnsEnded_of_accepted (accepted : chat.rejection? request = none)
    (closes : chat.Closes request course.completed.length course.ending answer closing) :
    Log.TurnsEnded [⟨none, course, answer⟩]
      ((ChatEvent.ofRounds request.session course.completed ++ closing).flatMap
        ChatEvent.samples) := by
  have rounds := Log.counts_ofRounds request.session course.completed
  have unheard := closes.unheard accepted ⟨none, course, answer⟩ rfl
  have length : course.completed.length = course.rounds.length + course.ending.completed.length :=
    List.length_append
  have least : course.ending.completed.length ≤ 1 := by
    cases course.ending <;> simp [Ending.completed]
  rw [List.flatMap_append]
  have whole := rounds.append (closes.counts accepted)
  constructor
  · rw [whole.completed, whole.failed]
    cases answer.toBool <;> rfl
  · have all : PlayedTurn.rounds ⟨none, course, answer⟩ = course.rounds.length + 1 := rfl
    rw [whole.rounds, List.map_singleton, List.sum_singleton, all]
    omega
  · rw [whole.rounds, whole.responses, List.countP_singleton]
    omega
  · rw [whole.toolRounds, List.map_singleton, List.sum_singleton]
    rfl

end Closing

section Noting

variable {provider : Provider} {tools : Toolset σ} {policy : ChatPolicy}
  {stopwatch : ToolCall → Duration}

theorem records_noting : (watched provider tools policy stopwatch .noting).Records
    (·.filterMap Notice.chat?) where
  notes event notes := ⟨notes ++ [.chat event], rfl, List.filterMap_append⟩
  calls events := by
    refine Invoker.preserves_observed (fun event world hw _ after told => ?_)
      (fun body world hw _ after ran => ?_) stopwatch
    · cases told
      have extended : (world.observers ++ [Notice.tool event]).filterMap Notice.chat? = _ :=
        List.filterMap_append
      exact ⟨extended.trans ((List.append_nil _).trans hw), trivial⟩
    · cases ran
      exact ⟨hw, trivial⟩

theorem records_calls : Observers.noting.tools.Records (·.filterMap Notice.tool?) :=
  fun event notes => ⟨notes ++ [.tool event], rfl, List.filterMap_append⟩

theorem callsEnded_of_runTurn {request : TurnRequest} {start after : World σ (List Notice)}
    {answer : Except ChatError TurnResult} (unheard : start.observers = [])
    (run : (watched provider tools policy stopwatch .noting).runTurn request start =
      some (answer, after)) :
    Notice.CallsEnded after.observers := by
  have tell : ∀ event,
      Preserves (fun world : ToolWorld σ (List Notice) => Notice.CallsEnded world.observers)
        (ToolRun.tell (watched provider tools policy stopwatch .noting).observer event)
        fun _ => True := by
    rintro event world ended a left ⟨⟩
    exact ⟨ended.extend List.filterMap_append Log.CallsEnded.nil, trivial⟩
  have calls : ∀ context parallel calls,
      Preserves (fun world => Notice.CallsEnded world.observers)
        ((watched provider tools policy stopwatch .noting).executor.runCalls context parallel calls)
        fun _ => True := by
    intro context parallel calls world ended outcome left ran
    obtain ⟨told, extended, more⟩ :=
      Executor.callsEnded_of_runCalls rfl records_calls context parallel calls _ _ _ ran
    exact ⟨ended.extend extended more, trivial⟩
  have none : Notice.CallsEnded start.observers := unheard ▸ Log.CallsEnded.nil
  exact (preserves_runTurn tell calls request start none answer after run).1

theorem turnsEnded_of_runTurn {request : TurnRequest} {start after last : World σ (List Notice)}
    {course : Course} {answer : Except ChatError TurnResult} (unheard : start.observers = [])
    (run : (watched provider tools policy stopwatch .noting).runTurn request start =
      some (answer, after))
    (takes : (watched provider tools policy stopwatch .noting).Takes request start course answer
      last) :
    Log.TurnsEnded
      [⟨(watched provider tools policy stopwatch .noting).rejection? request, course, answer⟩]
      ((after.observers.filterMap Notice.chat?).flatMap ChatEvent.samples) := by
  obtain ⟨own, left, taken, announced⟩ := records_noting.runTurn run
  have drives := drive_eq_some_iff.2 ⟨course, takes⟩
  rw [drive_eq_some_iff.2 ⟨own, taken⟩] at drives
  obtain rfl : left = last := (Prod.mk.inj (Option.some.inj drives)).2
  obtain ⟨events, closes, told⟩ := records_noting.takes takes
  have whole : after.observers.filterMap Notice.chat? =
      ChatEvent.ofRounds request.session course.completed ++
        (events ++ ChatEvent.announcing request.session answer) := by
    rw [announced, told, unheard, List.append_assoc, List.append_assoc]
    rfl
  rw [whole]
  cases rejection : (watched provider tools policy stopwatch .noting).rejection? request with
  | none => exact turnsEnded_of_accepted rejection closes
  | some e => exact turnsEnded_of_rejected rejection takes closes

end Noting

structure Conserved (turns : List PlayedTurn) (log : Log) : Prop where
  calls : log.CallsEnded
  turns : log.TurnsEnded turns

abbrev metered (provider : Provider) (tools : Toolset σ) (policy : ChatPolicy)
    (stopwatch : ToolCall → Duration) : Chat σ Log :=
  watched provider tools policy stopwatch .metering

/-- Turns of metered chats, one after the other, and the log that they share. The chats may have
nothing else in common. -/
inductive Metered : List PlayedTurn → Log → Prop
  | start : Metered [] []
  | turn {turns : List PlayedTurn} {log : Log} (before : Metered turns log) {σ : Type}
      {provider : Provider} {tools : Toolset σ} {policy : ChatPolicy}
      {stopwatch : ToolCall → Duration} {request : TurnRequest} {shared : σ}
      {sent : List ModelRequest} {course : Course} {answer : Except ChatError TurnResult}
      {last after : World σ Log}
      (takes : (metered provider tools policy stopwatch).Takes request ⟨shared, log, sent⟩ course
        answer last)
      (run : (metered provider tools policy stopwatch).runTurn request ⟨shared, log, sent⟩ =
        some (answer, after)) :
      Metered (turns ++ [⟨(metered provider tools policy stopwatch).rejection? request, course,
        answer⟩]) after.observers

/-- What one turn adds to the log. -/
theorem conserved_of_runTurn {provider : Provider} {tools : Toolset σ} {policy : ChatPolicy}
    {stopwatch : ToolCall → Duration} {request : TurnRequest} {shared : σ} {log : Log}
    {sent : List ModelRequest} {last after : World σ Log}
    (takes : (metered provider tools policy stopwatch).Takes request ⟨shared, log, sent⟩ course
      answer last)
    (run : (metered provider tools policy stopwatch).runTurn request ⟨shared, log, sent⟩ =
      some (answer, after)) :
    ∃ more, after.observers = log ++ more ∧
      Conserved [⟨(metered provider tools policy stopwatch).rejection? request, course,
        answer⟩] more := by
  obtain ⟨noted, noting, heard, tracks⟩ := exists_noted run
  obtain ⟨left, taken⟩ := tracks course last takes
  rw [Observers.foldl_metering] at heard
  have apart := (Notice.samples_perm noted.observers).symm
  have calls : Log.CallsEnded _ := (callsEnded_of_runTurn rfl noting).append
    (Log.callsEnded_chat (noted.observers.filterMap Notice.chat?))
  have turns := (Log.turnsEnded_calls (noted.observers.filterMap Notice.tool?)).append
    (turnsEnded_of_runTurn rfl noting taken)
  exact ⟨_, heard, calls.perm apart, turns.perm apart⟩

/-- After any turns of metered chats the totals agree, and one more turn of any chat comes to its
end. -/
theorem metered_conserved {turns : List PlayedTurn} {log : Log} (played : Metered turns log) :
    Conserved turns log ∧
      ∀ {σ : Type} (provider : Provider) (tools : Toolset σ) (policy : ChatPolicy)
        (stopwatch : ToolCall → Duration) (request : TurnRequest) (shared : σ)
        (sent : List ModelRequest), ∃ turn after,
          (metered provider tools policy stopwatch).runTurn request ⟨shared, log, sent⟩ =
            some (turn.answer, after) ∧
          Metered (turns ++ [turn]) after.observers := by
  constructor
  · induction played with
    | start => exact ⟨.nil, .nil⟩
    | turn _ takes run ih =>
      obtain ⟨more, extended, one⟩ := conserved_of_runTurn takes run
      rw [extended]
      exact ⟨ih.calls.append one.calls, ih.turns.append one.turns⟩
  · intro σ provider tools policy stopwatch request shared sent
    have calm : Observers.metering.Calm := ⟨fun _ _ => ⟨_, rfl⟩, fun _ _ => ⟨_, rfl⟩⟩
    have returns : ∃ r, (metered provider tools policy stopwatch).runTurn request
        ⟨shared, log, sent⟩ = some r := exists_runTurn_watched calm request _
    obtain ⟨⟨answer, after⟩, run⟩ := returns
    obtain ⟨course, last, takes, -⟩ := exists_takes_of_runTurn run
    exact ⟨⟨_, course, answer⟩, after, run, played.turn takes run⟩

def outage : Provider := fun _ => .error ⟨.transport, "no route"⟩

theorem outage_conserved : ∃ first second log,
    Metered [first, second] log ∧ Conserved [first, second] log ∧
      first.answer.toBool = true ∧
      second.answer = .error (.ofProviderError ⟨.transport, "no route"⟩) ∧
      log.counted "fassistant_chat_rounds_total" [] =
        log.counted "fassistant_chat_model_responses_total" [] + 1 ∧
      log.counted "fassistant_tool_execution_start_total" [("tool_name", "tick")] = 1 ∧
      log.counted "fassistant_tool_execution_success_total" [("tool_name", "tick")] = 1 ∧
      log.counted "fassistant_tool_execution_start_total" [("tool_name", "missing")] = 1 ∧
      log.counted "fassistant_tool_execution_failure_total"
        [("tool_name", "missing"), ("error_kind", "NotFound")] = 1 := by
  obtain ⟨first, between, ran, one⟩ := (metered_conserved .start).2 asksTwice ticking {}
    (fun _ => .zero) greeting [] []
  obtain ⟨second, after, failed, two⟩ := (metered_conserved one).2 outage (.empty : Toolset Unit)
    {} (fun _ => .zero) greeting () []
  obtain ⟨conserved, -⟩ := metered_conserved two
  obtain ⟨noted, noting, heard, -⟩ := exists_noted ran
  obtain ⟨noted', noting', heard', -⟩ := exists_noted failed
  have well : ((watched asksTwice ticking {} (fun _ => .zero) .noting).runTurn greeting
      ⟨[], [], []⟩).map (·.1.toBool) = some true := by decide +kernel
  have badly : ((watched outage (.empty : Toolset Unit) {} (fun _ => .zero) .noting).runTurn
      greeting ⟨(), [], []⟩).map (·.1) =
        some (.error (.ofProviderError ⟨.transport, "no route"⟩)) := by decide +kernel
  rw [noting, Option.map_some, Option.some.injEq] at well
  rw [noting', Option.map_some, Option.some.injEq] at badly
  have unheard : first.isUnheard = false := by
    cases answer : first.answer with
    | error e => simp [answer, Except.toBool] at well
    | ok result => simp [PlayedTurn.isUnheard, answer]
  have failure : second.answer = .error (.ofProviderError ⟨.transport, "no route"⟩) := badly
  have alone : second.isUnheard = true := by
    simp [PlayedTurn.isUnheard, failure, ChatError.ofProviderError]
  -- The total after both turns is that of the notices of the first, as the second runs no tool.
  have total : ∀ metric labels,
      ((watched asksTwice ticking {} (fun _ => .zero) .noting).runTurn greeting ⟨[], [], []⟩).map
        (fun r => Log.counted (r.2.observers.flatMap Notice.samples) metric labels) = some 1 →
      ((watched outage (.empty : Toolset Unit) {} (fun _ => .zero) .noting).runTurn greeting
        ⟨(), [], []⟩).map
          (fun r => Log.counted (r.2.observers.flatMap Notice.samples) metric labels) = some 0 →
      Log.counted after.observers metric labels = 1 := by
    intro metric labels once never
    rw [noting, Option.map_some, Option.some.injEq] at once
    rw [noting', Option.map_some, Option.some.injEq] at never
    rw [heard', heard, Observers.foldl_metering, Observers.foldl_metering, List.nil_append,
      Log.counted_append, once, never]
  refine ⟨first, second, _, two, conserved, well, failure, ?_, ?_, ?_, ?_, ?_⟩
  · simp [conserved.turns.responses, unheard, alone]
  all_goals exact total _ _ (by decide +kernel) (by decide +kernel)

end Chat

end ToolChat
