import ToolChat.Chat.Turn
import ToolChat.Proofs.Tool.Round

/-!
The course of a turn.

A course is the tool rounds after which a turn went on, and how it ended. The rounds reach a loop
head: a progress and a world from which the loop goes on as if it began there. Every turn that gives
an answer takes a course, and at each loop head of it the accumulators of the turn are functions of
the rounds so far.
-/

set_option autoImplicit false

namespace ToolChat

variable {σ η : Type}

/-- A tool round that was run to its end. -/
structure Round where
  sent : ModelRequest
  response : ModelResponse
  executions : List Execution

namespace Round

def results (round : Round) : List CallResult :=
  round.executions.map (·.result)

def messages (round : Round) : List Message :=
  .request round.response.text round.response.calls :: round.results.map (·.toMessage)

end Round

inductive Ending where
  /-- Its next request must not be sent. -/
  | refused (e : ChatError)
  /-- The provider does not answer. -/
  | unanswered (sent : ModelRequest) (e : ChatError)
  /-- The model answers without calls. -/
  | answered (sent : ModelRequest) (response : ModelResponse)
  /-- The model still asks for calls after all the tool rounds. -/
  | exhausted (sent : ModelRequest) (response : ModelResponse)
  /-- A tool round fails. -/
  | failed (sent : ModelRequest) (response : ModelResponse) (e : ChatError)
  /-- The results of the tool rounds are handed back as they are. -/
  | handedBack (last : Round)

namespace Ending

def sent : Ending → List ModelRequest
  | .refused _ => []
  | .unanswered sent _ | .answered sent _ | .exhausted sent _ | .failed sent _ _ => [sent]
  | .handedBack last => [last.sent]

def responses : Ending → List ModelResponse
  | .refused _ | .unanswered _ _ => []
  | .answered _ response | .exhausted _ response | .failed _ response _ => [response]
  | .handedBack last => [last.response]

def toolRounds : Ending → Nat
  | .failed _ _ _ | .handedBack _ => 1
  | _ => 0

theorem length_sent_le (ending : Ending) : ending.sent.length ≤ 1 := by
  cases ending <;> simp only [Ending.sent, List.length_nil, List.length_singleton] <;> omega

end Ending

structure Course where
  /-- The tool rounds after which the turn went on. -/
  rounds : List Round
  ending : Ending

namespace Course

def sent (course : Course) : List ModelRequest :=
  course.rounds.map (·.sent) ++ course.ending.sent

def responses (course : Course) : List ModelResponse :=
  course.rounds.map (·.response) ++ course.ending.responses

def toolRounds (course : Course) : Nat :=
  course.rounds.length + course.ending.toolRounds

end Course

def TurnProgress.after (progress : TurnProgress) (round : Round) : TurnProgress :=
  progress.asking.afterRound round.response.text round.response.calls round.executions

namespace Chat

variable (chat : Chat σ η) (request : TurnRequest)

abbrev nextRequest (progress : TurnProgress) : ModelRequest :=
  chat.modelRequest request progress.messages

inductive Asked (progress : TurnProgress) (world after : World σ η) :
    Except ChatError ModelResponse → Prop
  | refused {message : String}
      (objection : (chat.nextRequest request progress).objection? = some message)
      (unsent : after.requests = world.requests) :
      Asked progress world after (.error
        { ChatError.invalidRequest message with phase := some .awaitingModel })
  | unanswered {e : ProviderError} (valid : (chat.nextRequest request progress).objection? = none)
      (sent : after.requests = world.requests ++ [chat.nextRequest request progress])
      (answer : chat.provider after.requests = .error e) :
      Asked progress world after (.error (.ofProviderError e))
  | answered {response : ModelResponse}
      (valid : (chat.nextRequest request progress).objection? = none)
      (sent : after.requests = world.requests ++ [chat.nextRequest request progress])
      (answer : chat.provider after.requests = .ok response) :
      Asked progress world after (.ok response)

/-- A tool round that is run to its end from a loop head. -/
structure Completes (progress : TurnProgress) (world : World σ η) (round : Round)
    (after : World σ η) : Prop where
  sent : round.sent = chat.nextRequest request progress
  calls : round.response.calls ≠ []
  allowed : progress.toolRounds < chat.policy.maxToolRounds
  ran : ∃ heard, chat.ask request progress.asking world = some (.ok round.response, heard) ∧
    chat.runTools request progress.asking round.response.calls heard =
      some (.ok round.executions, after)

/-- A tool round after which the turn goes on, since not all tools so far return raw. -/
inductive Continues (progress : TurnProgress) (world : World σ η) (round : Round) :
    TurnProgress → World σ η → Prop
  | round {after : World σ η} (completes : chat.Completes request progress world round after)
      (mixed : (progress.after round).allRaw = false) :
      Continues progress world round (progress.after round) after

/-- The loop head after some rounds of a turn. -/
inductive Reaches (start : World σ η) : List Round → TurnProgress → World σ η → Prop
  | start : Reaches start [] (.initial request) start
  | round {rounds : List Round} {progress next : TurnProgress} {world after : World σ η}
      {round : Round} (head : Reaches start rounds progress world)
      (step : chat.Continues request progress world round next after) :
      Reaches start (rounds ++ [round]) next after

inductive Ends (progress : TurnProgress) (world : World σ η) :
    Ending → Except ChatError TurnResult → World σ η → Prop
  | refused {e : ChatError} {after : World σ η}
      (asked : chat.ask request progress.asking world = some (.error e, after))
      (unsent : after.requests = world.requests) :
      Ends progress world (.refused e) (.error e) after
  | unanswered {e : ChatError} {after : World σ η}
      (asked : chat.ask request progress.asking world = some (.error e, after))
      (sent : after.requests = world.requests ++ [chat.nextRequest request progress]) :
      Ends progress world (.unanswered (chat.nextRequest request progress) e) (.error e) after
  | answered {response : ModelResponse} {after : World σ η}
      (asked : chat.ask request progress.asking world = some (.ok response, after))
      (text : response.calls = []) :
      Ends progress world (.answered (chat.nextRequest request progress) response)
        (.ok (progress.asking.answered request response.text response.stopReason)) after
  | exhausted {response : ModelResponse} {after : World σ η}
      (asked : chat.ask request progress.asking world = some (.ok response, after))
      (calls : response.calls ≠ [])
      (spent : chat.policy.maxToolRounds ≤ progress.toolRounds) :
      Ends progress world (.exhausted (chat.nextRequest request progress) response)
        (.error { ChatError.maxRoundsExceeded chat.policy.maxToolRounds with
          phase := some .executingTools }) after
  | failed {response : ModelResponse} {e : ChatError} {heard after : World σ η}
      (asked : chat.ask request progress.asking world = some (.ok response, heard))
      (calls : response.calls ≠ [])
      (allowed : progress.toolRounds < chat.policy.maxToolRounds)
      (ran : chat.runTools request progress.asking response.calls heard = some (.error e, after)) :
      Ends progress world (.failed (chat.nextRequest request progress) response e) (.error e) after
  | handedBack {last : Round} {after : World σ η}
      (completes : chat.Completes request progress world last after)
      (raw : (progress.after last).allRaw = true) :
      Ends progress world (.handedBack last) (.ok ((progress.after last).handedBack request)) after

def rejection? : Option ChatError :=
  if isBlank request.input then some (.invalidRequest "user_input must not be empty")
  else chat.policy.objection?

/-- A whole turn, up to what is announced at its end. -/
inductive Takes (start : World σ η) : Course → Except ChatError TurnResult → World σ η → Prop
  | rejected {e : ChatError} (rejected : chat.rejection? request = some e) :
      Takes start ⟨[], .refused e⟩ (.error e) start
  | rounds {rounds : List Round} {ending : Ending} {progress : TurnProgress}
      {world after : World σ η} {answer : Except ChatError TurnResult}
      (accepted : chat.rejection? request = none)
      (head : chat.Reaches request start rounds progress world)
      (ends : chat.Ends request progress world ending answer after) :
      Takes start ⟨rounds, ending⟩ answer after

variable {chat request} {progress : TurnProgress} {world after : World σ η}

theorem asked_of_ask {outcome : Except ChatError ModelResponse}
    (h : chat.ask request progress.asking world = some (outcome, after)) :
    chat.Asked request progress world after outcome ∧ after.tools = world.tools := by
  obtain ⟨_, told, htold, h⟩ := bind_eq_some.1 h
  obtain ⟨_, heard, hheard, h⟩ := bind_eq_some.1 h
  have requests : heard.requests = world.requests :=
    (Run.requests_of_tell hheard).trans (Run.requests_of_tell htold)
  have tools : heard.tools = world.tools :=
    (Run.tools_of_tell hheard).trans (Run.tools_of_tell htold)
  cases hv : (chat.nextRequest request progress).objection? with
  | some message =>
    have refused : (chat.modelRequest request progress.asking.messages).validated = _ :=
      ModelRequest.validated_of_objection?_eq_some hv
    rw [refused] at h
    cases pure_eq_some.1 h
    exact ⟨.refused hv requests, tools⟩
  | none =>
    have valid : (chat.modelRequest request progress.asking.messages).validated =
        .ok (chat.nextRequest request progress) := ModelRequest.validated_of_objection?_eq_none hv
    rw [valid] at h
    obtain ⟨_, sending, ⟨⟩, h⟩ := bind_eq_some.1 h
    rw [requests] at h
    cases ha : chat.provider (world.requests ++ [chat.nextRequest request progress]) with
    | error e =>
      rw [ha] at h
      cases pure_eq_some.1 h
      exact ⟨.unanswered hv rfl ha, tools⟩
    | ok response =>
      rw [ha] at h
      obtain ⟨_, hearing, hhearing, h⟩ := bind_eq_some.1 h
      cases pure_eq_some.1 h
      have sent : after.requests = world.requests ++ [chat.nextRequest request progress] :=
        Run.requests_of_tell hhearing
      refine ⟨.answered hv sent ?_, (Run.tools_of_tell hhearing).trans tools⟩
      rw [sent]
      exact ha

theorem runTools_spec {calls : List ToolCall} {outcome : Except ChatError (List Execution)}
    (h : chat.runTools request progress calls world = some (outcome, after)) :
    after.requests = world.requests ∧
      ∃ before between result,
        chat.executor.runRound ⟨request.session.id, progress.toolRounds + 1, request.metadata⟩
          chat.policy.parallel calls before = some (result, between) ∧
        outcome = result.mapError .ofToolError := by
  obtain ⟨_, told, htold, h⟩ := bind_eq_some.1 h
  obtain ⟨result, between, hround, h⟩ := bind_eq_some.1 h
  have requests : between.requests = world.requests :=
    (Run.requests_of_ofTools hround).trans (Run.requests_of_tell htold)
  cases result with
  | error e =>
    cases pure_eq_some.1 h
    exact ⟨requests, told, _, _, hround, rfl⟩
  | ok executions =>
    obtain ⟨_, hearing, hhearing, h⟩ := bind_eq_some.1 h
    cases pure_eq_some.1 h
    exact ⟨(Run.requests_of_tell hhearing).trans requests, told, _, _, hround, rfl⟩

theorem runRounds_of_completes {round : Round}
    (h : chat.Completes request progress world round after) :
    chat.runRounds request progress world =
      if (progress.after round).allRaw then
        some (.ok ((progress.after round).handedBack request), after)
      else chat.runRounds request (progress.after round) after := by
  obtain ⟨-, calls, allowed, heard, asked, ran⟩ := h
  rw [runRounds, bind_of_eq_some asked]
  simp only [List.isEmpty_iff, calls, if_false, Nat.not_le.2 allowed, dite_false]
  rw [bind_of_eq_some ran]
  exact ite_apply _ _ _ _

theorem runRounds_of_continues {next : TurnProgress} {round : Round}
    (h : chat.Continues request progress world round next after) :
    chat.runRounds request progress world = chat.runRounds request next after := by
  obtain ⟨completes, mixed⟩ := h
  rw [runRounds_of_completes completes, mixed, if_neg Bool.false_ne_true]

theorem runRounds_of_reaches {start : World σ η} {rounds : List Round}
    (h : chat.Reaches request start rounds progress world) :
    chat.runRounds request (.initial request) start = chat.runRounds request progress world := by
  induction h with
  | start => rfl
  | round _ step ih => rw [ih, runRounds_of_continues step]

theorem runRounds_of_ends {ending : Ending} {answer : Except ChatError TurnResult}
    (h : chat.Ends request progress world ending answer after) :
    chat.runRounds request progress world = some (answer, after) := by
  cases h with
  | refused asked _ => rw [runRounds, bind_of_eq_some asked]; rfl
  | unanswered asked _ => rw [runRounds, bind_of_eq_some asked]; rfl
  | answered asked text =>
    rw [runRounds, bind_of_eq_some asked]
    simp only [text, List.isEmpty_nil, if_true]
    rfl
  | exhausted asked calls spent =>
    rw [runRounds, bind_of_eq_some asked]
    simp only [List.isEmpty_iff, calls, if_false, spent, dite_true]
    rfl
  | failed asked calls allowed ran =>
    rw [runRounds, bind_of_eq_some asked]
    simp only [List.isEmpty_iff, calls, if_false, Nat.not_le.2 allowed, dite_false]
    rw [bind_of_eq_some ran]
    rfl
  | handedBack completes raw => rw [runRounds_of_completes completes, if_pos raw]

theorem ends_or_continues {answer : Except ChatError TurnResult}
    (h : chat.runRounds request progress world = some (answer, after)) :
    (∃ ending, chat.Ends request progress world ending answer after) ∨
      ∃ round next between, chat.Continues request progress world round next between ∧
        chat.runRounds request next between = some (answer, after) := by
  rw [runRounds] at h
  obtain ⟨outcome, heard, asked, h⟩ := bind_eq_some.1 h
  cases outcome with
  | error e =>
    cases pure_eq_some.1 h
    left
    obtain ⟨ask, -⟩ := asked_of_ask asked
    cases ask with
    | refused _ unsent => exact ⟨_, .refused asked unsent⟩
    | unanswered _ sent _ => exact ⟨_, .unanswered asked sent⟩
  | ok response =>
    simp only at h
    split at h
    · next text =>
      cases pure_eq_some.1 h
      exact .inl ⟨_, .answered asked (List.isEmpty_iff.1 text)⟩
    · next calls =>
      rw [List.isEmpty_iff] at calls
      split at h
      · next spent =>
        cases pure_eq_some.1 h
        exact .inl ⟨_, .exhausted asked calls spent⟩
      · next allowed =>
        rw [Nat.not_le] at allowed
        obtain ⟨outcome, between, ran, h⟩ := bind_eq_some.1 h
        cases outcome with
        | error e =>
          cases pure_eq_some.1 h
          exact .inl ⟨_, .failed asked calls allowed ran⟩
        | ok executions =>
          let round : Round := ⟨chat.nextRequest request progress, response, executions⟩
          have completes : chat.Completes request progress world round between :=
            ⟨rfl, calls, allowed, heard, asked, ran⟩
          simp only at h
          split at h
          · next raw =>
            cases pure_eq_some.1 h
            exact .inl ⟨_, .handedBack completes raw⟩
          · next mixed =>
            rw [Bool.not_eq_true] at mixed
            exact .inr ⟨_, _, _, .round completes mixed, h⟩

theorem exists_ends_of_runRounds {start : World σ η} {rounds : List Round}
    {answer : Except ChatError TurnResult}
    (head : chat.Reaches request start rounds progress world)
    (h : chat.runRounds request progress world = some (answer, after)) :
    ∃ rounds ending progress world, chat.Reaches request start rounds progress world ∧
      chat.Ends request progress world ending answer after := by
  -- On the tool rounds that are left, for all loop heads at once: the course grows as they shrink.
  induction hn : chat.policy.maxToolRounds - progress.toolRounds using Nat.strongRecOn
    generalizing rounds progress world with
  | ind n ih =>
    rcases ends_or_continues h with ⟨ending, ends⟩ | ⟨round, next, between, step, h⟩
    · exact ⟨rounds, ending, progress, world, head, ends⟩
    · have fewer : chat.policy.maxToolRounds - next.toolRounds < n := by
        obtain ⟨⟨-, -, allowed, -⟩, -⟩ := step
        simp only [TurnProgress.after, TurnProgress.afterRound, TurnProgress.asking]
        omega
      exact ih _ fewer (head.round step) h rfl

theorem drive_of_rejected {e : ChatError} (h : chat.rejection? request = some e) :
    chat.drive request = pure (.error e) := by
  unfold rejection? at h
  unfold drive
  split at h
  · next blank =>
    cases h
    rw [if_pos blank]
  · next spoken => rw [if_neg spoken, h]

theorem drive_of_accepted (h : chat.rejection? request = none) :
    chat.drive request = chat.runRounds request (.initial request) := by
  unfold rejection? at h
  unfold drive
  split at h
  · cases h
  · next spoken => rw [if_neg spoken, h]

theorem kind_of_rejected {e : ChatError} (h : chat.rejection? request = some e) :
    e.kind = .invalidRequest := by
  unfold rejection? ChatPolicy.objection? at h
  split at h
  · cases h
    rfl
  · split at h
    · cases h
      rfl
    · cases h

/-- A turn gives an answer exactly if it takes a course to it. -/
theorem drive_eq_some_iff {start : World σ η} {answer : Except ChatError TurnResult} :
    chat.drive request start = some (answer, after) ↔
      ∃ course, chat.Takes request start course answer after := by
  constructor
  · intro h
    cases hr : chat.rejection? request with
    | some e =>
      rw [drive_of_rejected hr] at h
      cases pure_eq_some.1 h
      exact ⟨_, .rejected hr⟩
    | none =>
      rw [drive_of_accepted hr] at h
      obtain ⟨rounds, ending, progress, world, head, ends⟩ := exists_ends_of_runRounds .start h
      exact ⟨_, .rounds hr head ends⟩
  · rintro ⟨course, takes⟩
    cases takes with
    | rejected rejected => rw [drive_of_rejected rejected]; rfl
    | rounds accepted head ends =>
      rw [drive_of_accepted accepted, runRounds_of_reaches head, runRounds_of_ends ends]

theorem exists_takes_of_runTurn {start : World σ η} {answer : Except ChatError TurnResult}
    (h : chat.runTurn request start = some (answer, after)) :
    ∃ course last, chat.Takes request start course answer last ∧
      after.requests = last.requests ∧ after.tools = last.tools := by
  obtain ⟨outcome, last, hdrive, h⟩ := bind_eq_some.1 h
  obtain ⟨course, takes⟩ := drive_eq_some_iff.1 hdrive
  cases outcome with
  | ok result =>
    obtain ⟨_, told, htold, h⟩ := bind_eq_some.1 h
    obtain ⟨_, heard, hheard, h⟩ := bind_eq_some.1 h
    cases pure_eq_some.1 h
    exact ⟨course, last, takes,
      (Run.requests_of_tell hheard).trans (Run.requests_of_tell htold),
      (Run.tools_of_tell hheard).trans (Run.tools_of_tell htold)⟩
  | error e =>
    obtain ⟨_, told, htold, h⟩ := bind_eq_some.1 h
    cases pure_eq_some.1 h
    exact ⟨course, last, takes, Run.requests_of_tell htold, Run.tools_of_tell htold⟩

section Answers

variable (calm : chat.observer.Calm) (answers : chat.executor.invoker.Answers)
include calm

private theorem meets_told {α : Type} {event : ChatEvent} {run : Run σ η α}
    (h : Meets False run fun _ => True) :
    Meets False (Run.tell chat.observer event >>= fun _ => run) fun _ => True :=
  (Run.meets_tell (fun _ => calm) event).bind fun _ _ => h

theorem meets_ask (progress : TurnProgress) :
    Meets False (chat.ask request progress) fun _ => True := by
  refine meets_told calm (meets_told calm ?_)
  split
  · exact meets_pure trivial
  · next valid _ =>
    refine (Run.meets_send valid).bind fun requests _ => ?_
    split
    · exact meets_pure trivial
    · exact meets_told calm (meets_pure trivial)

include answers

theorem meets_runTools (progress : TurnProgress) (calls : List ToolCall) :
    Meets False (chat.runTools request progress calls) fun _ => True := by
  refine meets_told calm ((Executor.meets_runRound answers _ _ _).bind fun outcome _ => ?_)
  split
  · exact meets_pure trivial
  · exact meets_told calm (meets_pure trivial)

theorem meets_runRounds (progress : TurnProgress) :
    Meets False (chat.runRounds request progress) fun _ => True := by
  induction hn : chat.policy.maxToolRounds - progress.toolRounds using Nat.strongRecOn
    generalizing progress with
  | ind n ih =>
    rw [runRounds]
    refine (meets_ask calm progress.asking).bind fun outcome _ => ?_
    split
    · exact meets_pure trivial
    · next response =>
      split
      · exact meets_pure trivial
      · split
        · exact meets_pure trivial
        · next allowed =>
          refine (meets_runTools calm answers progress.asking response.calls).bind
            fun outcome _ => ?_
          split
          · exact meets_pure trivial
          · next executions =>
            simp only
            split
            · exact meets_pure trivial
            · refine ih _ ?_ _ rfl
              simp only [TurnProgress.afterRound, TurnProgress.asking]
              omega

/-- A turn has an answer whenever neither its observer nor the calls of its tools panic. -/
theorem exists_runTurn (start : World σ η) : ∃ r, chat.runTurn request start = some r := by
  have drive : Meets False (chat.drive request) fun _ => True := by
    unfold drive
    split
    · exact meets_pure trivial
    · split
      · exact meets_pure trivial
      · exact meets_runRounds calm answers _
  have turn : Meets False (chat.runTurn request) fun _ => True := by
    refine drive.bind fun outcome _ => ?_
    split
    · exact meets_told calm (meets_told calm (meets_pure trivial))
    · exact meets_told calm (meets_pure trivial)
  exact turn.exists_eq_some start

end Answers

end Chat

end ToolChat
