import ToolChat.Proofs.Chat.Course

/-!
The rounds of a turn.

At each loop head of a turn the accumulators are functions of the rounds so far, and there are no
more of them than the policy allows. So a turn sends at most one request more than it may run tool
rounds, and it is cut off exactly when all of those requests were answered with calls.
-/

set_option autoImplicit false

namespace ToolChat

variable {σ η : Type}

def TurnRequest.opening (request : TurnRequest) : List Message :=
  (request.session.systemPrompt.map fun prompt => { role := .system, content := prompt }).toList ++
    [{ role := .user, content := request.input }]

/-- Each answer is what the provider gives to the requests up to its own. -/
def Provider.Answered (provider : Provider) (before sent : List ModelRequest)
    (responses : List ModelResponse) : Prop :=
  ∀ k response, responses[k]? = some response →
    provider (before ++ sent.take (k + 1)) = .ok response

theorem getElem?_concat_eq_some {α : Type} {items : List α} {last item : α} {k : Nat}
    (h : (items ++ [last])[k]? = some item) :
    k < items.length ∧ items[k]? = some item ∨ k = items.length ∧ item = last := by
  rcases Nat.lt_or_ge k items.length with lt | ge
  · rw [List.getElem?_append_left lt] at h
    exact .inl ⟨lt, h⟩
  · have same : k = items.length := by
      have bound := (List.getElem?_eq_some_iff.1 h).1
      rw [List.length_append, List.length_singleton] at bound
      omega
    rw [same, List.getElem?_concat_length, Option.some.injEq] at h
    exact .inr ⟨same, h.symm⟩

namespace Provider.Answered

variable {provider : Provider} {before sent : List ModelRequest} {responses : List ModelResponse}

theorem send (h : provider.Answered before sent responses)
    (short : responses.length ≤ sent.length) (more : List ModelRequest) :
    provider.Answered before (sent ++ more) responses := by
  intro k response hk
  have bound : k < responses.length := (List.getElem?_eq_some_iff.1 hk).1
  rw [List.take_append_of_le_length (by omega)]
  exact h k response hk

theorem answer (h : provider.Answered before sent responses)
    (same : responses.length = sent.length) {request : ModelRequest} {response : ModelResponse}
    (ok : provider (before ++ sent ++ [request]) = .ok response) :
    provider.Answered before (sent ++ [request]) (responses ++ [response]) := by
  intro k r hk
  rcases getElem?_concat_eq_some hk with ⟨-, hk⟩ | ⟨rfl, rfl⟩
  · exact h.send (Nat.le_of_eq same) [request] k r hk
  · have all : (sent ++ [request]).take (responses.length + 1) = sent ++ [request] := by
      apply List.take_of_length_le
      rw [List.length_append, List.length_singleton]
      omega
    rw [all, ← List.append_assoc, ok]

end Provider.Answered

namespace Chat

variable {chat : Chat σ η} {request : TurnRequest} {start : World σ η} {rounds : List Round}
  {progress : TurnProgress} {world : World σ η}

variable (chat request start rounds progress world) in
/-- What holds at the loop head after some rounds. -/
structure AtHead : Prop where
  messages : progress.messages = request.opening ++ rounds.flatMap Round.messages
  executions : progress.executions = rounds.flatMap Round.results
  modelRounds : progress.modelRounds = rounds.length
  toolRounds : progress.toolRounds = rounds.length
  within : rounds.length ≤ chat.policy.maxToolRounds
  allRaw : progress.allRaw = true ↔ rounds = []
  requests : world.requests = start.requests ++ rounds.map (·.sent)
  answered : chat.provider.Answered start.requests (rounds.map (·.sent)) (rounds.map (·.response))
  calls : ∀ round ∈ rounds, round.response.calls ≠ []

theorem atHead_start : chat.AtHead request start [] (.initial request) start where
  messages := by
    simp only [TurnProgress.initial, TurnRequest.opening, List.flatMap_nil, List.append_nil]
    cases request.session.systemPrompt <;> rfl
  executions := rfl
  modelRounds := rfl
  toolRounds := rfl
  within := Nat.zero_le _
  allRaw := iff_of_true rfl rfl
  requests := by rw [List.map_nil, List.append_nil]
  answered := nofun
  calls := nofun

theorem AtHead.answered_of_ask (head : chat.AtHead request start rounds progress world)
    {response : ModelResponse} {heard : World σ η}
    (asked : chat.ask request progress.asking world = some (.ok response, heard)) :
    heard.requests = start.requests ++
        (rounds.map (·.sent) ++ [chat.nextRequest request progress]) ∧
      chat.provider.Answered start.requests
        (rounds.map (·.sent) ++ [chat.nextRequest request progress])
        (rounds.map (·.response) ++ [response]) := by
  obtain ⟨⟨⟩ | ⟨⟩ | ⟨_, sent, answer⟩, -⟩ := asked_of_ask asked
  rw [head.requests, List.append_assoc] at sent
  refine ⟨sent, head.answered.answer ?_ ?_⟩
  · rw [List.length_map, List.length_map]
  · rw [List.append_assoc, ← sent]
    exact answer

theorem AtHead.messages_after (head : chat.AtHead request start rounds progress world)
    (round : Round) :
    (progress.after round).messages =
      request.opening ++ rounds.flatMap Round.messages ++ round.messages := by
  rw [← head.messages]
  rfl

theorem AtHead.executions_after (head : chat.AtHead request start rounds progress world)
    (round : Round) :
    (progress.after round).executions = rounds.flatMap Round.results ++ round.results := by
  rw [← head.executions]
  rfl

theorem AtHead.answered_of_completes (head : chat.AtHead request start rounds progress world)
    {round : Round} {after : World σ η}
    (completes : chat.Completes request progress world round after) :
    after.requests = start.requests ++ (rounds.map (·.sent) ++ [round.sent]) ∧
      chat.provider.Answered start.requests (rounds.map (·.sent) ++ [round.sent])
        (rounds.map (·.response) ++ [round.response]) := by
  obtain ⟨heard, asked, ran⟩ := completes.ran
  obtain ⟨requests, answered⟩ := head.answered_of_ask asked
  rw [completes.sent]
  exact ⟨(runTools_spec ran).1.trans requests, answered⟩

theorem AtHead.round (head : chat.AtHead request start rounds progress world) {round : Round}
    {next : TurnProgress} {after : World σ η}
    (step : chat.Continues request progress world round next after) :
    chat.AtHead request start (rounds ++ [round]) next after := by
  obtain ⟨completes, mixed⟩ := step
  obtain ⟨requests, answered⟩ := head.answered_of_completes completes
  have messages := head.messages_after round
  have executions := head.executions_after round
  have count : (rounds ++ [round]).length = rounds.length + 1 := by
    rw [List.length_append, List.length_singleton]
  constructor
  case messages => rw [messages, List.flatMap_append, List.flatMap_singleton, List.append_assoc]
  case executions => rw [executions, List.flatMap_append, List.flatMap_singleton]
  case modelRounds =>
    rw [count, ← head.modelRounds]
    rfl
  case toolRounds =>
    rw [count, ← head.toolRounds]
    rfl
  case within =>
    rw [count, ← head.toolRounds]
    exact completes.allowed
  case allRaw =>
    rw [mixed]
    exact iff_of_false Bool.false_ne_true (List.concat_ne_nil _ _)
  case requests => rw [requests, List.map_append, List.map_singleton]
  case answered => simpa only [List.map_append, List.map_singleton] using answered
  case calls =>
    intro r hr
    rcases List.mem_append.1 hr with hr | hr
    · exact head.calls r hr
    · rw [List.mem_singleton.1 hr]
      exact completes.calls

theorem Reaches.atHead (h : chat.Reaches request start rounds progress world) :
    chat.AtHead request start rounds progress world := by
  induction h with
  | start => exact atHead_start
  | round _ step ih => exact ih.round step

section Ends

variable {ending : Ending} {answer : Except ChatError TurnResult} {last : World σ η}

theorem AtHead.requests_of_ends (head : chat.AtHead request start rounds progress world)
    (ends : chat.Ends request progress world ending answer last) :
    last.requests = start.requests ++ (rounds.map (·.sent) ++ ending.sent) := by
  cases ends with
  | refused _ unsent => rw [unsent, head.requests, Ending.sent, List.append_nil]
  | unanswered _ sent => rw [sent, head.requests, List.append_assoc, Ending.sent]
  | answered asked _ => exact (head.answered_of_ask asked).1
  | exhausted asked _ _ => exact (head.answered_of_ask asked).1
  | failed asked _ _ ran => exact (runTools_spec ran).1.trans (head.answered_of_ask asked).1
  | handedBack completes _ => exact (head.answered_of_completes completes).1

theorem AtHead.answered_of_ends (head : chat.AtHead request start rounds progress world)
    (ends : chat.Ends request progress world ending answer last) :
    chat.provider.Answered start.requests (rounds.map (·.sent) ++ ending.sent)
      (rounds.map (·.response) ++ ending.responses) := by
  have short : (rounds.map (·.response)).length ≤ (rounds.map (·.sent)).length := by
    simp only [List.length_map, Nat.le_refl]
  cases ends with
  | refused _ _ =>
    rw [Ending.responses, List.append_nil]
    exact head.answered.send short _
  | unanswered _ _ =>
    rw [Ending.responses, List.append_nil]
    exact head.answered.send short _
  | answered asked _ => exact (head.answered_of_ask asked).2
  | exhausted asked _ _ => exact (head.answered_of_ask asked).2
  | failed asked _ _ _ => exact (head.answered_of_ask asked).2
  | handedBack completes _ => exact (head.answered_of_completes completes).2

theorem AtHead.toolRounds_le_of_ends (head : chat.AtHead request start rounds progress world)
    (ends : chat.Ends request progress world ending answer last) :
    rounds.length + ending.toolRounds ≤ chat.policy.maxToolRounds := by
  have within := head.within
  have toolRounds := head.toolRounds
  cases ends with
  | failed _ _ allowed _ =>
    simp only [Ending.toolRounds]
    omega
  | handedBack completes _ =>
    have allowed := completes.allowed
    simp only [Ending.toolRounds]
    omega
  | _ => exact within

theorem AtHead.modelRounds_of_ends (head : chat.AtHead request start rounds progress world)
    {result : TurnResult} (ends : chat.Ends request progress world ending (.ok result) last) :
    result.modelRounds = rounds.length + ending.sent.length := by
  cases ends with
  | answered _ _ =>
    simp only [TurnProgress.answered, TurnProgress.asking, head.modelRounds, Ending.sent,
      List.length_singleton]
  | handedBack _ _ =>
    simp only [TurnProgress.handedBack, TurnProgress.after, TurnProgress.afterRound,
      TurnProgress.asking, head.modelRounds, Ending.sent, List.length_singleton]

end Ends

/-- The turn is cut off after all the tool rounds that it may run. -/
def ExceedsRounds (answer : Except ChatError TurnResult) : Prop :=
  ∃ e, answer = .error e ∧ e.kind = .maxRoundsExceeded

instance : DecidablePred ExceedsRounds
  | .ok _ => .isFalse fun ⟨_, h, _⟩ => nomatch h
  | .error e => decidable_of_iff (e.kind = .maxRoundsExceeded)
    ⟨fun h => ⟨e, rfl, h⟩, fun ⟨_, h, kind⟩ => Except.error.inj h ▸ kind⟩

theorem not_exceedsRounds_of_ask {e : ChatError} {heard : World σ η}
    (asked : chat.ask request progress.asking world = some (.error e, heard)) :
    ¬ExceedsRounds (.error e) := by
  rintro ⟨_, ⟨⟩, kind⟩
  obtain ⟨⟨⟩ | ⟨⟩ | ⟨⟩, -⟩ := asked_of_ask asked <;> cases kind

theorem not_exceedsRounds_of_runTools {e : ChatError} {calls : List ToolCall}
    {after : World σ η}
    (ran : chat.runTools request progress calls world = some (.error e, after)) :
    ¬ExceedsRounds (.error e) := by
  rintro ⟨_, ⟨⟩, kind⟩
  obtain ⟨-, _, _, outcome, -, failed⟩ := runTools_spec ran
  cases outcome with
  | error cause =>
    cases failed
    cases kind
  | ok executions => cases failed

/-- A turn is cut off exactly if its last answer still has calls and no tool round is left. -/
theorem AtHead.exceedsRounds_iff (head : chat.AtHead request start rounds progress world)
    {ending : Ending} {answer : Except ChatError TurnResult} {last : World σ η}
    (ends : chat.Ends request progress world ending answer last) :
    ExceedsRounds answer ↔
      (rounds.map (·.response) ++ ending.responses).length = chat.policy.maxToolRounds + 1 ∧
        ∀ response ∈ rounds.map (·.response) ++ ending.responses, response.calls ≠ [] := by
  have within := head.within
  have toolRounds := head.toolRounds
  rw [List.length_append, List.length_map]
  -- All ends but two come with too few answers; of these two, one has an answer without calls.
  cases ends with
  | refused asked _ =>
    refine iff_of_false (not_exceedsRounds_of_ask asked) fun h => ?_
    have count := h.1
    simp only [Ending.responses, List.length_nil] at count
    omega
  | unanswered asked _ =>
    refine iff_of_false (not_exceedsRounds_of_ask asked) fun h => ?_
    have count := h.1
    simp only [Ending.responses, List.length_nil] at count
    omega
  | @answered response _ asked text =>
    refine iff_of_false (by rintro ⟨_, ⟨⟩, _⟩) fun h => ?_
    exact h.2 response (List.mem_append_right _ (List.mem_singleton_self _)) text
  | exhausted asked calls spent =>
    refine iff_of_true ⟨_, rfl, rfl⟩ ⟨?_, ?_⟩
    · simp only [Ending.responses, List.length_singleton]
      omega
    · intro r hr
      rcases List.mem_append.1 hr with hr | hr
      · obtain ⟨round, hround, rfl⟩ := List.mem_map.1 hr
        exact head.calls round hround
      · rw [List.mem_singleton.1 hr]
        exact calls
  | failed asked calls allowed ran =>
    refine iff_of_false (not_exceedsRounds_of_runTools ran) fun h => ?_
    have count := h.1
    simp only [Ending.responses, List.length_singleton] at count
    omega
  | handedBack completes raw =>
    refine iff_of_false (by rintro ⟨_, ⟨⟩, _⟩) fun h => ?_
    have count := h.1
    have allowed := completes.allowed
    simp only [Ending.responses, List.length_singleton] at count
    omega

theorem AtHead.spent_of_exceedsRounds (head : chat.AtHead request start rounds progress world)
    {ending : Ending} {answer : Except ChatError TurnResult} {last : World σ η}
    (ends : chat.Ends request progress world ending answer last) (exceeds : ExceedsRounds answer) :
    rounds.length = chat.policy.maxToolRounds ∧ ending.toolRounds = 0 ∧
      last.tools = world.tools := by
  have within := head.within
  have toolRounds := head.toolRounds
  cases ends with
  | refused asked _ => exact absurd exceeds (not_exceedsRounds_of_ask asked)
  | unanswered asked _ => exact absurd exceeds (not_exceedsRounds_of_ask asked)
  | exhausted asked _ spent => exact ⟨by omega, rfl, (asked_of_ask asked).2⟩
  | failed _ _ _ ran => exact absurd exceeds (not_exceedsRounds_of_runTools ran)
  | answered _ _ => obtain ⟨_, ⟨⟩, _⟩ := exceeds
  | handedBack _ _ => obtain ⟨_, ⟨⟩, _⟩ := exceeds

/-- A turn whose observer and tools do not panic ends, and every turn that ends has kept within its
policy. It is cut off exactly if it got one answer more than it may run tool rounds and all of them
had calls; then it has run all its tool rounds, and no call of the last answer. -/
theorem runTurn_within_policy (chat : Chat σ η) (request : TurnRequest) (start : World σ η) :
    (chat.observer.Calm → chat.executor.invoker.Answers →
      ∃ answer after, chat.runTurn request start = some (answer, after)) ∧
    ∀ answer after, chat.runTurn request start = some (answer, after) →
      ∃ course last, chat.Takes request start course answer last ∧
        after.requests = start.requests ++ course.sent ∧ after.tools = last.tools ∧
        chat.provider.Answered start.requests course.sent course.responses ∧
        course.sent.length ≤ chat.policy.maxToolRounds + 1 ∧
        course.toolRounds ≤ chat.policy.maxToolRounds ∧
        (ExceedsRounds answer ↔
          course.responses.length = chat.policy.maxToolRounds + 1 ∧
            ∀ response ∈ course.responses, response.calls ≠ []) ∧
        (ExceedsRounds answer →
          course.toolRounds = chat.policy.maxToolRounds ∧
            ∃ progress world, chat.Reaches request start course.rounds progress world ∧
              course.rounds.length = chat.policy.maxToolRounds ∧ after.tools = world.tools) ∧
        ∀ result, answer = .ok result → result.modelRounds = course.sent.length := by
  refine ⟨fun calm answers => ?_, fun answer after run => ?_⟩
  · obtain ⟨⟨answer, after⟩, run⟩ := exists_runTurn calm answers start
    exact ⟨answer, after, run⟩
  obtain ⟨course, last, takes, requests, tools⟩ := exists_takes_of_runTurn run
  refine ⟨course, last, takes, ?_⟩
  cases takes with
  | @rejected e rejected =>
    have mild : ¬ExceedsRounds (.error e) := by
      rintro ⟨_, ⟨⟩, kind⟩
      rw [kind_of_rejected rejected] at kind
      cases kind
    refine ⟨by rw [requests]; exact (List.append_nil _).symm, tools, nofun, Nat.zero_le _,
      Nat.zero_le _, iff_of_false mild fun h => ?_, fun h => absurd h mild, nofun⟩
    exact absurd h.1 (Nat.succ_ne_zero _).symm
  | @rounds rounds ending progress world _ _ accepted reaches ends =>
    have head := reaches.atHead
    have short : (rounds.map (·.sent) ++ ending.sent).length ≤
        chat.policy.maxToolRounds + 1 := by
      have within := head.within
      have one := ending.length_sent_le
      rw [List.length_append, List.length_map]
      omega
    refine ⟨requests.trans (head.requests_of_ends ends), tools, head.answered_of_ends ends, short,
      head.toolRounds_le_of_ends ends, head.exceedsRounds_iff ends, fun exceeds => ?_, ?_⟩
    · obtain ⟨all, none, same⟩ := head.spent_of_exceedsRounds ends exceeds
      refine ⟨?_, progress, world, reaches, all, tools.trans same⟩
      simp only [Course.toolRounds, all, none, Nat.add_zero]
    · rintro result rfl
      rw [head.modelRounds_of_ends ends]
      simp only [Course.sent, List.length_append, List.length_map]

/-- A chat of two tool rounds whose model never stops asking for tools that do not exist. -/
def insistent : Chat Unit Unit where
  provider := fun _ => .ok (.ofCalls "m" [⟨"a", "missing", ""⟩, ⟨"a", "", "[]"⟩])
  executor := ⟨.empty, .observed .silent fun _ => .zero⟩
  policy := { maxToolRounds := 2 }

theorem insistent_within_policy :
    ∃ answer after, insistent.runTurn ⟨⟨"s", "m", none⟩, "hi", {}, []⟩ ⟨(), (), []⟩ =
        some (answer, after) ∧
      ExceedsRounds answer ∧ after.requests.length = 3 ∧
        ∃ course last, insistent.Takes ⟨⟨"s", "m", none⟩, "hi", {}, []⟩ ⟨(), (), []⟩ course answer
          last ∧ course.responses.length = 3 ∧ course.toolRounds = 2 := by
  obtain ⟨returns, within⟩ :=
    runTurn_within_policy insistent ⟨⟨"s", "m", none⟩, "hi", {}, []⟩ ⟨(), (), []⟩
  obtain ⟨answer, after, run⟩ := returns Observer.calm_silent
    (Invoker.answers_observed Observer.calm_silent _)
  have outcome : (insistent.runTurn ⟨⟨"s", "m", none⟩, "hi", {}, []⟩ ⟨(), (), []⟩).map
      (fun r => (decide (ExceedsRounds r.1), r.2.requests.length)) = some (true, 3) := by decide +kernel
  rw [run, Option.map_some, Option.some.injEq, Prod.mk.injEq, decide_eq_true_eq] at outcome
  obtain ⟨exceeds, three⟩ := outcome
  obtain ⟨course, last, takes, -, -, -, -, -, cut, spent, -⟩ := within answer after run
  exact ⟨answer, after, run, exceeds, three, course, last, takes, (cut.1 exceeds).1,
    (spent exceeds).1⟩

end Chat

end ToolChat
