import ToolChat.Proofs.Chat.Rounds

/-!
The transcript of a turn.

The history of a turn begins with its opening and grows by one block for each tool round: the
message that asks for the calls, and the answers to them in order. Every request carries the history
so far, and a result ends it. So in every history each request for calls is followed by exactly the
answers to its calls.
-/

set_option autoImplicit false

namespace ToolChat

variable {σ η : Type}

namespace Round

def texts (round : Round) : List String :=
  round.executions.map (·.result.text)

def outcomes (round : Round) : List CallResult :=
  List.zipWith CallResult.mk round.response.calls round.texts

/-- The messages of a round: the one that asks for its calls, and the answer to each of them. -/
def transcript (round : Round) : List Message :=
  .request round.response.text round.response.calls ::
    List.zipWith (fun call text => .answer call.id text) round.response.calls round.texts

/-- Each execution of a round is of the call at its place. -/
def Kept (round : Round) : Prop :=
  List.Forall₂ (fun call execution => execution.result.call = call) round.response.calls
    round.executions

variable {round : Round}

theorem length_texts (kept : round.Kept) : round.texts.length = round.response.calls.length := by
  rw [texts, List.length_map]
  exact kept.length_eq.symm

theorem results_eq_outcomes (kept : round.Kept) : round.results = round.outcomes := by
  unfold Kept at kept
  unfold results outcomes texts
  generalize round.response.calls = calls at kept
  generalize round.executions = executions at kept
  induction kept with
  | nil => rfl
  | cons same _ ih => rw [List.map_cons, List.map_cons, List.zipWith_cons_cons, ih, ← same]

theorem toMessage_outcomes (round : Round) : round.outcomes.map (·.toMessage) =
    List.zipWith (fun call text => .answer call.id text) round.response.calls round.texts := by
  rw [outcomes, List.map_zipWith]
  rfl

theorem messages_eq_transcript (kept : round.Kept) : round.messages = round.transcript := by
  rw [messages, results_eq_outcomes kept, toMessage_outcomes, transcript]

theorem answers_outcomes (kept : round.Kept) :
    (round.outcomes.map (·.toMessage)).map (·.answers) =
      round.response.calls.map fun call => some call.id := by
  have same := length_texts kept
  unfold outcomes
  generalize round.response.calls = calls at same
  generalize round.texts = texts at same
  induction calls generalizing texts with
  | nil => rfl
  | cons call calls ih =>
    cases texts with
    | nil => cases same
    | cons text texts =>
      rw [List.zipWith_cons_cons, List.map_cons, List.map_cons, List.map_cons,
        ih texts (Nat.succ.inj same)]
      rfl

end Round

/-- After each message of the assistant stand the answers to its calls, in order, and no others. -/
def Paired (messages : List Message) : Prop :=
  ∀ before message rest, messages = before ++ message :: rest → message.role = .assistant →
    (rest.takeWhile (·.role = .tool)).map (·.answers) = message.calls.map fun call => some call.id

namespace Paired

theorem nil : Paired [] := by
  intro before message rest h
  cases before <;> cases h

theorem cons {message : Message} {rest : List Message} (h : Paired rest)
    (answers : message.role = .assistant → (rest.takeWhile (·.role = .tool)).map (·.answers) =
      message.calls.map fun call => some call.id) : Paired (message :: rest) := by
  intro before m tail same
  cases before with
  | nil =>
    cases same
    exact answers
  | cons first before =>
    cases same
    exact h before m tail rfl

theorem answers {results : List CallResult} {rest : List Message} (h : Paired rest) :
    Paired (results.map (·.toMessage) ++ rest) := by
  induction results with
  | nil => exact h
  | cons result results ih => exact ih.cons nofun

theorem round {round : Round} {rest : List Message} (kept : round.Kept) (h : Paired rest)
    (boundary : ∀ message, rest.head? = some message → message.role ≠ .tool) :
    Paired (round.messages ++ rest) := by
  rw [Round.messages, List.cons_append]
  refine h.answers.cons fun _ => ?_
  have tools : ∀ message ∈ round.results.map (·.toMessage),
      decide (message.role = Role.tool) = true := by
    intro message hm
    obtain ⟨result, -, rfl⟩ := List.mem_map.1 hm
    rfl
  have stop : rest.takeWhile (·.role = .tool) = [] := by
    cases rest with
    | nil => rfl
    | cons message rest =>
      rw [List.takeWhile_cons_of_neg]
      rw [decide_eq_true_eq]
      exact boundary message rfl
  rw [List.takeWhile_append_of_pos tools, stop, List.append_nil, Round.results_eq_outcomes kept]
  exact Round.answers_outcomes kept

theorem rounds {rounds : List Round} {rest : List Message} (kept : ∀ round ∈ rounds, round.Kept)
    (h : Paired rest) (boundary : ∀ message, rest.head? = some message → message.role ≠ .tool) :
    Paired (rounds.flatMap Round.messages ++ rest) := by
  induction rounds with
  | nil => exact h
  | cons first rounds ih =>
    rw [List.flatMap_cons, List.append_assoc]
    refine (ih fun round hr => kept round (List.mem_cons_of_mem _ hr)).round
      (kept first List.mem_cons_self) ?_
    cases rounds with
    | nil => exact boundary
    | cons second rounds =>
      rintro message ⟨⟩
      exact nofun

theorem text (content : String) : Paired [{ role := .assistant, content }] :=
  nil.cons fun _ => rfl

theorem opening (request : TurnRequest) {rest : List Message} (h : Paired rest) :
    Paired (request.opening ++ rest) := by
  have spoken : Paired ({ role := .user, content := request.input } :: rest) := h.cons nofun
  unfold TurnRequest.opening
  cases request.session.systemPrompt with
  | none => exact spoken
  | some prompt => exact spoken.cons nofun

end Paired

namespace Ending

def completed : Ending → List Round
  | .handedBack last => [last]
  | _ => []

def words : Ending → List Message
  | .answered _ response => [{ role := .assistant, content := response.text }]
  | _ => []

def closing (ending : Ending) : List Message :=
  ending.completed.flatMap Round.transcript ++ ending.words

end Ending

def Course.completed (course : Course) : List Round :=
  course.rounds ++ course.ending.completed

namespace Chat

variable {chat : Chat σ η} {request : TurnRequest} {start : World σ η} {rounds : List Round}
  {progress : TurnProgress} {world : World σ η}

theorem kept_of_completes (keeps : chat.executor.invoker.KeepsCalls) {round : Round}
    {after : World σ η} (h : chat.Completes request progress world round after) : round.Kept := by
  obtain ⟨heard, -, ran⟩ := h.ran
  obtain ⟨-, before, between, result, executed, outcome⟩ := runTools_spec ran
  have executes := (Executor.meets_runRound keeps _ _ _ before).2 result between executed
  cases result with
  | error e => cases outcome
  | ok executions =>
    cases outcome
    exact (executes _ rfl).imp fun _ _ h => h.1

theorem Reaches.completes (h : chat.Reaches request start rounds progress world) :
    ∀ round ∈ rounds, ∃ progress world after,
      chat.Completes request progress world round after := by
  induction h with
  | start => exact nofun
  | round _ step ih =>
    obtain ⟨completes, -⟩ := step
    intro r hr
    rcases List.mem_append.1 hr with hr | hr
    · exact ih r hr
    · rw [List.mem_singleton.1 hr]
      exact ⟨_, _, _, completes⟩

variable (chat request) in
/-- The request that a turn sends after some rounds. -/
def requestAfter (rounds : List Round) : ModelRequest :=
  chat.modelRequest request (request.opening ++ rounds.flatMap Round.messages)

theorem AtHead.nextRequest_eq (head : chat.AtHead request start rounds progress world) :
    chat.nextRequest request progress = chat.requestAfter request rounds := by
  rw [nextRequest, head.messages, requestAfter]

/-- The requests of the rounds before a loop head carry the rounds before them. -/
theorem Reaches.sent (h : chat.Reaches request start rounds progress world) (k : Nat)
    (round : Round) (hk : rounds[k]? = some round) :
    round.sent = chat.requestAfter request (rounds.take k) := by
  induction h with
  | start => cases hk
  | @round rounds progress next world after last reaches step ih =>
    obtain ⟨completes, -⟩ := step
    rcases getElem?_concat_eq_some hk with ⟨lt, hk⟩ | ⟨rfl, rfl⟩
    · rw [List.take_append_of_le_length (Nat.le_of_lt lt)]
      exact ih hk
    · rw [List.take_left' rfl, completes.sent, reaches.atHead.nextRequest_eq]

theorem AtHead.sent_of_ends (head : chat.AtHead request start rounds progress world)
    {ending : Ending} {answer : Except ChatError TurnResult} {last : World σ η}
    (ends : chat.Ends request progress world ending answer last) :
    ending.sent = [] ∨ ending.sent = [chat.requestAfter request rounds] := by
  rw [← head.nextRequest_eq]
  cases ends with
  | refused _ _ => exact .inl rfl
  | handedBack completes _ => exact .inr (congrArg (fun sent => [sent]) completes.sent)
  | _ => exact .inr rfl

theorem sent_eq {ending : Ending} {answer : Except ChatError TurnResult} {last : World σ η}
    (reaches : chat.Reaches request start rounds progress world)
    (ends : chat.Ends request progress world ending answer last) (k : Nat) (sent : ModelRequest)
    (hk : (rounds.map (·.sent) ++ ending.sent)[k]? = some sent) :
    k ≤ rounds.length ∧ sent = chat.requestAfter request (rounds.take k) := by
  rcases Nat.lt_or_ge k rounds.length with lt | ge
  · rw [List.getElem?_append_left (by rwa [List.length_map]), List.getElem?_map] at hk
    obtain ⟨round, hround, rfl⟩ := Option.map_eq_some_iff.1 hk
    exact ⟨Nat.le_of_lt lt, reaches.sent k round hround⟩
  · rw [List.getElem?_append_right (by rwa [List.length_map]), List.length_map] at hk
    rcases reaches.atHead.sent_of_ends ends with none | one
    · rw [none] at hk
      cases hk
    · rw [one, List.getElem?_singleton] at hk
      split at hk
      · next zero =>
        cases hk
        have same : k = rounds.length := by omega
        rw [same, List.take_length]
        exact ⟨Nat.le_refl _, rfl⟩
      · cases hk

theorem AtHead.result_of_ends (head : chat.AtHead request start rounds progress world)
    {ending : Ending} {result : TurnResult} {last : World σ η}
    (ends : chat.Ends request progress world ending (.ok result) last) :
    ending.sent = [chat.requestAfter request rounds] ∧
      result.messages =
        request.opening ++ ((rounds ++ ending.completed).flatMap Round.messages ++ ending.words) ∧
      result.executions = (rounds ++ ending.completed).flatMap Round.results := by
  rw [← head.nextRequest_eq]
  cases ends with
  | answered _ _ =>
    refine ⟨rfl, ?_, ?_⟩
    · simp only [Ending.completed, List.append_nil, ← List.append_assoc, ← head.messages]
      rfl
    · simp only [Ending.completed, List.append_nil, ← head.executions]
      rfl
  | @handedBack round _ completes _ =>
    refine ⟨congrArg (fun sent => [sent]) completes.sent, ?_, ?_⟩
    · simp only [Ending.completed, Ending.words, List.append_nil, List.flatMap_append,
        List.flatMap_singleton, ← List.append_assoc]
      exact head.messages_after round
    · simp only [Ending.completed, List.flatMap_append, List.flatMap_singleton]
      exact head.executions_after round

theorem filter_tool_messages (rounds : List Round) :
    (rounds.flatMap Round.messages).filter (·.role = .tool) =
      (rounds.flatMap Round.results).map (·.toMessage) := by
  induction rounds with
  | nil => rfl
  | cons round rounds ih =>
    have tools : (round.results.map (·.toMessage)).filter (·.role = .tool) =
        round.results.map (·.toMessage) := by
      rw [List.filter_eq_self]
      intro message hm
      obtain ⟨result, -, rfl⟩ := List.mem_map.1 hm
      rfl
    rw [List.flatMap_cons, List.filter_append, ih, List.flatMap_cons, List.map_append,
      Round.messages, List.filter_cons_of_neg (by exact Bool.false_ne_true), tools]

theorem filter_tool_opening (request : TurnRequest) :
    request.opening.filter (·.role = .tool) = [] := by
  unfold TurnRequest.opening
  cases request.session.systemPrompt <;> rfl

theorem filter_tool_words (ending : Ending) : ending.words.filter (·.role = .tool) = [] := by
  cases ending <;> rfl

theorem paired_requestAfter (kept : ∀ round ∈ rounds, round.Kept) :
    Paired (chat.requestAfter request rounds).messages := by
  have history := (Paired.rounds kept Paired.nil nofun).opening request
  rwa [List.append_nil] at history

theorem paired_result {ending : Ending} (kept : ∀ round ∈ rounds ++ ending.completed, round.Kept) :
    Paired (request.opening ++
      ((rounds ++ ending.completed).flatMap Round.messages ++ ending.words)) := by
  refine (Paired.rounds kept ?_ ?_).opening request
  · cases ending with
    | answered _ response => exact Paired.text response.text
    | _ => exact Paired.nil
  · cases ending with
    | answered _ response =>
      rintro message ⟨⟩
      exact nofun
    | _ => exact nofun

theorem kept_of_ends (keeps : chat.executor.invoker.KeepsCalls)
    (reaches : chat.Reaches request start rounds progress world) {ending : Ending}
    {answer : Except ChatError TurnResult} {last : World σ η}
    (ends : chat.Ends request progress world ending answer last) :
    ∀ round ∈ rounds ++ ending.completed, round.response.calls ≠ [] ∧ round.Kept := by
  intro round hr
  rcases List.mem_append.1 hr with hr | hr
  · obtain ⟨_, _, _, completes⟩ := reaches.completes round hr
    exact ⟨completes.calls, kept_of_completes keeps completes⟩
  · cases ends with
    | handedBack completes _ =>
      rw [List.mem_singleton.1 hr]
      exact ⟨completes.calls, kept_of_completes keeps completes⟩
    | _ => cases hr

/-- The observed invoker keeps calls. Under any invoker that does, the requests of a turn and its
result are the transcript of its rounds. -/
theorem runTurn_transcript :
    (∀ observer stopwatch, (Invoker.observed observer stopwatch : Invoker σ η).KeepsCalls) ∧
    ∀ (chat : Chat σ η) (request : TurnRequest) (start : World σ η),
      chat.executor.invoker.KeepsCalls → ∀ answer after,
        chat.runTurn request start = some (answer, after) →
          ∃ course last, chat.Takes request start course answer last ∧
            after.requests = start.requests ++ course.sent ∧
            chat.provider.Answered start.requests course.sent course.responses ∧
            (∀ sent ∈ course.sent,
              sent.model = request.session.model ∧ sent.options = request.options ∧
              sent.metadata = request.metadata ∧
              sent.tools = chat.executor.tools.specifications ∧ Paired sent.messages) ∧
            (∀ first, course.sent[0]? = some first → first.messages = request.opening) ∧
            (∀ k round next, course.rounds[k]? = some round → course.sent[k + 1]? = some next →
              course.sent[k]? = some round.sent ∧
                next.messages = round.sent.messages ++ round.transcript) ∧
            (∀ round ∈ course.completed, round.response.calls ≠ [] ∧
              round.texts.length = round.response.calls.length) ∧
            ∀ result, answer = .ok result →
              (∃ sent, course.sent.getLast? = some sent ∧
                result.messages = sent.messages ++ course.ending.closing) ∧
              Paired result.messages ∧
              result.executions = course.completed.flatMap Round.outcomes ∧
              result.messages.filter (·.role = .tool) =
                result.executions.map (·.toMessage) := by
  refine ⟨Invoker.keepsCalls_observed, fun chat request start keeps answer after run => ?_⟩
  obtain ⟨course, last, takes, requests, -⟩ := exists_takes_of_runTurn run
  refine ⟨course, last, takes, ?_⟩
  cases takes with
  | rejected rejected =>
    exact ⟨by rw [requests]; exact (List.append_nil _).symm, nofun, nofun, nofun, nofun, nofun,
      nofun⟩
  | @rounds rounds ending progress world _ _ accepted reaches ends =>
    have head := reaches.atHead
    have kept := kept_of_ends keeps reaches ends
    have sent_kept : ∀ k, ∀ round ∈ rounds.take k, round.Kept := fun k round hr =>
      (kept round (List.mem_append_left _ (List.mem_of_mem_take hr))).2
    refine ⟨requests.trans (head.requests_of_ends ends), head.answered_of_ends ends, ?_, ?_, ?_,
      fun round hr => ⟨(kept round hr).1, Round.length_texts (kept round hr).2⟩, ?_⟩
    · intro sent hs
      obtain ⟨k, hk⟩ := List.mem_iff_getElem?.1 hs
      obtain ⟨-, rfl⟩ := sent_eq reaches ends k sent hk
      exact ⟨rfl, rfl, rfl, rfl, paired_requestAfter (sent_kept k)⟩
    · intro first hf
      obtain ⟨-, rfl⟩ := sent_eq reaches ends 0 first hf
      exact List.append_nil _
    · intro k round next hr hn
      obtain ⟨-, rfl⟩ := sent_eq reaches ends (k + 1) next hn
      have bound := (List.getElem?_eq_some_iff.1 hr).1
      have earlier : (rounds.map (·.sent) ++ ending.sent)[k]? = some round.sent := by
        rw [List.getElem?_append_left (by rwa [List.length_map]), List.getElem?_map, hr]
        rfl
      obtain ⟨-, same⟩ := sent_eq reaches ends k round.sent earlier
      refine ⟨earlier, ?_⟩
      have this := (kept round (List.mem_append_left _ (List.mem_of_getElem? hr))).2
      rw [same, ← Round.messages_eq_transcript this]
      simp only [requestAfter, modelRequest]
      rw [List.take_add_one, hr, Option.toList_some, List.flatMap_append, List.flatMap_singleton,
        List.append_assoc]
    · rintro result rfl
      obtain ⟨sent, messages, executions⟩ := head.result_of_ends ends
      have lastRound : ending.completed.flatMap Round.messages =
          ending.completed.flatMap Round.transcript := List.flatMap_congr fun round hr =>
        Round.messages_eq_transcript (kept round (List.mem_append_right _ hr)).2
      refine ⟨⟨chat.requestAfter request rounds, ?_, ?_⟩, ?_, ?_, ?_⟩
      · simp only [Course.sent, sent]
        exact List.getLast?_concat
      · rw [messages, Ending.closing, ← lastRound, List.flatMap_append]
        simp only [requestAfter, modelRequest, List.append_assoc]
      · rw [messages]
        exact paired_result fun round hr => (kept round hr).2
      · rw [executions]
        exact List.flatMap_congr fun round hr => Round.results_eq_outcomes (kept round hr).2
      · rw [messages, executions, List.filter_append, List.filter_append, filter_tool_opening,
          filter_tool_words, filter_tool_messages, List.nil_append, List.append_nil]

/-- A chat whose model asks for an unknown tool twice under one id, and then answers. -/
def inquiring : Chat Unit Unit where
  provider := fun requests =>
    if requests.length = 1 then
      .ok ⟨"m", [.message { role := .assistant, content := "Let me see." },
        .call ⟨"a", "missing", ""⟩, .call ⟨"a", "", "[]"⟩], .toolUse⟩
    else .ok (.ofText "m" "Nothing.")
  executor := ⟨.empty, .observed .silent fun _ => .zero⟩

theorem inquiring_transcript :
    ∃ result after, inquiring.runTurn ⟨⟨"s", "m", some "Be brief."⟩, "hi", {}, []⟩ ⟨(), (), []⟩ =
        some (.ok result, after) ∧
      result.messages =
        [{ role := .system, content := "Be brief." }, { role := .user, content := "hi" },
          .request "Let me see." [⟨"a", "missing", ""⟩, ⟨"a", "", "[]"⟩],
          .answer "a" "There is no tool called 'missing'", .answer "a" "There is no tool called ''",
          { role := .assistant, content := "Nothing." }] ∧
      Paired result.messages ∧
      result.messages.filter (·.role = .tool) = result.executions.map (·.toMessage) := by
  have outcome : (inquiring.runTurn ⟨⟨"s", "m", some "Be brief."⟩, "hi", {}, []⟩
      ⟨(), (), []⟩).map (fun r => r.1.toOption.map (·.messages)) = some (some
        [{ role := .system, content := "Be brief." }, { role := .user, content := "hi" },
          .request "Let me see." [⟨"a", "missing", ""⟩, ⟨"a", "", "[]"⟩],
          .answer "a" "There is no tool called 'missing'", .answer "a" "There is no tool called ''",
          { role := .assistant, content := "Nothing." }]) := by decide +kernel
  obtain ⟨⟨answer, after⟩, run, outcome⟩ := Option.map_eq_some_iff.1 outcome
  cases answer with
  | error e => cases outcome
  | ok result =>
    obtain ⟨observed, transcript⟩ := runTurn_transcript
    obtain ⟨_, _, -, -, -, -, -, -, -, whole⟩ :=
      transcript inquiring _ _ (observed .silent fun _ => .zero) _ _ run
    obtain ⟨-, paired, -, tools⟩ := whole result rfl
    exact ⟨result, after, run, Option.some.inj outcome, paired, tools⟩

end Chat

end ToolChat
