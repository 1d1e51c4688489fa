import ToolChat.Proofs.Chat.Transcript

/-!
Turns whose results are handed back as they are.

Whether all tools so far return raw is known at each loop head: it is so exactly before the first
round. So a turn is handed back after its first tool round or not at all, and the calls of the first
answer decide which.
-/

set_option autoImplicit false

namespace ToolChat

variable {σ η : Type}

theorem Invoker.meets_trivial (invoker : Invoker σ η) : invoker.Meets True fun _ _ => True where
  invoke entry call context world := by
    refine ⟨fun _ => trivial, fun stage after _ => ?_⟩
    cases stage with
    | done outcome => exact fun _ _ => trivial
    | pending polls finish => exact fun _ => ⟨fun _ => trivial, fun _ _ _ _ _ => trivial⟩
  unknown call context world := ⟨fun _ => trivial, fun _ _ _ => trivial⟩

namespace Executor

theorem all_raw_iff {executor : Executor σ η} {P : ToolCall → CallResult → Prop}
    {calls : List ToolCall} {executions : List Execution}
    (h : List.Forall₂ (executor.Executes P) calls executions) :
    executions.all (·.raw) = true ↔ ∀ call ∈ calls, executor.returnsRaw call = true := by
  induction h with
  | nil => simp
  | @cons call execution calls executions first rest ih =>
    obtain ⟨-, raw⟩ := first
    simp [raw, ih]

theorem returnsRaw_iff {executor : Executor σ η} {call : ToolCall} :
    executor.returnsRaw call = true ↔
      ∃ entry, executor.tools.get? call.name = some entry ∧ entry.returnRaw = true := by
  unfold returnsRaw
  cases executor.tools.get? call.name with
  | none => simp
  | some entry => simp

end Executor

namespace Chat

variable {chat : Chat σ η} {request : TurnRequest} {start : World σ η} {rounds : List Round}
  {progress : TurnProgress} {world : World σ η}

theorem all_raw_of_completes {round : Round} {after : World σ η}
    (h : chat.Completes request progress world round after) :
    round.executions.all (·.raw) = true ↔
      ∀ call ∈ round.response.calls, chat.executor.returnsRaw call = true := by
  obtain ⟨heard, -, ran⟩ := h.ran
  obtain ⟨-, before, between, result, executed, outcome⟩ := runTools_spec ran
  have executes := (Executor.meets_runRound chat.executor.invoker.meets_trivial _ _ _ before).2
    result between executed
  cases result with
  | error e => cases outcome
  | ok executions =>
    cases outcome
    exact Executor.all_raw_iff (executes _ rfl)

/-- After a round all tools so far return raw exactly if it is the first one and all of its calls
are of tools that do. -/
theorem AtHead.allRaw_after (head : chat.AtHead request start rounds progress world)
    {round : Round} {after : World σ η}
    (completes : chat.Completes request progress world round after) :
    (progress.after round).allRaw = true ↔
      rounds = [] ∧ ∀ call ∈ round.response.calls, chat.executor.returnsRaw call = true := by
  have folded : (progress.after round).allRaw =
      (progress.allRaw && round.executions.all (·.raw)) := rfl
  rw [folded, Bool.and_eq_true, head.allRaw, all_raw_of_completes completes]

theorem AtHead.mixed (head : chat.AtHead request start rounds progress world)
    (later : rounds ≠ []) : progress.allRaw = false := by
  have unequal : ¬progress.allRaw = true := fun raw => later (head.allRaw.1 raw)
  simpa using unequal

theorem eq_initial_of_reaches (h : chat.Reaches request start [] progress world) :
    progress = .initial request ∧ world = start := by
  generalize none : ([] : List Round) = rounds at h
  cases h with
  | start => exact ⟨rfl, rfl⟩
  | round _ _ => exact absurd none.symm (List.concat_ne_nil _ _)

theorem AtHead.handedBack_of_ends (head : chat.AtHead request start rounds progress world)
    {ending : Ending} {result : TurnResult} {last : World σ η}
    (ends : chat.Ends request progress world ending (.ok result) last)
    (absent : result.content = none) :
    ∃ round, ending = .handedBack round ∧
      chat.Completes request progress world round last ∧
      result = (progress.after round).handedBack request ∧ rounds = [] ∧
      ∀ call ∈ round.response.calls, chat.executor.returnsRaw call = true := by
  cases ends with
  | answered _ _ => cases absent
  | @handedBack round _ completes raw =>
    have only := (head.allRaw_after completes).1 raw
    exact ⟨round, rfl, completes, rfl, only⟩

variable (chat request start) in
/-- The first tool round of a turn is run to its end, and all of its calls are of tools that return
raw. -/
structure FirstRoundRaw (round : Round) : Prop where
  accepted : chat.rejection? request = none
  completes : ∃ after, chat.Completes request (.initial request) start round after
  raw : ∀ call ∈ round.response.calls, ∃ entry,
    chat.executor.tools.get? call.name = some entry ∧ entry.returnRaw = true

theorem FirstRoundRaw.drive {round : Round} (h : chat.FirstRoundRaw request start round) :
    ∃ after, chat.drive request start =
      some (.ok (((TurnProgress.initial request).after round).handedBack request), after) := by
  obtain ⟨after, completes⟩ := h.completes
  have raw : ((TurnProgress.initial request).after round).allRaw = true :=
    (atHead_start.allRaw_after completes).2
      ⟨rfl, fun call hc => Executor.returnsRaw_iff.2 (h.raw call hc)⟩
  have takes : chat.Takes request start ⟨[], .handedBack round⟩ _ after :=
    .rounds h.accepted .start (.handedBack completes raw)
  exact ⟨after, drive_eq_some_iff.2 ⟨_, takes⟩⟩

theorem drive_of_runTurn {answer : Except ChatError TurnResult} {after : World σ η}
    (h : chat.runTurn request start = some (answer, after)) :
    ∃ last, chat.drive request start = some (answer, last) ∧ after.requests = last.requests := by
  obtain ⟨course, last, takes, requests, -⟩ := exists_takes_of_runTurn h
  exact ⟨last, drive_eq_some_iff.2 ⟨course, takes⟩, requests⟩

theorem firstRoundRaw_of_runTurn {result : TurnResult} {after : World σ η}
    (run : chat.runTurn request start = some (.ok result, after))
    (absent : result.content = none) :
    ∃ round, chat.FirstRoundRaw request start round ∧
      result = ((TurnProgress.initial request).after round).handedBack request ∧
      after.requests = start.requests ++ [round.sent] ∧
      chat.provider after.requests = .ok round.response := by
  obtain ⟨course, last, takes, requests, -⟩ := exists_takes_of_runTurn run
  cases takes with
  | @rounds rounds ending progress world _ _ accepted reaches ends =>
    have head := reaches.atHead
    obtain ⟨round, rfl, completes, same, rfl, raw⟩ := head.handedBack_of_ends ends absent
    obtain ⟨rfl, rfl⟩ := eq_initial_of_reaches reaches
    obtain ⟨sent, answered⟩ := head.answered_of_completes completes
    have asked : after.requests = world.requests ++ [round.sent] := requests.trans sent
    refine ⟨round, ⟨accepted, ⟨last, completes⟩, fun call hc => ?_⟩, same, asked, ?_⟩
    · exact Executor.returnsRaw_iff.1 (raw call hc)
    · rw [asked]
      exact answered 0 round.response rfl

/-- A turn gives its results back without a text of the model exactly if the calls of the first
answer are all of tools that return raw and their round is run to its end. Then the turn has sent one
request. At every later loop head some tool so far does not return raw, and from there no turn ends
without a text. -/
theorem runTurn_hands_back_iff (chat : Chat σ η) (request : TurnRequest) (start : World σ η) :
    (chat.observer.Calm → chat.executor.invoker.Answers →
      ∃ answer after, chat.runTurn request start = some (answer, after)) ∧
    (∀ answer after, chat.runTurn request start = some (answer, after) →
      ((∃ result, answer = .ok result ∧ result.content = none) ↔
        ∃ round, chat.FirstRoundRaw request start round) ∧
      ∀ result, answer = .ok result → result.content = none →
        ∃ round, chat.FirstRoundRaw request start round ∧
          after.requests = start.requests ++ [round.sent] ∧
          chat.provider after.requests = .ok round.response ∧
          result.modelRounds = 1 ∧ result.stopReason = .toolUse ∧
          result.executions = round.results ∧
          (chat.executor.invoker.KeepsCalls →
            result.executions.map (·.call) = round.response.calls)) ∧
    ∀ rounds progress world, chat.Reaches request start rounds progress world → rounds ≠ [] →
      progress.allRaw = false ∧
        ∀ ending result last, chat.Ends request progress world ending (.ok result) last →
          result.content ≠ none := by
  refine ⟨fun calm answers => ?_, fun answer after run => ⟨⟨?_, ?_⟩, ?_⟩, ?_⟩
  · obtain ⟨⟨answer, after⟩, run⟩ := exists_runTurn calm answers start
    exact ⟨answer, after, run⟩
  · rintro ⟨result, rfl, absent⟩
    obtain ⟨round, first, -⟩ := firstRoundRaw_of_runTurn run absent
    exact ⟨round, first⟩
  · rintro ⟨round, first⟩
    obtain ⟨between, handed⟩ := first.drive
    obtain ⟨last, driven, -⟩ := drive_of_runTurn run
    have same := handed.symm.trans driven
    cases same
    exact ⟨_, rfl, rfl⟩
  · rintro result rfl absent
    obtain ⟨round, first, same, requests, answered⟩ := firstRoundRaw_of_runTurn run absent
    obtain ⟨_, completes⟩ := first.completes
    have executions : result.executions = round.results := by
      rw [same]
      rfl
    refine ⟨round, first, requests, answered, by rw [same]; rfl, by rw [same]; rfl, executions,
      fun keeps => ?_⟩
    have kept := kept_of_completes keeps completes
    have calls : List.Forall₂ Eq round.response.calls
        (round.executions.map fun execution => execution.result.call) :=
      List.forall₂_map_right_iff.2 (kept.imp fun _ _ h => h.symm)
    rw [List.forall₂_eq_eq_eq] at calls
    rw [executions, Round.results, List.map_map, calls]
    rfl
  · intro rounds progress world reaches later
    refine ⟨reaches.atHead.mixed later, fun ending result last ends absent => ?_⟩
    obtain ⟨_, _, _, _, first, _⟩ := reaches.atHead.handedBack_of_ends ends absent
    exact later first

def clock : Tool Unit where
  name := "now"
  handler := { body := fun _ _ => return .ok (.text "17:11") }
  returnRaw := true

/-- A chat whose model asks for a raw tool and other tools, then for the raw tool alone, and then
answers. -/
def relaying (others : List ToolCall) : Chat Unit Unit where
  provider := fun requests =>
    if requests.length = 1 then .ok (.ofCalls "m" (⟨"a", "now", ""⟩ :: others))
    else if requests.length = 2 then .ok (.ofCalls "m" [⟨"b", "now", "{}"⟩])
    else .ok (.ofText "m" "Late.")
  executor :=
    ⟨(Toolset.ofTools [clock]).toOption.getD .empty, .observed .silent fun _ => .zero⟩

theorem relaying_hands_back :
    (∃ result after round, (relaying []).runTurn ⟨⟨"s", "m", none⟩, "hi", {}, []⟩ ⟨(), (), []⟩ =
        some (.ok result, after) ∧
      result.content = none ∧ result.modelRounds = 1 ∧
      (relaying []).FirstRoundRaw ⟨⟨"s", "m", none⟩, "hi", {}, []⟩ ⟨(), (), []⟩ round ∧
      result.executions.map (·.call) = [⟨"a", "now", ""⟩]) ∧
    ∃ result after rounds progress world ending last,
      (relaying [⟨"c", "missing", ""⟩]).runTurn ⟨⟨"s", "m", none⟩, "hi", {}, []⟩ ⟨(), (), []⟩ =
        some (.ok result, after) ∧
      (relaying [⟨"c", "missing", ""⟩]).Reaches ⟨⟨"s", "m", none⟩, "hi", {}, []⟩ ⟨(), (), []⟩ rounds
        progress world ∧
      rounds.length = 2 ∧ progress.allRaw = false ∧
      (relaying [⟨"c", "missing", ""⟩]).Ends ⟨⟨"s", "m", none⟩, "hi", {}, []⟩ progress world ending
        (.ok result) last ∧
      result.content ≠ none := by
  constructor
  · obtain ⟨returns, handed, -⟩ :=
      runTurn_hands_back_iff (relaying []) ⟨⟨"s", "m", none⟩, "hi", {}, []⟩ ⟨(), (), []⟩
    obtain ⟨answer, after, run⟩ := returns Observer.calm_silent
      (Invoker.answers_observed Observer.calm_silent _)
    have outcome : ((relaying []).runTurn ⟨⟨"s", "m", none⟩, "hi", {}, []⟩ ⟨(), (), []⟩).map
        (fun r => r.1.toOption.map fun result => (result.content, result.executions)) =
          some (some (none, [⟨⟨"a", "now", ""⟩, "17:11"⟩])) := by decide +kernel
    rw [run, Option.map_some, Option.some.injEq] at outcome
    obtain ⟨result, made, fields⟩ := Option.map_eq_some_iff.1 outcome
    obtain ⟨absent, executions⟩ := Prod.mk.inj fields
    cases answer with
    | error e => cases made
    | ok other =>
      cases made
      obtain ⟨round, first, -, -, once, -⟩ := (handed _ after run).2 result rfl absent
      exact ⟨result, after, round, run, absent, once, first, by rw [executions]; rfl⟩
  · obtain ⟨returns, -, later⟩ := runTurn_hands_back_iff (relaying [⟨"c", "missing", ""⟩])
      ⟨⟨"s", "m", none⟩, "hi", {}, []⟩ ⟨(), (), []⟩
    obtain ⟨answer, after, run⟩ := returns Observer.calm_silent
      (Invoker.answers_observed Observer.calm_silent _)
    have outcome : ((relaying [⟨"c", "missing", ""⟩]).runTurn ⟨⟨"s", "m", none⟩, "hi", {}, []⟩
        ⟨(), (), []⟩).map (fun r => r.1.toOption.map (·.modelRounds)) = some (some 3) := by decide +kernel
    rw [run, Option.map_some, Option.some.injEq] at outcome
    obtain ⟨result, made, three⟩ := Option.map_eq_some_iff.1 outcome
    cases answer with
    | error e => cases made
    | ok other =>
      cases made
      obtain ⟨course, last, takes, -⟩ := exists_takes_of_runTurn run
      cases takes with
      | @rounds rounds ending progress world _ _ accepted reaches ends =>
        have count := reaches.atHead.modelRounds_of_ends ends
        have one : ending.sent.length = 1 := by cases ends <;> rfl
        have two : rounds.length = 2 := by omega
        have mixed := later rounds progress world reaches (by rintro rfl; cases two)
        exact ⟨result, after, rounds, progress, world, ending, last, run, reaches, two, mixed.1,
          ends, mixed.2 ending result last ends⟩

end Chat

end ToolChat
