import Mathlib.Algebra.Order.Field.Basic
import Mathlib.Algebra.Order.Ring.Rat
import ToolChat.Chat.Assistant
import ToolChat.Proofs.Chat.Transcript
import ToolChat.Proofs.Number.Rounding

/-!
Turns that are refused as invalid.

The requests of a turn differ in their histories only, and no history is empty. So a request may be
sent exactly if the first one may, and a turn is refused before it has sent anything or never. What
the provider would say to a request that may not be sent does not matter.
-/

set_option autoImplicit false

namespace ToolChat

section Options

variable {f : Format}

def Binary.Within (low high : ℚ) : Binary f → Prop
  | .finite x => low ≤ x.value ∧ x.value ≤ high
  | .infinite _ | .nan => False

theorem Binary.between0And_iff {x : Binary f} {limit : Nat} :
    x.between0And limit = true ↔ x.Within 0 limit := by
  have pos : (0 : ℚ) < f.unit := Nat.cast_pos.2 f.unit_pos
  cases x with
  | finite x =>
    have scale : Nat.pow 2 f.scale = f.unit := by rw [Format.unit]
    rw [between0And, scale, Bool.and_eq_true, decide_eq_true_eq, decide_eq_true_eq, Within,
      Finite.value, le_div_iff₀ pos, zero_mul, div_le_iff₀ pos]
    exact and_congr (by norm_cast) (by norm_cast)
  | _ => exact iff_of_false Bool.false_ne_true id

def GenerationOptions.Bad (options : GenerationOptions) : Prop :=
  options.maxTokens = some 0 ∨
    ∃ temperature, options.temperature = some temperature ∧ ¬temperature.Within 0 2

theorem GenerationOptions.bad_iff {options : GenerationOptions} :
    options.Bad ↔ options.maxTokens = some 0 ∨
      options.temperature.any (!·.between0And 2) = true := by
  simp only [Bad, Option.any_eq_true, Bool.not_eq_true', ← Bool.not_eq_true,
    Binary.between0And_iff, Nat.cast_ofNat]

end Options

namespace ModelRequest

theorem objection?_eq_none_iff {r : ModelRequest} :
    r.objection? = none ↔ isBlank r.model = false ∧ r.messages ≠ [] ∧ ¬r.options.Bad := by
  rw [GenerationOptions.bad_iff, objection?]
  split
  · next blank => simp [blank]
  · next spoken =>
    split
    · next empty => simp [List.isEmpty_iff.1 empty]
    · next filled =>
      rw [List.isEmpty_iff] at filled
      split
      · next none => simp [none]
      · next some =>
        split
        · next outside => simp [outside]
        · next within => simp [spoken, filled, some, within]

end ModelRequest

namespace Chat

variable {σ η : Type} {chat : Chat σ η} {request : TurnRequest} {start : World σ η}
  {rounds : List Round} {progress : TurnProgress} {world after : World σ η}

variable (chat request) in
/-- Why a turn is invalid. -/
inductive Invalid : Prop
  | input (blank : isBlank request.input = true)
  | rounds (none : chat.policy.maxToolRounds = 0)
  | model (blank : isBlank request.session.model = true)
  | options (bad : request.options.Bad)

theorem rejection?_eq_none_iff :
    chat.rejection? request = none ↔
      isBlank request.input = false ∧ chat.policy.maxToolRounds ≠ 0 := by
  unfold rejection? ChatPolicy.objection?
  split
  · next blank => simp [blank]
  · next spoken => split <;> simp_all

theorem AtHead.objection?_eq_none_iff (head : chat.AtHead request start rounds progress world) :
    (chat.nextRequest request progress).objection? = none ↔
      isBlank request.session.model = false ∧ ¬request.options.Bad := by
  have filled : progress.messages ≠ [] := by
    rw [head.messages, TurnRequest.opening]
    simp
  rw [ModelRequest.objection?_eq_none_iff]
  exact and_congr_right fun _ => and_iff_right filled

theorem Reaches.objection?_eq_none (reaches : chat.Reaches request start rounds progress world)
    (some : rounds ≠ []) : (chat.nextRequest request progress).objection? = none := by
  cases reaches with
  | start => exact absurd rfl some
  | round earlier step =>
    have later := (earlier.round step).atHead
    obtain ⟨⟨-, -, -, heard, asked, -⟩, -⟩ := step
    obtain ⟨⟨⟩ | ⟨⟩ | ⟨valid, -, -⟩, -⟩ := asked_of_ask asked
    exact later.objection?_eq_none_iff.2 (earlier.atHead.objection?_eq_none_iff.1 valid)

theorem Reaches.valid (reaches : chat.Reaches request start rounds progress world) :
    ∀ round ∈ rounds, round.sent.objection? = none := by
  intro round inside
  obtain ⟨_, _, _, same, -, -, heard, asked, -⟩ := reaches.completes round inside
  obtain ⟨⟨⟩ | ⟨⟩ | ⟨valid, -, -⟩, -⟩ := asked_of_ask asked
  rw [same]
  exact valid

section Ends

variable {ending : Ending} {answer : Except ChatError TurnResult} {last : World σ η}

def FailsAsInvalid (answer : Except ChatError TurnResult) : Prop :=
  ∃ e, answer = .error e ∧ e.kind = .invalidRequest

theorem objection?_eq_none_of_answered {response : ModelResponse} {heard : World σ η}
    (asked : chat.ask request progress.asking world = some (.ok response, heard)) :
    (chat.nextRequest request progress).objection? = none := by
  obtain ⟨⟨⟩ | ⟨⟩ | ⟨valid, -, -⟩, -⟩ := asked_of_ask asked
  exact valid

theorem not_failsAsInvalid_of_runTools {e : ChatError} {calls : List ToolCall}
    (ran : chat.runTools request progress calls world = some (.error e, after)) :
    ¬FailsAsInvalid (.error e) := by
  rintro ⟨_, ⟨⟩, kind⟩
  obtain ⟨-, _, _, outcome, -, failed⟩ := runTools_spec ran
  cases outcome with
  | error cause =>
    cases failed
    cases kind
  | ok executions => cases failed

/-- At its end a turn has sent its next request, which may be sent, and does not fail as invalid. Or
the request must not be sent, and the turn ends with that. -/
theorem sent_or_refused_of_ends (ends : chat.Ends request progress world ending answer last) :
    (chat.nextRequest request progress).objection? = none ∧
        ending.sent = [chat.nextRequest request progress] ∧ ¬FailsAsInvalid answer ∨
      ∃ e, ending = .refused e ∧ answer = .error e ∧ e.kind = .invalidRequest ∧
        (chat.nextRequest request progress).objection? ≠ none ∧
        last.requests = world.requests ∧ last.tools = world.tools := by
  cases ends with
  | refused asked unsent =>
    obtain ⟨⟨objection, _⟩ | ⟨_, sent, _⟩ | ⟨⟩, tools⟩ := asked_of_ask asked
    · refine .inr ⟨_, rfl, rfl, rfl, ?_, unsent, tools⟩
      rw [objection]
      exact Option.some_ne_none _
    · exact absurd (unsent.symm.trans sent) (by simp)
  | unanswered asked sent =>
    obtain ⟨⟨_, unsent⟩ | ⟨valid, _, _⟩ | ⟨⟩, -⟩ := asked_of_ask asked
    · exact absurd (unsent.symm.trans sent) (by simp)
    · refine .inl ⟨valid, rfl, ?_⟩
      rintro ⟨_, ⟨⟩, ⟨⟩⟩
  | answered asked _ =>
    refine .inl ⟨objection?_eq_none_of_answered asked, rfl, ?_⟩
    rintro ⟨_, ⟨⟩, _⟩
  | exhausted asked _ _ =>
    refine .inl ⟨objection?_eq_none_of_answered asked, rfl, ?_⟩
    rintro ⟨_, ⟨⟩, ⟨⟩⟩
  | failed asked _ _ ran =>
    exact .inl ⟨objection?_eq_none_of_answered asked, rfl, not_failsAsInvalid_of_runTools ran⟩
  | handedBack completes _ =>
    obtain ⟨heard, asked, -⟩ := completes.ran
    refine .inl ⟨objection?_eq_none_of_answered asked, congrArg ([·]) completes.sent, ?_⟩
    rintro ⟨_, ⟨⟩, _⟩

end Ends

theorem invalid_of_rejected {e : ChatError} (rejected : chat.rejection? request = some e) :
    chat.Invalid request := by
  by_contra valid
  have accepted : chat.rejection? request = none :=
    rejection?_eq_none_iff.2
      ⟨Bool.eq_false_iff.2 fun blank => valid (.input blank), fun none => valid (.rounds none)⟩
  rw [accepted] at rejected
  cases rejected

theorem AtHead.objection?_ne_none_iff (head : chat.AtHead request start rounds progress world)
    (accepted : chat.rejection? request = none) :
    (chat.nextRequest request progress).objection? ≠ none ↔ chat.Invalid request := by
  obtain ⟨spoken, allowed⟩ := rejection?_eq_none_iff.1 accepted
  rw [ne_eq, head.objection?_eq_none_iff]
  constructor
  · intro objection
    by_contra valid
    exact objection ⟨Bool.eq_false_iff.2 fun blank => valid (.model blank),
      fun bad => valid (.options bad)⟩
  · rintro (blank | none | blank | bad) ⟨named, good⟩
    · exact absurd (spoken.symm.trans blank) Bool.false_ne_true
    · exact allowed none
    · exact absurd (named.symm.trans blank) Bool.false_ne_true
    · exact good bad

theorem exists_runTurn_of_invalid (invalid : chat.Invalid request) (calm : chat.observer.Calm)
    (start : World σ η) : ∃ e after, chat.runTurn request start = some (.error e, after) := by
  have driven : ∃ e after, chat.drive request start = some (.error e, after) := by
    cases hr : chat.rejection? request with
    | some e =>
      rw [drive_of_rejected hr]
      exact ⟨e, start, rfl⟩
    | none =>
      have head : chat.AtHead request start [] (.initial request) start := atHead_start
      have objection := (head.objection?_ne_none_iff hr).2 invalid
      have asks : Meets False (chat.ask request (TurnProgress.initial request).asking) _ :=
        meets_ask calm _
      obtain ⟨⟨outcome, heard⟩, asked⟩ := asks.exists_eq_some start
      rw [drive_of_accepted hr, runRounds, bind_of_eq_some asked]
      obtain ⟨_ | ⟨valid, -, -⟩ | ⟨valid, -, -⟩, -⟩ := asked_of_ask asked
      · exact ⟨_, heard, rfl⟩
      · exact absurd valid objection
      · exact absurd valid objection
  obtain ⟨e, driven, drive⟩ := driven
  obtain ⟨⟨⟨⟩, after⟩, told⟩ :=
    (Run.meets_tell (fun _ => calm) (.turnFailed request.session e)).exists_eq_some driven
  refine ⟨e, after, ?_⟩
  rw [runTurn, bind_of_eq_some drive]
  dsimp only
  rw [bind_of_eq_some told]
  rfl

section Providers

variable {other : Provider} (same : ∀ earlier sent, sent.validated = .ok sent →
  other (earlier ++ [sent]) = chat.provider (earlier ++ [sent]))
include same

theorem ask_of_provider (progress : TurnProgress) :
    ({ chat with provider := other } : Chat σ η).ask request progress =
      chat.ask request progress := by
  refine bind_congr fun _ => bind_congr fun _ => ?_
  cases hv : (chat.modelRequest request progress.messages).objection? with
  | some message =>
    have refused := ModelRequest.validated_of_objection?_eq_some hv
    simp only [modelRequest] at refused ⊢
    rw [refused]
  | none =>
    have valid := ModelRequest.validated_of_objection?_eq_none hv
    have agrees := fun earlier => same earlier _ valid
    simp only [modelRequest] at valid agrees ⊢
    rw [valid]
    funext world
    dsimp only
    rw [bind_of_eq_some rfl, bind_of_eq_some rfl, agrees]

theorem runRounds_of_provider (progress : TurnProgress) :
    ({ chat with provider := other } : Chat σ η).runRounds request progress =
      chat.runRounds request progress := by
  induction left : chat.policy.maxToolRounds - progress.toolRounds using Nat.strongRecOn
    generalizing progress with
  | ind n ih =>
    rw [runRounds, runRounds, ask_of_provider same]
    refine bind_congr fun outcome => ?_
    cases outcome with
    | error e => rfl
    | ok response =>
      dsimp only
      split
      · rfl
      · split
        · rfl
        · next allowed =>
          refine bind_congr fun outcome => ?_
          cases outcome with
          | error e => rfl
          | ok executions =>
            dsimp only
            split
            · rfl
            · refine ih _ ?_ _ rfl
              simp only [TurnProgress.afterRound, TurnProgress.asking]
              omega

theorem runTurn_of_provider :
    ({ chat with provider := other } : Chat σ η).runTurn request = chat.runTurn request := by
  have drive : ({ chat with provider := other } : Chat σ η).drive request = chat.drive request := by
    unfold drive
    rw [runRounds_of_provider same]
  unfold runTurn
  rw [drive]

end Providers

theorem refused_of_takes {course : Course} {answer : Except ChatError TurnResult}
    (takes : chat.Takes request start course answer world) :
    (FailsAsInvalid answer ↔ chat.Invalid request) ∧
      (chat.Invalid request →
        course.sent = [] ∧ course.toolRounds = 0 ∧ world.tools = start.tools) ∧
      (∀ sent ∈ course.sent, sent.objection? = none) ∧
      ∀ e, course.ending = .refused e → course.rounds = [] := by
  cases takes with
  | @rejected e rejected =>
    have invalid := invalid_of_rejected rejected
    exact ⟨iff_of_true ⟨e, rfl, kind_of_rejected rejected⟩ invalid,
      fun _ => ⟨rfl, rfl, rfl⟩, nofun, fun _ _ => rfl⟩
  | @rounds rounds ending progress world _ _ accepted reaches ends =>
    have faulty := reaches.atHead.objection?_ne_none_iff accepted
    rcases sent_or_refused_of_ends ends with ⟨valid, sent, other⟩ |
      ⟨e, rfl, rfl, kind, objection, -, tools⟩
    · have sound : ¬chat.Invalid request := fun invalid => faulty.2 invalid valid
      refine ⟨iff_of_false other sound, fun invalid => absurd invalid sound, ?_, ?_⟩
      · intro one inside
        rcases List.mem_append.1 inside with earlier | last
        · obtain ⟨round, hr, rfl⟩ := List.mem_map.1 earlier
          exact reaches.valid round hr
        · rw [sent] at last
          rw [List.mem_singleton.1 last]
          exact valid
      · rintro e rfl
        cases sent
    · have first : rounds = [] := by
        by_contra some
        exact objection (reaches.objection?_eq_none some)
      subst first
      obtain rfl : world = start := by
        generalize empty : ([] : List Round) = rounds at reaches
        cases reaches with
        | start => rfl
        | round _ _ => exact absurd empty.symm (List.concat_ne_nil _ _)
      exact ⟨iff_of_true ⟨e, rfl, kind⟩ (faulty.1 objection), fun _ => ⟨rfl, rfl, tools⟩, nofun,
        fun _ _ => rfl⟩

theorem failsAsInvalid_iff {answer : Except ChatError TurnResult}
    (run : chat.runTurn request start = some (answer, after)) :
    FailsAsInvalid answer ↔ chat.Invalid request := by
  obtain ⟨course, last, takes, -⟩ := exists_takes_of_runTurn run
  exact (refused_of_takes takes).1

end Chat

theorem AssistantPlan.of_build_eq_ok {σ η : Type} {plan : AssistantPlan σ η}
    {assistant : Assistant σ η} (built : plan.build = .ok assistant) :
    isBlank assistant.session.model = false ∧ assistant.options = plan.options ∧
      assistant.chat.policy.maxToolRounds ≠ 0 := by
  unfold build at built
  split at built
  · cases built
  · next named =>
    cases allowed : plan.policy.objection? with
    | some e =>
      rw [allowed] at built
      cases built
    | none =>
      rw [allowed] at built
      unfold ChatPolicy.objection? at allowed
      cases made : Toolset.ofTools plan.tools with
      | error e =>
        rw [chat, made] at built
        cases built
      | ok tools =>
        rw [chat, made] at built
        cases built
        refine ⟨Bool.eq_false_iff.2 named, rfl, fun none => ?_⟩
        rw [if_pos none] at allowed
        cases allowed

namespace Chat

theorem invalid_iff_of_build {σ η : Type} {plan : AssistantPlan σ η} {assistant : Assistant σ η}
    (built : plan.build = .ok assistant) (session : ChatSession)
    (same : session.model = assistant.session.model) (input : String) (metadata : Metadata) :
    assistant.chat.Invalid ⟨session, input, assistant.options, metadata⟩ ↔
      isBlank input = true ∨ plan.options.Bad := by
  obtain ⟨named, options, allowed⟩ := AssistantPlan.of_build_eq_ok built
  constructor
  · rintro (blank | none | blank | bad)
    · exact .inl blank
    · exact absurd none allowed
    · rw [same, named] at blank
      cases blank
    · rw [options] at bad
      exact .inr bad
  · rintro (blank | bad)
    · exact .input blank
    · rw [← options] at bad
      exact .options bad

/-- A turn fails as invalid exactly if its input or its model is blank, its policy allows no tool
round or its options are bad. It has then sent nothing and run no tool, and every request that a
turn does send may be sent, so that no request is refused after a tool round. With an assistant only
the input and the options can be at fault. -/
theorem runTurn_invalid_iff {σ η : Type} :
    (∀ (chat : Chat σ η) (request : TurnRequest) (start : World σ η),
      (chat.Invalid request → chat.observer.Calm →
        ∃ e after, chat.runTurn request start = some (.error e, after)) ∧
      (∀ answer after, chat.runTurn request start = some (answer, after) →
        (FailsAsInvalid answer ↔ chat.Invalid request) ∧
        ∃ course last, chat.Takes request start course answer last ∧
          after.requests = start.requests ++ course.sent ∧
          (chat.Invalid request →
            course.sent = [] ∧ course.toolRounds = 0 ∧ after.tools = start.tools) ∧
          (∀ sent ∈ course.sent, sent.validated = .ok sent) ∧
          ∀ e, course.ending = .refused e → course.rounds = []) ∧
      ∀ other : Provider, (∀ earlier sent, sent.validated = .ok sent →
          other (earlier ++ [sent]) = chat.provider (earlier ++ [sent])) →
        ({ chat with provider := other } : Chat σ η).runTurn request = chat.runTurn request) ∧
    ∀ (plan : AssistantPlan σ η) (assistant : Assistant σ η), plan.build = .ok assistant →
      ∀ (input : String) (start : World σ η),
        (∀ metadata answer after, assistant.turn input metadata start = some (answer, after) →
          (FailsAsInvalid answer ↔ isBlank input = true ∨ plan.options.Bad)) ∧
        ∀ sessionId answer after, assistant.turnIn sessionId input start = some (answer, after) →
          (FailsAsInvalid answer ↔ isBlank input = true ∨ plan.options.Bad) := by
  refine ⟨fun chat request start => ⟨fun invalid calm => ?_, fun answer after run => ?_,
    fun other same => runTurn_of_provider same⟩, fun plan assistant built input start => ⟨?_, ?_⟩⟩
  · exact exists_runTurn_of_invalid invalid calm start
  · obtain ⟨course, last, takes, requests, tools⟩ := exists_takes_of_runTurn run
    obtain ⟨fails, refused, valid, first⟩ := refused_of_takes takes
    refine ⟨fails, course, last, takes, ?_, ?_, ?_, first⟩
    · cases takes with
      | rejected _ => rw [requests]; exact (List.append_nil _).symm
      | rounds _ reaches ends => exact requests.trans (reaches.atHead.requests_of_ends ends)
    · intro invalid
      obtain ⟨none, rounds, same⟩ := refused invalid
      exact ⟨none, rounds, tools.trans same⟩
    · exact fun sent inside => ModelRequest.validated_of_objection?_eq_none (valid sent inside)
  · intro metadata answer after run
    rw [failsAsInvalid_iff run]
    exact invalid_iff_of_build built assistant.session rfl input metadata
  · intro sessionId answer after run
    rw [failsAsInvalid_iff run]
    exact invalid_iff_of_build built { assistant.session with id := sessionId } rfl input []

/-- The provider of `inquiring`, but for requests that must not be sent: they get no answer. -/
def wary : Provider := fun requests =>
  if requests.getLast?.any (·.objection?.isSome) then .error ⟨.other, "not to be sent"⟩
  else inquiring.provider requests

def feverish : AssistantPlan Unit Unit where
  provider := wary
  model := "m"
  options := { temperature := some .nan }

theorem feverish_fails :
    (∃ assistant e after, feverish.build = .ok assistant ∧
      assistant.turn "hi" [] ⟨(), (), []⟩ = some (.error e, after) ∧ e.kind = .invalidRequest ∧
      after.requests = []) ∧
    ∃ result after, inquiring.runTurn ⟨⟨"s", "m", none⟩, "hi", {}, []⟩ ⟨(), (), []⟩ =
        some (.ok result, after) ∧
      after.requests.length = 2 ∧ (∀ sent ∈ after.requests, sent.validated = .ok sent) ∧
      ({ inquiring with provider := wary } : Chat Unit Unit).runTurn
          ⟨⟨"s", "m", none⟩, "hi", {}, []⟩ ⟨(), (), []⟩ = some (.ok result, after) := by
  obtain ⟨turns, assistants⟩ := @runTurn_invalid_iff Unit Unit
  constructor
  · have bad : feverish.options.Bad := .inr ⟨.nan, rfl, id⟩
    obtain ⟨assistant, built, calm⟩ : ∃ assistant, feverish.build = .ok assistant ∧
        assistant.chat.observer.Calm := ⟨_, rfl, Observer.calm_silent⟩
    obtain ⟨returns, refused, -⟩ := turns assistant.chat
      ⟨assistant.session, "hi", assistant.options, []⟩ ⟨(), (), []⟩
    have options := (AssistantPlan.of_build_eq_ok built).2.1
    obtain ⟨e, after, run⟩ := returns (.options (options ▸ bad)) calm
    obtain ⟨_, ⟨⟩, kind⟩ :=
      ((assistants feverish assistant built "hi" ⟨(), (), []⟩).1 [] _ after run).2 (.inr bad)
    obtain ⟨-, course, last, -, requests, nothing, -⟩ := refused _ after run
    obtain ⟨none, -, -⟩ := nothing (.options (options ▸ bad))
    rw [none] at requests
    exact ⟨assistant, e, after, built, run, kind, requests⟩
  · have outcome : (inquiring.runTurn ⟨⟨"s", "m", none⟩, "hi", {}, []⟩ ⟨(), (), []⟩).map
        (fun r => (r.1.toOption.isSome, r.2.requests.length)) = some (true, 2) := by decide +kernel
    obtain ⟨⟨answer, after⟩, run, outcome⟩ := Option.map_eq_some_iff.1 outcome
    cases answer with
    | error e => cases outcome
    | ok result =>
      obtain ⟨-, valid, others⟩ := turns inquiring ⟨⟨"s", "m", none⟩, "hi", {}, []⟩ ⟨(), (), []⟩
      obtain ⟨-, course, last, -, requests, -, sent, -⟩ := valid _ after run
      have same : ∀ earlier sent, sent.validated = .ok sent →
          wary (earlier ++ [sent]) = inquiring.provider (earlier ++ [sent]) := by
        intro earlier sent valid
        cases objection : sent.objection? with
        | none => simp [wary, objection]
        | some message =>
          rw [ModelRequest.validated_of_objection?_eq_some objection] at valid
          cases valid
      refine ⟨result, after, run, (Prod.mk.inj outcome).2, ?_, ?_⟩
      · rw [requests]
        exact sent
      · rw [others wary same]
        exact run

end Chat

end ToolChat
