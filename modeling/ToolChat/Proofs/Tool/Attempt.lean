import ToolChat.Proofs.Argument.Binding
import ToolChat.Proofs.Tool.Round
import ToolChat.Tool.Stock

/-!
What a call comes to.

A call is an attempt to find its tool, to bind its arguments and to run the body of the tool. What
goes wrong at an attempt goes back to the model as the result of the call. Only a failure of the
body may go to the caller: that of a tool which propagates errors, unless its kind is one of those
that the model is to blame for, as all faults of binding are.
-/

set_option autoImplicit false

namespace ToolChat

variable {σ η : Type}

theorem Violation.isUserError_toToolError (v : Violation) : v.toToolError.isUserError = true := by
  obtain ⟨path, cause⟩ := v
  cases cause <;> rfl

theorem isUserError_of_readArguments {text : String} {e : ToolError}
    (h : readArguments text = .error e) : e.isUserError = true := by
  unfold readArguments readJson at h
  split at h
  · cases h
  · cases scanned : Json.read text.toList with
    | error fault =>
      rw [scanned] at h
      cases h
      rfl
    | ok json =>
      rw [scanned] at h
      cases json <;> cases h <;> rfl

theorem isUserError_of_bindArguments {parameters : List Parameter} {index : ShapeIndex}
    {text : String} {e : ToolError} (h : bindArguments parameters index text = .error e) :
    e.isUserError = true := by
  rcases bindArguments_eq_error h with unread | ⟨members, v, -, -, rfl⟩
  · exact isUserError_of_readArguments unread
  · exact v.isUserError_toToolError

namespace ToolRun

theorem meets_runBody_eq {α : Type} {mayPanic : Prop} (body : StateM σ α) :
    Meets mayPanic (runBody body : ToolRun σ η α) fun a => ∃ shared, a = (body.run shared).1 := by
  refine fun world => ⟨nofun, fun a after ran => ?_⟩
  cases ran
  exact ⟨world.tools, rfl⟩

theorem tools_of_tell {ε : Type} {observer : Observer ε η} {event : ε} {world after : ToolWorld σ η}
    (h : tell observer event world = some ((), after)) : after.tools = world.tools := by
  unfold tell at h
  split at h
  · cases h
    rfl
  · cases h

end ToolRun

namespace RegisteredTool

variable (entry : RegisteredTool σ) (context : Context) (call : ToolCall)

def answer (arguments : Arguments) (shared : σ) : Except ToolError Output :=
  ((entry.handler.body arguments context).run shared).1

/-- What comes of a call of a tool if the body runs on what tools share. -/
def attempt (shared : σ) : Except ToolError Output :=
  match entry.bind call.arguments with
  | .error e => .error e
  | .ok arguments => entry.answer context arguments shared

/-- What an attempt means for the run: a result, or an error that is propagated. -/
def settle : Except ToolError Output → Except ToolError CallResult
  | .ok output => .ok ⟨call, output.toText⟩
  | .error e =>
    if entry.propagateErrors && !e.isUserError then
      .error { e with toolName := some call.name, callId := some call.id }
    else .ok ⟨call, e.message⟩

def reply : Except ToolError Output → String
  | .ok output => output.toText
  | .error e => e.message

variable {entry context call}

theorem settle_eq_error_iff {attempt : Except ToolError Output} {e : ToolError} :
    entry.settle call attempt = .error e ↔
      entry.propagateErrors = true ∧ ∃ cause, attempt = .error cause ∧ cause.isUserError = false ∧
        e = { cause with toolName := some call.name, callId := some call.id } := by
  cases attempt with
  | ok output => simp [settle]
  | error cause =>
    simp only [settle, Except.error.injEq, exists_eq_left']
    split
    · next propagates =>
      obtain ⟨propagates, own⟩ : entry.propagateErrors = true ∧ cause.isUserError = false := by
        simpa using propagates
      simp [propagates, own, eq_comm]
    · next contained =>
      simp only [reduceCtorEq, false_iff]
      rintro ⟨propagates, own, -⟩
      simp [propagates, own] at contained

theorem eq_of_settle_eq_ok {attempt : Except ToolError Output} {result : CallResult}
    (h : entry.settle call attempt = .ok result) : result = ⟨call, reply attempt⟩ := by
  cases attempt with
  | ok output =>
    cases h
    rfl
  | error e =>
    rw [settle] at h
    split at h
    · cases h
    · cases h
      rfl

theorem exists_answer_of_attempt {shared : σ} {e : ToolError}
    (h : entry.attempt context call shared = .error e) (own : e.isUserError = false) :
    ∃ arguments, entry.bind call.arguments = .ok arguments ∧
      entry.answer context arguments shared = .error e := by
  unfold attempt at h
  split at h
  · next unbound =>
    cases h
    have blamed := isUserError_of_bindArguments unbound
    rw [own] at blamed
    cases blamed
  · next arguments bound => exact ⟨arguments, bound, h⟩

theorem attempt_of_bind {shared : σ} {arguments : Arguments}
    (bound : entry.bind call.arguments = .ok arguments) :
    entry.attempt context call shared = entry.answer context arguments shared := by
  unfold attempt
  rw [bound]

theorem attempt_of_unbound {shared : σ} {e : ToolError}
    (unbound : entry.bind call.arguments = .error e) :
    entry.attempt context call shared = .error e := by
  unfold attempt
  rw [unbound]

end RegisteredTool

namespace Invoker

variable {mayPanic : Prop} {observer : Observer ToolEvent η} {stopwatch : ToolCall → Duration}
  {entry : RegisteredTool σ} {call : ToolCall} {context : Context}

theorem meets_conclude_eq (calm : ¬mayPanic → observer.Calm) (elapsed : Duration)
    (attempt : Except ToolError Output) :
    ToolChat.Meets mayPanic
      (conclude observer elapsed entry call context attempt : ToolRun σ η _)
      (· = entry.settle call attempt) := by
  cases attempt with
  | ok output => exact (ToolRun.meets_tell calm _).bind fun _ _ => meets_pure rfl
  | error e =>
    refine (ToolRun.meets_tell calm _).bind fun _ _ => ?_
    unfold RegisteredTool.settle ToolError.isUserError
    dsimp only
    split
    · exact meets_pure rfl
    · exact meets_pure rfl

private theorem meets_finish (calm : ¬mayPanic → observer.Calm) {arguments : Arguments}
    (bound : entry.bind call.arguments = .ok arguments) :
    ToolChat.Meets mayPanic
      (do
        let outcome ← ToolRun.runBody (entry.handler.body arguments context)
        conclude observer (stopwatch call) entry call context outcome : ToolRun σ η _)
      fun outcome => ∃ shared, outcome = entry.settle call (entry.attempt context call shared) := by
  refine (ToolRun.meets_runBody_eq _).bind fun attempt ran => ?_
  refine (meets_conclude_eq calm _ attempt).mono fun outcome settled => ?_
  obtain ⟨shared, rfl⟩ := ran
  exact ⟨shared, by rw [settled, RegisteredTool.attempt_of_bind bound]; rfl⟩

/-- The outcome of a call is that of an attempt on what tools share at some time. -/
theorem meets_invoke (calm : ¬mayPanic → observer.Calm) :
    ToolChat.Meets mayPanic ((observed observer stopwatch : Invoker σ η).invoke entry call context)
      (Stage.Meets mayPanic fun outcome =>
        ∃ shared, outcome = entry.settle call (entry.attempt context call shared)) := by
  intro world
  refine (ToolRun.meets_tell calm _).bind (Q := Stage.Meets mayPanic _) (fun _ _ => ?_) world
  split
  · next e unbound =>
    refine (meets_conclude_eq calm _ _).bind fun outcome settled => meets_pure ?_
    exact ⟨world.tools, by rw [settled, RegisteredTool.attempt_of_unbound unbound]⟩
  · next arguments bound =>
    -- The body runs now, or when the stage is polled for the last time.
    split
    · exact (meets_finish calm bound).bind fun outcome ho => meets_pure ho
    · exact meets_pure (meets_finish calm bound)

theorem meets_unknown (calm : ¬mayPanic → observer.Calm) :
    ToolChat.Meets mayPanic ((observed observer stopwatch : Invoker σ η).unknown call context)
      (· = ⟨call, (ToolError.notFound call.name).message⟩) := by
  refine (ToolRun.meets_tell calm _).bind fun _ _ => ?_
  exact (ToolRun.meets_tell calm _).bind fun _ _ => meets_pure rfl

/-- Carries out a call of a registered tool that runs alone. -/
def carryOut (invoker : Invoker σ η) (entry : RegisteredTool σ) (call : ToolCall)
    (context : Context) : ToolRun σ η (Except ToolError CallResult) := do
  (← invoker.invoke entry call context).complete

theorem exists_carryOut (calm : observer.Calm) (world : ToolWorld σ η) :
    ∃ outcome after,
      (observed observer stopwatch).carryOut entry call context world = some (outcome, after) := by
  have answers : ToolChat.Meets False ((observed observer stopwatch).carryOut entry call context)
      fun outcome => ∃ shared : σ, outcome = entry.settle call (entry.attempt context call shared) :=
    (meets_invoke fun _ => calm).bind fun _ met => Stage.meets_complete met
  obtain ⟨⟨outcome, after⟩, run⟩ := answers.exists_eq_some world
  exact ⟨outcome, after, run⟩

/-- A call that runs alone is an attempt on what tools share when it begins. -/
theorem outcome_of_carryOut {world after : ToolWorld σ η} {outcome : Except ToolError CallResult}
    (h : (observed observer stopwatch).carryOut entry call context world =
      some (outcome, after)) :
    outcome = entry.settle call (entry.attempt context call world.tools) := by
  obtain ⟨stage, between, invoked, completed⟩ := bind_eq_some.1 h
  obtain ⟨_, told, htold, invoked⟩ := bind_eq_some.1 invoked
  have tools : told.tools = world.tools := ToolRun.tools_of_tell htold
  have concluded : ∀ {attempt : Except ToolError Output} {s s' : ToolWorld σ η}
      {outcome : Except ToolError CallResult},
      conclude observer (stopwatch call) entry call context attempt s = some (outcome, s') →
        outcome = entry.settle call attempt := by
    intro attempt s s' outcome ran
    have met : ToolChat.Meets True (conclude observer (stopwatch call) entry call context attempt)
        (· = entry.settle call attempt) := meets_conclude_eq (fun h => (h trivial).elim) _ attempt
    exact (met s).2 _ _ ran
  cases bound : entry.bind call.arguments with
  | error e =>
    rw [bound] at invoked
    obtain ⟨settled, _, ran, invoked⟩ := bind_eq_some.1 invoked
    cases pure_eq_some.1 invoked
    cases pure_eq_some.1 completed
    rw [concluded ran, RegisteredTool.attempt_of_unbound bound]
  | ok arguments =>
    rw [RegisteredTool.attempt_of_bind bound, ← tools]
    rw [bound] at invoked
    dsimp only at invoked
    cases delay : entry.handler.delay arguments context with
    | zero =>
      rw [delay] at invoked
      obtain ⟨settled, _, ran, invoked⟩ := bind_eq_some.1 invoked
      cases pure_eq_some.1 invoked
      cases pure_eq_some.1 completed
      obtain ⟨attempt, _, ⟨⟩, ran⟩ := bind_eq_some.1 ran
      exact concluded ran
    | succ polls =>
      rw [delay] at invoked
      cases pure_eq_some.1 invoked
      obtain ⟨attempt, _, ⟨⟩, ran⟩ := bind_eq_some.1 completed
      exact concluded ran

/-- An invoker goes back on a call with an error exactly if the tool propagates errors and its body,
run on bound arguments, fails with an error that does not blame the model. Everything else is the
text of a result: an output, or the message of what went wrong. -/
theorem invoke_fails_iff (observer : Observer ToolEvent η) (stopwatch : ToolCall → Duration)
    (entry : RegisteredTool σ) (call : ToolCall) (context : Context) (world : ToolWorld σ η) :
    (observer.Calm → ∃ outcome after,
      (observed observer stopwatch).carryOut entry call context world = some (outcome, after)) ∧
    ∀ outcome after,
      (observed observer stopwatch).carryOut entry call context world = some (outcome, after) →
        ((∃ e, outcome = .error e) ↔
          entry.propagateErrors = true ∧ ∃ arguments cause,
            entry.bind call.arguments = .ok arguments ∧
            entry.answer context arguments world.tools = .error cause ∧
            cause.isUserError = false) ∧
        (∀ e, outcome = .error e → ∃ arguments cause,
          entry.bind call.arguments = .ok arguments ∧
          entry.answer context arguments world.tools = .error cause ∧
          e = { cause with toolName := some call.name, callId := some call.id }) ∧
        ∀ result, outcome = .ok result →
          result = ⟨call, RegisteredTool.reply (entry.attempt context call world.tools)⟩ := by
  refine ⟨fun calm => exists_carryOut calm world, fun outcome after run => ?_⟩
  obtain rfl := outcome_of_carryOut run
  refine ⟨⟨?_, ?_⟩, ?_, fun result same => RegisteredTool.eq_of_settle_eq_ok same⟩
  · rintro ⟨e, failed⟩
    obtain ⟨propagates, cause, attempted, own, -⟩ := RegisteredTool.settle_eq_error_iff.1 failed
    obtain ⟨arguments, bound, answered⟩ := RegisteredTool.exists_answer_of_attempt attempted own
    exact ⟨propagates, arguments, cause, bound, answered, own⟩
  · rintro ⟨propagates, arguments, cause, bound, answered, own⟩
    have attempted := (RegisteredTool.attempt_of_bind bound).trans answered
    exact ⟨_, RegisteredTool.settle_eq_error_iff.2 ⟨propagates, cause, attempted, own, rfl⟩⟩
  · intro e failed
    obtain ⟨-, cause, attempted, own, same⟩ := RegisteredTool.settle_eq_error_iff.1 failed
    obtain ⟨arguments, bound, answered⟩ := RegisteredTool.exists_answer_of_attempt attempted own
    exact ⟨arguments, cause, bound, answered, same⟩

/-- A tool that propagates errors and needs an argument that it declares as optional. -/
def picky : Tool RunCounts where
  name := "pick"
  parameters := [{ name := some "n", shape := .integer .i32, optional := true }]
  handler := .sum ["n"]
  propagateErrors := true

def broken : Tool RunCounts where
  name := "broken"
  handler := .failing (.execution "tool exploded")
  propagateErrors := true

def registered (tool : Tool RunCounts) : Option (RegisteredTool RunCounts) :=
  (Toolset.ofTools [tool]).toOption.bind (·.get? tool.name)

theorem broken_fails : ∃ entry outcome after, registered broken = some entry ∧
    (observed .silent fun _ => .zero).carryOut entry ⟨"c", "broken", ""⟩ ⟨"s", 1, []⟩
      (⟨[], ()⟩ : ToolWorld RunCounts Unit) = some (outcome, after) ∧
    ∃ e, outcome = .error e := by
  have made : registered broken =
      some ⟨{ name := "broken" }, [], .empty, broken.handler, false, true⟩ := by rfl
  obtain ⟨returns, outcomes⟩ := invoke_fails_iff (.silent : Observer ToolEvent Unit)
    (fun _ => .zero) ⟨{ name := "broken" }, [], .empty, broken.handler, false, true⟩
    ⟨"c", "broken", ""⟩ ⟨"s", 1, []⟩ ⟨[], ()⟩
  obtain ⟨outcome, after, run⟩ := returns Observer.calm_silent
  have failed := (outcomes outcome after run).1.2
    ⟨rfl, ⟨[]⟩, .execution "tool exploded", by rfl, by rfl, by rfl⟩
  exact ⟨_, outcome, after, made, run, failed⟩

theorem registered_eq_some {tool : Tool RunCounts} {generated : Option SchemaBundle}
    (named : isBlank tool.name = false)
    (made : generateParameters tool.parameters = .ok generated) :
    ∃ entry, RegisteredTool.ofTool tool = .ok entry ∧ registered tool = some entry := by
  obtain ⟨after, entered⟩ : ∃ after, Toolset.empty.register tool = .ok after :=
    Toolset.exists_register rfl named made
  obtain ⟨entry, ofTool, found⟩ := Toolset.exists_entry_of_register entered
  refine ⟨entry, ofTool, ?_⟩
  simp [registered, Toolset.ofTools, Toolset.registerAll, entered, found, Except.toOption]

theorem picky_registered : ∃ entry, registered picky = some entry ∧
    entry.parameters = picky.parameters ∧ entry.shapes = .empty ∧
    entry.handler = picky.handler ∧ entry.propagateErrors = true := by
  have given : picky.parameters.isEmpty = false := rfl
  have names : nameParameters picky.parameters =
      [("n", ⟨some "n", .integer .i32, none, true⟩)] := rfl
  have generated : ∃ generated, generateParameters picky.parameters = .ok generated := by
    simp [generateParameters, generateParametersWith, given, names, generateProperties,
      Session.generate, Session.withIndex, generateShape]
  obtain ⟨_, generated⟩ := generated
  have named : isBlank picky.name = false := by decide
  obtain ⟨entry, made, found⟩ := registered_eq_some named generated
  cases made.symm.trans (RegisteredTool.ofTool_eq_ok named generated)
  exact ⟨_, found, rfl, rfl, rfl, rfl⟩

/-- The body of a tool that propagates errors fails, and its failure is contained all the same: its
error is of a kind that is taken for a fault of the model. -/
theorem picky_contained : ∃ entry arguments cause after,
    registered picky = some entry ∧ entry.propagateErrors = true ∧
    entry.bind "" = .ok arguments ∧ entry.answer ⟨"s", 1, []⟩ arguments [] = .error cause ∧
    (observed .silent fun _ => .zero).carryOut entry ⟨"c", "pick", ""⟩ ⟨"s", 1, []⟩
      (⟨[], ()⟩ : ToolWorld RunCounts Unit) =
        some (.ok ⟨⟨"c", "pick", ""⟩, "missing required field 'n'"⟩, after) := by
  obtain ⟨entry, found, parameters, shapes, handler, propagates⟩ := picky_registered
  have bound : entry.bind "" = .ok ⟨[("n", .null)]⟩ := by
    rw [RegisteredTool.bind, parameters, shapes]
    rfl
  have answered : entry.answer ⟨"s", 1, []⟩ ⟨[("n", .null)]⟩ [] = .error (.missingField "n") := by
    rw [RegisteredTool.answer, handler]
    rfl
  obtain ⟨outcome, after, run⟩ : ∃ outcome after,
      (observed .silent fun _ => .zero).carryOut entry ⟨"c", "pick", ""⟩ ⟨"s", 1, []⟩
        (⟨[], ()⟩ : ToolWorld RunCounts Unit) = some (outcome, after) :=
    exists_carryOut Observer.calm_silent _
  refine ⟨entry, _, _, after, found, propagates, bound, answered, ?_⟩
  have settled := outcome_of_carryOut run
  rw [RegisteredTool.attempt_of_bind bound, answered] at settled
  rw [run, settled, RegisteredTool.settle, propagates]
  rfl

end Invoker

end ToolChat
