import Mathlib.Algebra.GroupWithZero.Nat
import Mathlib.Data.List.Basic
import ToolChat.Proofs.Chat.Isolation
import ToolChat.Proofs.Tool.Brackets

/-!
Totals of metrics.

The total of a metric is taken over all its samples with some labels, so it is summed over the
labels that are not mentioned. Totals add up when logs do and do not depend on the order of a log.
Metering logs the samples of all that it is told, and those of a call that has ended are balanced.
-/

set_option autoImplicit false

namespace ToolChat

def LogEntry.counts (metric : String) (labels : List (String × String)) : LogEntry → Bool
  | .sample (.count name own) => name = metric ∧ ∀ label ∈ labels, label ∈ own
  | _ => false

def LogEntry.records (metric : String) (labels : List (String × String)) : LogEntry → Bool
  | .sample (.value name own _) => name = metric ∧ ∀ label ∈ labels, label ∈ own
  | _ => false

namespace Log

def counted (log : Log) (metric : String) (labels : List (String × String)) : Nat :=
  log.countP (LogEntry.counts metric labels)

def recorded (log : Log) (metric : String) (labels : List (String × String)) : Nat :=
  log.countP (LogEntry.records metric labels)

variable {log more : Log} {metric : String} {labels : List (String × String)}

@[simp]
theorem counted_nil : counted [] metric labels = 0 := rfl

@[simp]
theorem recorded_nil : recorded [] metric labels = 0 := rfl

@[simp]
theorem counted_cons (entry : LogEntry) : counted (entry :: log) metric labels =
    counted log metric labels + if entry.counts metric labels then 1 else 0 :=
  List.countP_cons

@[simp]
theorem recorded_cons (entry : LogEntry) : recorded (entry :: log) metric labels =
    recorded log metric labels + if entry.records metric labels then 1 else 0 :=
  List.countP_cons

@[simp]
theorem counted_append :
    counted (log ++ more) metric labels = counted log metric labels + counted more metric labels :=
  List.countP_append

@[simp]
theorem recorded_append : recorded (log ++ more) metric labels =
    recorded log metric labels + recorded more metric labels :=
  List.countP_append

theorem counted_eq_of_perm (same : log.Perm more) :
    counted log metric labels = counted more metric labels :=
  same.countP_eq _

theorem recorded_eq_of_perm (same : log.Perm more) :
    recorded log metric labels = recorded more metric labels :=
  same.countP_eq _

end Log

/-- The samples of something that happened to a call, as metering logs them. -/
def ToolEvent.samples (event : ToolEvent) : Log :=
  (Sample.ofToolEvent event).map .sample

def ChatEvent.samples (event : ChatEvent) : Log :=
  (Sample.ofChatEvent event).map .sample

namespace Notice

def samples : Notice → Log
  | .tool event => event.samples
  | .chat event => event.samples

def tool? : Notice → Option ToolEvent
  | .tool event => some event
  | .chat _ => none

def chat? : Notice → Option ChatEvent
  | .tool _ => none
  | .chat event => some event

theorem samples_perm (told : List Notice) : (told.flatMap samples).Perm
    ((told.filterMap tool?).flatMap ToolEvent.samples ++
      (told.filterMap chat?).flatMap ChatEvent.samples) := by
  induction told with
  | nil => exact .nil
  | cons notice told ih =>
    rw [List.flatMap_cons]
    refine (ih.append_left _).trans ?_
    cases notice with
    | tool event =>
      have tools : (tool event :: told).filterMap tool? = event :: told.filterMap tool? := rfl
      have chats : (tool event :: told).filterMap chat? = told.filterMap chat? := rfl
      rw [tools, chats, List.flatMap_cons, List.append_assoc]
      exact .refl _
    | chat event =>
      have tools : (chat event :: told).filterMap tool? = told.filterMap tool? := rfl
      have chats : (chat event :: told).filterMap chat? = event :: told.filterMap chat? := rfl
      rw [tools, chats, List.flatMap_cons, ← List.append_assoc, ← List.append_assoc]
      exact List.perm_append_comm.append_right _

end Notice

theorem Observers.foldl_metering (told : List Notice) (log : Log) :
    told.foldl metering.keeps log = log ++ told.flatMap Notice.samples := by
  induction told generalizing log with
  | nil => exact (List.append_nil log).symm
  | cons notice told ih =>
    have logged : metering.keeps log notice = log ++ notice.samples := by cases notice <;> rfl
    rw [List.foldl_cons, ih, logged, List.append_assoc, List.flatMap_cons]

def ToolError.kinds : List ToolError.Kind :=
  [.notFound, .invalidArguments, .argumentCoercion, .missingField, .execution, .duplicateName,
    .invalidDefinition, .schema]

/-- Of each tool as many calls have ended as have started, well or with an error of some kind, and
as many durations are recorded. -/
structure Log.CallsEnded (log : Log) : Prop where
  ends : ∀ name,
    log.counted "fassistant_tool_execution_start_total" [("tool_name", name)] =
      log.counted "fassistant_tool_execution_success_total" [("tool_name", name)] +
        (ToolError.kinds.map fun kind => log.counted "fassistant_tool_execution_failure_total"
          [("tool_name", name), ("error_kind", kind.label)]).sum
  durations : ∀ name,
    log.counted "fassistant_tool_execution_start_total" [("tool_name", name)] =
      log.recorded "fassistant_tool_execution_duration_seconds" [("tool_name", name)]

namespace Log.CallsEnded

variable {log more : Log}

theorem nil : CallsEnded [] :=
  ⟨fun _ => rfl, fun _ => rfl⟩

theorem append (h : log.CallsEnded) (hm : more.CallsEnded) : CallsEnded (log ++ more) := by
  constructor
  · intro name
    simp only [counted_append, h.ends, hm.ends, ToolError.kinds, List.map_cons, List.map_nil,
      List.sum_cons, List.sum_nil]
    omega
  · intro name
    rw [counted_append, recorded_append, h.durations, hm.durations]

theorem perm (h : log.CallsEnded) (same : log.Perm more) : more.CallsEnded := by
  constructor
  · intro name
    simp only [← counted_eq_of_perm same]
    exact h.ends name
  · intro name
    rw [← counted_eq_of_perm same, ← recorded_eq_of_perm same]
    exact h.durations name

theorem flatten {traces : List (List ToolEvent)}
    (each : ∀ trace ∈ traces, CallsEnded (trace.flatMap ToolEvent.samples)) :
    CallsEnded (traces.flatten.flatMap ToolEvent.samples) := by
  induction traces with
  | nil => exact nil
  | cons trace traces ih =>
    obtain ⟨first, rest⟩ := List.forall_mem_cons.1 each
    rw [List.flatten_cons, List.flatMap_append]
    exact first.append (ih rest)

end Log.CallsEnded

theorem callsEnded_succeeded (context : Context) (call : ToolCall) (result : CallResult)
    (elapsed : Duration) :
    Log.CallsEnded ([.started call context, .succeeded call context result elapsed].flatMap
      ToolEvent.samples) := by
  constructor
  · intro name
    simp [ToolEvent.samples, Sample.ofToolEvent, LogEntry.counts, ToolError.kinds]
  · intro name
    simp [ToolEvent.samples, Sample.ofToolEvent, LogEntry.counts, LogEntry.records]

theorem callsEnded_failed (context : Context) (call : ToolCall) (e : ToolError)
    (elapsed : Duration) :
    Log.CallsEnded ([.started call context, .failed call context e elapsed].flatMap
      ToolEvent.samples) := by
  constructor
  · intro name
    -- The label of the error is that of one kind.
    cases kind : e.kind <;>
      simp [ToolEvent.samples, Sample.ofToolEvent, LogEntry.counts, ToolError.kinds,
        ToolError.Kind.label, kind]
  · intro name
    simp [ToolEvent.samples, Sample.ofToolEvent, LogEntry.counts, LogEntry.records]

theorem Brackets.callsEnded {context : Context} {call : ToolCall}
    {outcome : Except ToolError Execution} {told : List ToolEvent}
    (h : Brackets context call outcome told) :
    Log.CallsEnded (told.flatMap ToolEvent.samples) := by
  cases h with
  | succeeded text elapsed raw => exact callsEnded_succeeded context call _ elapsed
  | captured e elapsed raw => exact callsEnded_failed context call e elapsed
  | propagated e elapsed => exact callsEnded_failed context call e elapsed

theorem BracketsInTurn.callsEnded {context : Context} {calls : List ToolCall}
    {outcome : Except ToolError (List Execution)} {told : List ToolEvent}
    (h : BracketsInTurn context calls outcome told) :
    Log.CallsEnded (told.flatMap ToolEvent.samples) := by
  induction h with
  | done => exact .nil
  | stopped last => exact last.callsEnded
  | next first _ ih =>
    rw [List.flatMap_append]
    exact first.callsEnded.append ih

namespace Executor

variable {σ η : Type} {executor : Executor σ η} {observer : Observer ToolEvent η}
  {stopwatch : ToolCall → Duration} {events : η → List ToolEvent}
  (plain : executor.invoker = .observed observer stopwatch) (records : observer.Records events)
  (context : Context)
include plain records

theorem RunsInterleaved.callsEnded {calls : List ToolCall} {world after : ToolWorld σ η}
    {outcome : Except ToolError (List Execution)}
    (h : executor.RunsInterleaved context calls world outcome after) :
    ∃ told, events after.observers = events world.observers ++ told ∧
      Log.CallsEnded (told.flatMap ToolEvent.samples) := by
  obtain ⟨pairs, answers, told, -, -, extended, shuffles, brackets⟩ :=
    RunsInterleaved.tells plain records context h
  have both := brackets.imp fun _ _ bracket => And.intro bracket.callsEnded bracket
  obtain ⟨ended, -⟩ := (List.forall₂_and_left pairs answers).1 both
  have each : ∀ trace ∈ pairs.map (·.2), Log.CallsEnded (trace.flatMap ToolEvent.samples) :=
    List.forall_mem_map.2 ended
  have shuffled := (shuffles.perm.flatMap_right ToolEvent.samples).symm
  exact ⟨told, extended, (Log.CallsEnded.flatten each).perm shuffled⟩

/-- However its calls are run, in a round as many calls end as start, also if it fails. -/
theorem callsEnded_of_runCalls (parallel : Bool) (calls : List ToolCall) :
    Tells (fun world : ToolWorld σ η => events world.observers)
      (executor.runCalls context parallel calls) fun _ told =>
        Log.CallsEnded (told.flatMap ToolEvent.samples) := by
  cases parallel with
  | false =>
    exact (tells_runInTurn plain records context calls).mono fun _ _ told => told.callsEnded
  | true =>
    exact fun world outcome after run => RunsInterleaved.callsEnded plain records context
      (runsInterleaved_of_runTogether run)

end Executor

end ToolChat
