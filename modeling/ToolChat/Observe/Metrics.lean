import ToolChat.Chat.Session
import ToolChat.Number.Layout
import ToolChat.Run
import ToolChat.Tool.Event

/-!
Metric samples.

A sample counts one occurrence or records one value, under a name and labels. Calls are counted when
they start and when they end, and their durations recorded; turns, rounds and answers likewise.
-/

set_option autoImplicit false

namespace ToolChat

/-- A span in seconds: the whole seconds and the rest, each rounded, and their rounded sum. -/
def Duration.seconds (d : Duration) : Double :=
  let whole : Double := .ofNat (d.nanoseconds / 1000000000)
  let rest : Double := .ofRatio false (d.nanoseconds % 1000000000) 1000000000
  match whole, rest with
  | .finite x, .finite y => x.addMagnitudes y
  | _, _ => whole

inductive Sample where
  /-- One more occurrence. -/
  | count (name : String) (labels : List (String × String))
  /-- One value of a distribution. -/
  | value (name : String) (labels : List (String × String)) (x : Double)
  deriving DecidableEq

namespace Sample

def ofToolEvent : ToolEvent → List Sample
  | .started call _ => [.count "fassistant_tool_execution_start_total" [("tool_name", call.name)]]
  | .succeeded call _ _ elapsed =>
    [.count "fassistant_tool_execution_success_total" [("tool_name", call.name)],
      .value "fassistant_tool_execution_duration_seconds"
        [("tool_name", call.name), ("status", "success")] elapsed.seconds]
  | .failed call _ e elapsed =>
    [.count "fassistant_tool_execution_failure_total"
        [("tool_name", call.name), ("error_kind", e.kind.label)],
      .value "fassistant_tool_execution_duration_seconds"
        [("tool_name", call.name), ("status", "failure")] elapsed.seconds]

def ofChatEvent : ChatEvent → List Sample
  | .phase _ _ => []
  | .roundStarted session _ => [.count "fassistant_chat_rounds_total" [("model", session.model)]]
  | .modelResponded session _ response =>
    [.count "fassistant_chat_model_responses_total"
      [("model", session.model), ("stop_reason", response.stopReason.label)]]
  | .toolsExecuted session _ results =>
    [.value "fassistant_chat_tool_calls_per_round" [("model", session.model)]
      (.ofNat results.length)]
  | .turnCompleted session result =>
    [.count "fassistant_chat_turn_complete_total"
        [("model", session.model), ("outcome", if result.isRaw then "raw" else "summarized")],
      .value "fassistant_chat_model_rounds_per_turn" [("model", session.model)]
        (.ofNat result.modelRounds)]
  | .turnFailed session e =>
    [.count "fassistant_chat_turn_failure_total"
      [("model", session.model), ("error_kind", e.kind.label)]]

end Sample

end ToolChat
