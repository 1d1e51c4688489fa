import ToolChat.Chat.Session
import ToolChat.Run
import ToolChat.Tool.Event

/-!
Trace lines.

Every event makes one line: a level and fields in a fixed order. A failure that the model is to
blame for is a warning and says nothing about time; any other failure is an error.
-/

set_option autoImplicit false

namespace ToolChat

inductive TraceLevel where
  | debug
  | info
  | warn
  | error
  deriving DecidableEq, Repr

def TraceLevel.label : TraceLevel → String
  | .debug => "DEBUG"
  | .info => "INFO"
  | .warn => "WARN"
  | .error => "ERROR"

structure TraceLine where
  level : TraceLevel
  fields : List (String × String)
  deriving DecidableEq, Repr

namespace TraceLine

/-- The fields that every line about a call begins with. -/
def callFields (event : String) (call : ToolCall) (context : Context) :
    List (String × String) :=
  [("phase", "tool"), ("event", event), ("tool_name", call.name), ("tool_call_id", call.id),
    ("session_id", context.session), ("round", toString context.round)]

def ofToolEvent : ToolEvent → TraceLine
  | .started call context => ⟨.info, callFields "execution_start" call context⟩
  | .succeeded call context result elapsed =>
    ⟨.info, callFields "execution_success" call context ++
      [("result_len", toString result.text.utf8ByteSize),
        ("elapsed_ms", toString elapsed.milliseconds)]⟩
  | .failed call context e elapsed =>
    if e.isUserError then
      ⟨.warn, callFields "execution_rejected" call context ++
        [("error_kind", e.kind.label), ("error", e.text)]⟩
    else
      ⟨.error, callFields "execution_failure" call context ++
        [("elapsed_ms", toString elapsed.milliseconds), ("error_kind", e.kind.label),
          ("error", e.text)]⟩

def phaseText : Option ChatPhase → String
  | none => "None"
  | some phase => "Some(" ++ phase.label ++ ")"

def ofChatEvent : ChatEvent → TraceLine
  | .phase session phase =>
    ⟨.debug, [("phase", "chat"), ("event", "phase"), ("chat_phase", phase.label),
      ("session_id", session.id)]⟩
  | .roundStarted session round =>
    ⟨.info, [("phase", "chat"), ("event", "round_start"), ("session_id", session.id),
      ("model", session.model), ("round", toString round)]⟩
  | .modelResponded session round response =>
    ⟨.info, [("phase", "chat"), ("event", "model_response"), ("session_id", session.id),
      ("round", toString round), ("stop_reason", response.stopReason.label),
      ("tool_calls", toString response.calls.length)]⟩
  | .toolsExecuted session round results =>
    ⟨.info, [("phase", "chat"), ("event", "tools_executed"), ("session_id", session.id),
      ("tool_round", toString round), ("results", toString results.length)]⟩
  | .turnCompleted session result =>
    ⟨.info, [("phase", "chat"), ("event", "turn_complete"), ("session_id", session.id),
      ("model_rounds", toString result.modelRounds),
      ("tool_executions", toString result.executions.length),
      ("raw", if result.isRaw then "true" else "false")]⟩
  | .turnFailed session e =>
    ⟨.error, [("phase", "chat"), ("event", "turn_failure"), ("session_id", session.id),
      ("chat_phase", phaseText e.phase), ("error_kind", e.kind.label), ("error", e.text)]⟩

end TraceLine

end ToolChat
