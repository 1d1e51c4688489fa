import ToolChat.Chat.Assistant
import ToolChat.Inspect.Basic

/-!
Inspecting assistants.
-/

set_option autoImplicit false

namespace ToolChat

def ChatSession.view (session : ChatSession) : View :=
  .record "ChatSession"
    [("id", .tuple "SessionId" [.quoted session.id]), ("model", .quoted session.model),
      ("system_prompt", .option .quoted session.systemPrompt)] false

def GenerationOptions.view (options : GenerationOptions) : View :=
  .record "GenerationOptions"
    [("temperature", .option .number options.temperature),
      ("max_tokens", .option .count options.maxTokens)] false

def ChatPolicy.view (policy : ChatPolicy) : View :=
  .record "ChatPolicy"
    [("max_tool_rounds", .count policy.maxToolRounds),
      ("parallel_tool_execution", .flag policy.parallel)] false

/-- The view of an assistant; of its tools only the names are shown. -/
def Assistant.view {σ η : Type} (assistant : Assistant σ η) : View :=
  .record "Assistant"
    [("session", assistant.session.view), ("options", assistant.options.view),
      ("policy", assistant.chat.policy.view),
      ("tools", .list (assistant.chat.executor.tools.names.map .quoted))] false

end ToolChat
