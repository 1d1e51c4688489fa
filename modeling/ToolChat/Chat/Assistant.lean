import ToolChat.Chat.Turn
import ToolChat.Observe.Basic

/-!
Assistants: a provider, a model and a fixed set of tools, ready to answer.

The tools are registered once, when the assistant is built; a blank model, a policy that allows no
tool round, or a tool that cannot be registered stop that.
-/

set_option autoImplicit false

namespace ToolChat

variable {σ η : Type}

/-- What an assistant is built from. -/
structure AssistantPlan (σ η : Type) where
  provider : Provider
  model : String
  sessionId : String := "default"
  systemPrompt : Option String := none
  tools : List (Tool σ) := []
  policy : ChatPolicy := {}
  options : GenerationOptions := {}
  observers : Observers η := {}
  stopwatch : ToolCall → Duration := fun _ => .zero

/-- A chat with a session and options for the turns that are run with it. -/
structure Assistant (σ η : Type) where
  chat : Chat σ η
  session : ChatSession
  options : GenerationOptions

namespace AssistantPlan

def chat (plan : AssistantPlan σ η) : Except ToolError (Chat σ η) :=
  (Toolset.ofTools plan.tools).map fun tools =>
    { provider := plan.provider
      executor := ⟨tools, .observed plan.observers.tools plan.stopwatch⟩
      policy := plan.policy
      observer := plan.observers.chat }

def session (plan : AssistantPlan σ η) : ChatSession :=
  ⟨plan.sessionId, plan.model, plan.systemPrompt⟩

def build (plan : AssistantPlan σ η) : Except ChatError (Assistant σ η) :=
  if isBlank plan.model then .error (.invalidRequest "model must not be empty")
  else match plan.policy.objection? with
    | some e => .error e
    | none =>
      match plan.chat with
      | .error e => .error (.ofRegistration e)
      | .ok chat => .ok { chat, session := plan.session, options := plan.options }

end AssistantPlan

namespace Assistant

def turn (assistant : Assistant σ η) (input : String) (metadata : Metadata := []) :
    Run σ η (Except ChatError TurnResult) :=
  assistant.chat.runTurn ⟨assistant.session, input, assistant.options, metadata⟩

def turnIn (assistant : Assistant σ η) (sessionId input : String) :
    Run σ η (Except ChatError TurnResult) :=
  assistant.chat.runTurn
    ⟨{ assistant.session with id := sessionId }, input, assistant.options, []⟩

end Assistant

end ToolChat
