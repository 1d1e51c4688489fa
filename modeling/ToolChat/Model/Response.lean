import ToolChat.Model.Message

/-!
What a model answers.
-/

set_option autoImplicit false

namespace ToolChat

inductive ResponsePart where
  | message (m : Message)
  | call (c : ToolCall)
  deriving DecidableEq, Repr

inductive StopReason where
  | endTurn
  | maxTokens
  | toolUse
  | cancelled
  | other
  deriving DecidableEq, Repr

def StopReason.label : StopReason → String
  | .endTurn => "EndTurn"
  | .maxTokens => "MaxTokens"
  | .toolUse => "ToolUse"
  | .cancelled => "Cancelled"
  | .other => "Other"

structure ModelResponse where
  model : String
  parts : List ResponsePart
  stopReason : StopReason
  deriving DecidableEq, Repr

namespace ModelResponse

def ofText (model content : String) : ModelResponse :=
  ⟨model, [.message { role := .assistant, content }], .endTurn⟩

def ofCalls (model : String) (calls : List ToolCall) : ModelResponse :=
  ⟨model, calls.map .call, .toolUse⟩

def text (r : ModelResponse) : String :=
  String.join (r.parts.filterMap fun
    | .message m => if m.role = .assistant then some m.content else none
    | .call _ => none)

def calls (r : ModelResponse) : List ToolCall :=
  r.parts.filterMap fun
    | .message _ => none
    | .call c => some c

end ModelResponse

end ToolChat
