import ToolChat.Tool.Call

/-!
Messages of a conversation with a model.
-/

set_option autoImplicit false

namespace ToolChat

inductive Role where
  | system
  | user
  | assistant
  | tool
  deriving DecidableEq, Repr

def Role.label : Role → String
  | .system => "System"
  | .user => "User"
  | .assistant => "Assistant"
  | .tool => "Tool"

structure Message where
  role : Role
  content : String
  /-- The calls that an assistant asks for. -/
  calls : List ToolCall := []
  /-- The call that a tool answers. -/
  answers : Option String := none
  deriving DecidableEq, Repr

namespace Message

def request (content : String) (calls : List ToolCall) : Message :=
  { role := .assistant, content, calls }

def answer (callId content : String) : Message :=
  { role := .tool, content, answers := some callId }

end Message

def CallResult.toMessage (r : CallResult) : Message :=
  .answer r.call.id r.text

end ToolChat
