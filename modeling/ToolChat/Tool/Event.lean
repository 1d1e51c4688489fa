import ToolChat.Tool.Call
import ToolChat.Tool.Error

/-!
What observers of tools are told.
-/

set_option autoImplicit false

namespace ToolChat

inductive ToolEvent where
  | started (call : ToolCall) (context : Context)
  | succeeded (call : ToolCall) (context : Context) (result : CallResult) (elapsed : Duration)
  | failed (call : ToolCall) (context : Context) (error : ToolError) (elapsed : Duration)
  deriving DecidableEq, Repr

end ToolChat
