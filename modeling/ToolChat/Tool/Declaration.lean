import ToolChat.Argument.Arguments
import ToolChat.Shape.Basic
import ToolChat.Tool.Call
import ToolChat.Tool.Output

/-!
Declarations of tools.

A tool body is a function of its arguments and its context that may read and change what all tool
bodies share. Before it runs it may give way to other calls a number of times.
-/

set_option autoImplicit false

namespace ToolChat

structure Handler (σ : Type) where
  /-- How many times the body gives way to other calls before it runs. -/
  delay : Arguments → Context → Nat := fun _ _ => 0
  /-- What the body does, over the state that tool bodies share. -/
  body : Arguments → Context → StateM σ (Except ToolError Output)

structure Tool (σ : Type) where
  name : String
  description : Option String := none
  parameters : List Parameter := []
  handler : Handler σ
  /-- Whether results may be handed to the caller without another request to the model. -/
  returnRaw : Bool := false
  /-- Whether failures of the body go to the caller instead of the model. -/
  propagateErrors : Bool := false

end ToolChat
