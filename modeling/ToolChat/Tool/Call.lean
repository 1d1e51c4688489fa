import ToolChat.Text.Dictionary

/-!
Calls of tools, the context they run in, and their results.
-/

set_option autoImplicit false

namespace ToolChat

/-- Texts under keys, in ascending key order. -/
abbrev Metadata := List (String × String)

/-- A request of a model to run a tool. The arguments are the text that the model sent. -/
structure ToolCall where
  id : String
  name : String
  arguments : String
  deriving DecidableEq, Repr

structure Context where
  session : String
  /-- The tool round within the turn, counted from one. -/
  round : Nat := 1
  metadata : Metadata := []
  deriving DecidableEq, Repr

/-- A call and the text that goes back to the model. -/
structure CallResult where
  call : ToolCall
  text : String
  deriving DecidableEq, Repr

/-- A result and whether its tool asks for it to be handed back as it is. -/
structure Execution where
  result : CallResult
  raw : Bool
  deriving DecidableEq, Repr

/-- A span of time in nanoseconds. -/
structure Duration where
  nanoseconds : Nat
  deriving DecidableEq, Repr

def Duration.zero : Duration := ⟨0⟩

def Duration.ofMicroseconds (n : Nat) : Duration := ⟨n * 1000⟩

def Duration.milliseconds (d : Duration) : Nat := d.nanoseconds / 1000000

end ToolChat
