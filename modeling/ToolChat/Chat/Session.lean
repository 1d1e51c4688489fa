import ToolChat.Chat.Error
import ToolChat.Model.Response

/-!
Chat sessions, policies, and turns before and after they are run.
-/

set_option autoImplicit false

namespace ToolChat

structure ChatSession where
  id : String
  model : String
  systemPrompt : Option String := none
  deriving DecidableEq, Repr

/-- How far a turn may go and how it runs its tools. -/
structure ChatPolicy where
  /-- The tool rounds that a turn may run. -/
  maxToolRounds : Nat := 10
  parallel : Bool := true
  deriving DecidableEq, Repr

def ChatPolicy.objection? (policy : ChatPolicy) : Option ChatError :=
  if policy.maxToolRounds = 0 then
    some (.invalidRequest "max_tool_rounds must be greater than zero")
  else none

/-- A turn to run. The metadata goes to every request and to every tool. -/
structure TurnRequest where
  session : ChatSession
  input : String
  options : GenerationOptions := {}
  metadata : Metadata := []
  deriving DecidableEq

structure TurnResult where
  sessionId : String
  /-- The text of the model; absent when tool results are handed back as they are. -/
  content : Option String
  executions : List CallResult
  /-- The number of requests to the model. -/
  modelRounds : Nat
  messages : List Message
  stopReason : StopReason
  deriving DecidableEq, Repr

def TurnResult.isRaw (result : TurnResult) : Bool :=
  result.content.isNone

inductive ChatEvent where
  | phase (session : ChatSession) (phase : ChatPhase)
  | roundStarted (session : ChatSession) (round : Nat)
  | modelResponded (session : ChatSession) (round : Nat) (response : ModelResponse)
  | toolsExecuted (session : ChatSession) (round : Nat) (results : List CallResult)
  | turnCompleted (session : ChatSession) (result : TurnResult)
  | turnFailed (session : ChatSession) (error : ChatError)
  deriving DecidableEq, Repr

end ToolChat
