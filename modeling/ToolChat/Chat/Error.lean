import ToolChat.Model.Provider
import ToolChat.Tool.Error

/-!
What goes wrong in a chat.
-/

set_option autoImplicit false

namespace ToolChat

/-- Where a turn is in its round protocol. -/
inductive ChatPhase where
  | awaitingModel
  | executingTools
  | terminal
  deriving DecidableEq, Repr

def ChatPhase.label : ChatPhase → String
  | .awaitingModel => "AwaitingModel"
  | .executingTools => "ExecutingTools"
  | .terminal => "Terminal"

inductive ChatError.Kind where
  | invalidRequest
  | provider
  /-- A tool that propagates errors failed. -/
  | tooling
  /-- The tools could not be registered. -/
  | registry
  | maxRoundsExceeded
  deriving DecidableEq, Repr

def ChatError.Kind.label : ChatError.Kind → String
  | .invalidRequest => "InvalidRequest"
  | .provider => "Provider"
  | .tooling => "Tooling"
  | .registry => "Registry"
  | .maxRoundsExceeded => "MaxRoundsExceeded"

/-- A chat error, with the phase it arose in and the tool that caused it. -/
structure ChatError where
  kind : ChatError.Kind
  message : String
  phase : Option ChatPhase := none
  toolName : Option String := none
  toolErrorKind : Option ToolError.Kind := none
  deriving DecidableEq, Repr

namespace ChatError

def invalidRequest (message : String) : ChatError :=
  { kind := .invalidRequest, message }

/-- The model was still asking for tools after all its tool rounds. -/
def maxRoundsExceeded (rounds : Nat) : ChatError :=
  { kind := .maxRoundsExceeded
    message := "model kept requesting tools after " ++ toString rounds ++ " tool rounds" }

def ofProviderError (e : ProviderError) : ChatError :=
  { kind := .provider, message := e.text, phase := some .awaitingModel }

/-- A tool failed and its failure was propagated. -/
def ofToolError (e : ToolError) : ChatError :=
  { kind := .tooling
    message := e.text
    phase := some .executingTools
    toolName := e.toolName
    toolErrorKind := some e.kind }

def ofRegistration (e : ToolError) : ChatError :=
  { kind := .registry
    message := e.text
    toolName := e.toolName
    toolErrorKind := some e.kind }

def isUserError (e : ChatError) : Bool :=
  e.kind == .invalidRequest

/-- The error as one line of text. A tool is named only together with a phase. -/
def text (e : ChatError) : String :=
  match e.phase, e.toolName with
  | some phase, some tool =>
    e.kind.label ++ " [phase=" ++ phase.label ++ ", tool=" ++ tool ++ "]: " ++ e.message
  | some phase, none => e.kind.label ++ " [phase=" ++ phase.label ++ "]: " ++ e.message
  | none, _ => e.kind.label ++ ": " ++ e.message

end ChatError

end ToolChat
