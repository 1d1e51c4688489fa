import ToolChat.Model.Response
import ToolChat.Number.Binary
import ToolChat.Text.Blank
import ToolChat.Tool.Specification

/-!
Requests to a model, and who answers them.
-/

set_option autoImplicit false

namespace ToolChat

inductive ProviderError.Kind where
  | authentication
  | invalidRequest
  | invalidResponse
  | transport
  | unavailable
  | other
  deriving DecidableEq, Repr

def ProviderError.Kind.label : ProviderError.Kind → String
  | .authentication => "Authentication"
  | .invalidRequest => "InvalidRequest"
  | .invalidResponse => "InvalidResponse"
  | .transport => "Transport"
  | .unavailable => "Unavailable"
  | .other => "Other"

structure ProviderError where
  kind : ProviderError.Kind
  message : String
  deriving DecidableEq, Repr

def ProviderError.text (e : ProviderError) : String :=
  e.kind.label ++ ": " ++ e.message

structure GenerationOptions where
  temperature : Option Single := none
  maxTokens : Option Nat := none
  deriving DecidableEq

/-- The settings of `changes` where it has any, else those of `options`. -/
def GenerationOptions.changedBy (options changes : GenerationOptions) : GenerationOptions :=
  ⟨changes.temperature <|> options.temperature, changes.maxTokens <|> options.maxTokens⟩

structure ModelRequest where
  model : String
  messages : List Message
  options : GenerationOptions := {}
  tools : List Specification := []
  metadata : Metadata := []

namespace ModelRequest

def objection? (r : ModelRequest) : Option String :=
  if isBlank r.model then some "model must not be empty"
  else if r.messages.isEmpty then some "at least one message is required"
  else if r.options.maxTokens = some 0 then some "max_tokens must be greater than zero"
  else if r.options.temperature.any (!·.between0And 2) then
    some "temperature must be in the inclusive range 0.0..=2.0"
  else none

def validated (r : ModelRequest) : Except ProviderError ModelRequest :=
  match r.objection? with
  | none => .ok r
  | some message => .error ⟨.invalidRequest, message⟩

theorem validated_of_objection?_eq_none {r : ModelRequest} (h : r.objection? = none) :
    r.validated = .ok r := by
  simp only [validated, h]

theorem validated_of_objection?_eq_some {r : ModelRequest} {message : String}
    (h : r.objection? = some message) : r.validated = .error ⟨.invalidRequest, message⟩ := by
  simp only [validated, h]

end ModelRequest

/-- Who answers requests: a function of all requests so far, the latest one last. -/
abbrev Provider := List ModelRequest → Except ProviderError ModelResponse

/-- The provider that goes through the steps of a script. With `repeatLast` the last step is never
used up. -/
def Provider.scripted (repeatLast : Bool)
    (steps : List (ModelRequest → Except ProviderError ModelResponse)) : Provider :=
  fun requests =>
    let position := requests.length - 1
    let position := if repeatLast then min position (steps.length - 1) else position
    match steps[position]?, requests.getLast? with
    | some step, some request => step request
    | _, _ => .error ⟨.invalidResponse, "script exhausted"⟩

end ToolChat
