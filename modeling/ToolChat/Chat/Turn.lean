import ToolChat.Chat.Session
import ToolChat.Tool.Executor

/-!
Turns of a chat.

A turn sends the history to the provider. An answer without calls ends it. Otherwise every call is
run, the results are appended in the order of the calls, and the history is sent again, unless every
tool run so far in the turn returns raw: then the results go back to the caller. Before each tool
round the number of those run so far is compared with what the policy allows; the difference is what
bounds the recursion.
-/

set_option autoImplicit false

namespace ToolChat

variable {σ η : Type}

/-- A provider and tools, ready to run turns. -/
structure Chat (σ η : Type) where
  provider : Provider
  executor : Executor σ η
  policy : ChatPolicy := {}
  observer : Observer ChatEvent η := .silent

structure TurnProgress where
  messages : List Message
  executions : List CallResult := []
  /-- The requests to the model so far. -/
  modelRounds : Nat := 0
  /-- The tool rounds run so far. -/
  toolRounds : Nat := 0
  /-- Whether every tool run so far returns raw. -/
  allRaw : Bool := true

namespace TurnProgress

def initial (request : TurnRequest) : TurnProgress :=
  let opening := match request.session.systemPrompt with
    | some prompt => [{ role := .system, content := prompt }]
    | none => []
  { messages := opening ++ [{ role := .user, content := request.input }] }

def asking (progress : TurnProgress) : TurnProgress :=
  { progress with modelRounds := progress.modelRounds + 1 }

def afterRound (progress : TurnProgress) (text : String) (calls : List ToolCall)
    (executions : List Execution) : TurnProgress :=
  let results := executions.map (·.result)
  { messages := progress.messages ++ .request text calls :: results.map (·.toMessage)
    executions := progress.executions ++ results
    modelRounds := progress.modelRounds
    toolRounds := progress.toolRounds + 1
    allRaw := progress.allRaw && executions.all (·.raw) }

def answered (progress : TurnProgress) (request : TurnRequest) (text : String)
    (stopReason : StopReason) : TurnResult where
  sessionId := request.session.id
  content := some text
  executions := progress.executions
  modelRounds := progress.modelRounds
  messages := progress.messages ++ [{ role := .assistant, content := text }]
  stopReason

/-- The result of a turn that ends with the results of its tools. -/
def handedBack (progress : TurnProgress) (request : TurnRequest) : TurnResult where
  sessionId := request.session.id
  content := none
  executions := progress.executions
  modelRounds := progress.modelRounds
  messages := progress.messages
  stopReason := .toolUse

end TurnProgress

namespace Chat

def modelRequest (chat : Chat σ η) (request : TurnRequest)
    (messages : List Message) : ModelRequest where
  model := request.session.model
  messages
  options := request.options
  tools := chat.executor.tools.specifications
  metadata := request.metadata

def ask (chat : Chat σ η) (request : TurnRequest) (progress : TurnProgress) :
    Run σ η (Except ChatError ModelResponse) := do
  Run.tell chat.observer (.phase request.session .awaitingModel)
  Run.tell chat.observer (.roundStarted request.session progress.modelRounds)
  match (chat.modelRequest request progress.messages).validated with
  | .error e =>
    return .error { ChatError.invalidRequest e.message with phase := some .awaitingModel }
  | .ok modelRequest =>
    match chat.provider (← Run.send modelRequest) with
    | .error e => return .error (.ofProviderError e)
    | .ok response =>
      Run.tell chat.observer (.modelResponded request.session progress.modelRounds response)
      return .ok response

def runTools (chat : Chat σ η) (request : TurnRequest) (progress : TurnProgress)
    (calls : List ToolCall) : Run σ η (Except ChatError (List Execution)) := do
  let round := progress.toolRounds + 1
  Run.tell chat.observer (.phase request.session .executingTools)
  let context : Context := ⟨request.session.id, round, request.metadata⟩
  match ← chat.executor.runRound context chat.policy.parallel calls with
  | .error e => return .error (.ofToolError e)
  | .ok executions =>
    Run.tell chat.observer
      (.toolsExecuted request.session round (executions.map (·.result)))
    return .ok executions

/-- Runs rounds until the turn ends. -/
def runRounds (chat : Chat σ η) (request : TurnRequest) (progress : TurnProgress) :
    Run σ η (Except ChatError TurnResult) := do
  match ← chat.ask request progress.asking with
  | .error e => return .error e
  | .ok response =>
    if response.calls.isEmpty then
      return .ok (progress.asking.answered request response.text response.stopReason)
    else if _spent : chat.policy.maxToolRounds ≤ progress.toolRounds then
      let e := ChatError.maxRoundsExceeded chat.policy.maxToolRounds
      return .error { e with phase := some .executingTools }
    else
      match ← chat.runTools request progress.asking response.calls with
      | .error e => return .error e
      | .ok executions =>
        let next := progress.asking.afterRound response.text response.calls executions
        if next.allRaw then return .ok (next.handedBack request)
        else chat.runRounds request next
termination_by chat.policy.maxToolRounds - progress.toolRounds
decreasing_by
  simp only [TurnProgress.afterRound, TurnProgress.asking]
  omega

/-- Checks the input and the policy and runs the rounds of a turn. -/
def drive (chat : Chat σ η) (request : TurnRequest) :
    Run σ η (Except ChatError TurnResult) :=
  if isBlank request.input then
    return .error (.invalidRequest "user_input must not be empty")
  else match chat.policy.objection? with
    | some e => return .error e
    | none => chat.runRounds request (.initial request)

def runTurn (chat : Chat σ η) (request : TurnRequest) :
    Run σ η (Except ChatError TurnResult) := do
  match ← chat.drive request with
  | .ok result =>
    Run.tell chat.observer (.phase request.session .terminal)
    Run.tell chat.observer (.turnCompleted request.session result)
    return .ok result
  | .error e =>
    Run.tell chat.observer (.turnFailed request.session e)
    return .error e

end Chat

end ToolChat
