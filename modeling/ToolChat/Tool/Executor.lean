import ToolChat.Stage
import ToolChat.Tool.Event
import ToolChat.Tool.Toolset

/-!
Running calls.

The first poll of a call binds its arguments, and either has the answer at once or leaves a stage
that stays pending. A sequential round takes one call after the other and stops at the first error.
A parallel round polls all its calls together; of several errors it returns the one of the first
call in the order of the request.

Faults become results: an unknown tool, arguments that cannot be bound and a failing body all answer
with the message of the error. Only the failure of a tool that propagates errors, and only if the
model is not to blame, is an error of the run.
-/

set_option autoImplicit false

namespace ToolChat

variable {σ η : Type}

/-- How calls are carried out. -/
structure Invoker (σ η : Type) where
  /-- Polls the call of a registered tool for the first time. -/
  invoke : RegisteredTool σ → ToolCall → Context →
    ToolRun σ η (Stage σ η (Except ToolError CallResult))
  /-- Answers a call of a tool that is not registered. -/
  unknown : ToolCall → Context → ToolRun σ η CallResult

namespace Invoker

/-- The outcome of a call of a registered tool, told to the observer. -/
def conclude (observer : Observer ToolEvent η) (elapsed : Duration) (entry : RegisteredTool σ)
    (call : ToolCall) (context : Context) :
    Except ToolError Output → ToolRun σ η (Except ToolError CallResult)
  | .ok output => do
    let result : CallResult := ⟨call, output.toText⟩
    ToolRun.tell observer (.succeeded call context result elapsed)
    return .ok result
  | .error e => do
    let e := { e with toolName := some call.name, callId := some call.id }
    ToolRun.tell observer (.failed call context e elapsed)
    if entry.propagateErrors && !e.isUserError then return .error e
    else return .ok ⟨call, e.message⟩

/-- The invoker that binds arguments, runs the body and tells an observer. The stopwatch says how
long a call takes. -/
def observed (observer : Observer ToolEvent η) (stopwatch : ToolCall → Duration) :
    Invoker σ η where
  invoke entry call context := do
    ToolRun.tell observer (.started call context)
    match entry.bind call.arguments with
    | .error e =>
      return .done (← conclude observer (stopwatch call) entry call context (.error e))
    | .ok arguments =>
      let finish := do
        let outcome ← ToolRun.runBody (entry.handler.body arguments context)
        conclude observer (stopwatch call) entry call context outcome
      match entry.handler.delay arguments context with
      | 0 => return .done (← finish)
      | polls + 1 => return .pending polls finish
  unknown call context := do
    let e := { ToolError.notFound call.name with callId := some call.id }
    ToolRun.tell observer (.started call context)
    ToolRun.tell observer (.failed call context e .zero)
    return ⟨call, e.message⟩

/-- An invoker that is its own judge of calls of registered tools and reports nothing. -/
def unobserved
    (invoke : RegisteredTool σ → ToolCall → Context → ToolRun σ η (Except ToolError CallResult)) :
    Invoker σ η where
  invoke entry call context := do return .done (← invoke entry call context)
  unknown call _ := return ⟨call, (ToolError.notFound call.name).message⟩

end Invoker

structure Executor (σ η : Type) where
  tools : Toolset σ
  invoker : Invoker σ η

namespace Executor

def start (executor : Executor σ η) (context : Context) (call : ToolCall) :
    ToolRun σ η (Stage σ η (Except ToolError Execution)) :=
  match executor.tools.get? call.name with
  | none => do return .done (.ok ⟨← executor.invoker.unknown call context, false⟩)
  | some entry => do
    let stage ← executor.invoker.invoke entry call context
    return stage.map fun outcome => outcome.map fun result => ⟨result, entry.returnRaw⟩

def runCall (executor : Executor σ η) (context : Context) (call : ToolCall) :
    ToolRun σ η (Except ToolError Execution) := do
  (← executor.start context call).complete

/-- Runs calls one after the other, up to the first error. -/
def runInTurn (executor : Executor σ η) (context : Context) :
    List ToolCall → ToolRun σ η (Except ToolError (List Execution))
  | [] => return .ok []
  | call :: calls => do
    match ← executor.runCall context call with
    | .error e => return .error e
    | .ok execution =>
      match ← executor.runInTurn context calls with
      | .error e => return .error e
      | .ok executions => return .ok (execution :: executions)

/-- All answers, or the first error among them. -/
def firstError {α : Type} : List (Except ToolError α) → Except ToolError (List α)
  | [] => .ok []
  | .error e :: _ => .error e
  | .ok answer :: answers => (firstError answers).map (answer :: ·)

def runTogether (executor : Executor σ η) (context : Context) (calls : List ToolCall) :
    ToolRun σ η (Except ToolError (List Execution)) := do
  let stages ← calls.mapM (executor.start context)
  return firstError (← Stage.join stages)

/-- Runs the calls of one answer; executions come in the order of the calls. -/
def runCalls (executor : Executor σ η) (context : Context) (parallel : Bool)
    (calls : List ToolCall) : ToolRun σ η (Except ToolError (List Execution)) :=
  if parallel then executor.runTogether context calls else executor.runInTurn context calls

def run (executor : Executor σ η) (context : Context) (call : ToolCall) :
    Run σ η (Except ToolError Execution) :=
  Run.ofTools (executor.runCall context call)

def runRound (executor : Executor σ η) (context : Context) (parallel : Bool)
    (calls : List ToolCall) : Run σ η (Except ToolError (List Execution)) :=
  Run.ofTools (executor.runCalls context parallel calls)

end Executor

end ToolChat
