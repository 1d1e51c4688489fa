import ToolChat.Model.Provider

/-!
Runs: computations over a world, told about by observers.

The world holds what tool bodies share, what observers keep, and the requests sent so far. What
carries out the calls of tools sees the first two only: a run of tools can be part of a run, and
sends no requests. An observer cannot change the course of a run, except that it may panic: a panic
that nothing catches ends the run without an answer. `Observer.guarded` catches the panics of an
observer, keeping what it had noted by then.
-/

set_option autoImplicit false

namespace ToolChat

/-- What a run of tools reads and changes. -/
structure ToolWorld (σ η : Type) where
  /-- What tool bodies share. -/
  tools : σ
  /-- What observers keep. -/
  observers : η

structure World (σ η : Type) where
  tools : σ
  observers : η
  /-- The requests sent so far, the first one first. -/
  requests : List ModelRequest := []

def World.forTools {σ η : Type} (world : World σ η) : ToolWorld σ η :=
  ⟨world.tools, world.observers⟩

def World.afterTools {σ η : Type} (world : World σ η) (after : ToolWorld σ η) : World σ η :=
  { world with tools := after.tools, observers := after.observers }

/-- A computation that sends no requests; `none` when a panic ended it. -/
abbrev ToolRun (σ η : Type) := StateT (ToolWorld σ η) Option

/-- A computation over a world; `none` when a panic ended it. -/
abbrev Run (σ η : Type) := StateT (World σ η) Option

/-- How an observer reacts: both ways it may have noted something. -/
inductive Reaction (η : Type) where
  | calm (notes : η)
  | panic (notes : η)

def Reaction.notes {η : Type} : Reaction η → η
  | .calm notes => notes
  | .panic notes => notes

/-- An observer of events of type `ε` that keeps notes of type `η`. -/
structure Observer (ε η : Type) where
  notice : ε → η → Reaction η

namespace Observer

variable {ε η : Type}

def silent : Observer ε η := ⟨fun _ notes => .calm notes⟩

/-- The observer that does what `observer` does, without its panics. -/
def guarded (observer : Observer ε η) : Observer ε η :=
  ⟨fun event notes => .calm (observer.notice event notes).notes⟩

end Observer

namespace ToolRun

variable {σ η : Type}

def tell {ε : Type} (observer : Observer ε η) (event : ε) : ToolRun σ η Unit := fun world =>
  match observer.notice event world.observers with
  | .calm notes => some ((), { world with observers := notes })
  | .panic _ => none

def runBody {α : Type} (body : StateM σ α) : ToolRun σ η α := fun world =>
  let (answer, tools) := body.run world.tools
  some (answer, { world with tools })

end ToolRun

namespace Run

variable {σ η : Type}

def ofTools {α : Type} (run : ToolRun σ η α) : Run σ η α := fun world =>
  (run world.forTools).map fun (answer, after) => (answer, world.afterTools after)

def tell {ε : Type} (observer : Observer ε η) (event : ε) : Run σ η Unit :=
  ofTools (ToolRun.tell observer event)

/-- Sends a request and returns all requests sent so far, this one last. -/
def send (request : ModelRequest) : Run σ η (List ModelRequest) := fun world =>
  let requests := world.requests ++ [request]
  some (requests, { world with requests })

end Run

end ToolChat
