import ToolChat.Run

/-!
Computations that give way to others before they finish.

A stage is either done or stays pending for some more polls; the poll after those runs what is left.
`Stage.join` polls stages in their order, again and again, until each has its answer.
-/

set_option autoImplicit false

namespace ToolChat

variable {σ η : Type}

/-- A computation that takes several polls. -/
inductive Stage (σ η α : Type) where
  | done (answer : α)
  /-- It stays pending for `polls` more polls; the one after them finishes it. -/
  | pending (polls : Nat) (finish : ToolRun σ η α)

namespace Stage

variable {α β : Type}

def polls : Stage σ η α → Nat
  | .done _ => 0
  | .pending polls _ => polls

def poll : Stage σ η α → ToolRun σ η (Stage σ η α)
  | .done answer => pure (.done answer)
  | .pending 0 finish => do return .done (← finish)
  | .pending (polls + 1) finish => pure (.pending polls finish)

/-- Polls a computation until it has its answer. -/
def complete : Stage σ η α → ToolRun σ η α
  | .done answer => pure answer
  | .pending _ finish => finish

def map (f : α → β) : Stage σ η α → Stage σ η β
  | .done answer => .done (f answer)
  | .pending polls finish => .pending polls do return f (← finish)

/-- Polls computations together `rounds` times and then completes them in order. -/
def settle : (rounds : Nat) → List (Stage σ η α) → ToolRun σ η (List α)
  | 0, stages => stages.mapM complete
  | rounds + 1, stages => do settle rounds (← stages.mapM poll)

/-- Polls computations together until each has its answer. -/
def join (stages : List (Stage σ η α)) : ToolRun σ η (List α) :=
  settle ((stages.map polls).foldl max 0) stages

end Stage

end ToolChat
