import Mathlib.Data.List.Forall2
import Mathlib.Data.Option.Basic
import ToolChat.Proofs.Run
import ToolChat.Tool.Executor

/-!
Rounds of calls side by side.

One computation tracks another if, from related states, it answers whenever the other one does, and
leaves the states related. A round tracks another round call by call and poll by poll, provided
that telling its observer tracks telling the other one, and that the bodies of its tools track those
of the other tools.
-/

set_option autoImplicit false

namespace ToolChat

section Sequencing

variable {ς τ α α' β β' : Type} {R : ς → τ → Prop}

/-- From related states the second computation answers whenever the first one does. The answers are
related, and so are the states after them. -/
def Tracks (R : ς → τ → Prop) (x : StateT ς Option α) (y : StateT τ Option α')
    (Q : α → α' → Prop) : Prop :=
  ∀ s t, R s t → ∀ a s', x s = some (a, s') → ∃ b t', y t = some (b, t') ∧ Q a b ∧ R s' t'

theorem tracks_pure {a : α} {b : α'} {Q : α → α' → Prop} (h : Q a b) :
    Tracks R (pure a) (pure b) Q := by
  intro s t related c s' hc
  cases pure_eq_some.1 hc
  exact ⟨b, t, rfl, h, related⟩

theorem Tracks.bind {x : StateT ς Option α} {y : StateT τ Option α'} {P : α → α' → Prop}
    {f : α → StateT ς Option β} {g : α' → StateT τ Option β'} {Q : β → β' → Prop}
    (hx : Tracks R x y P) (hf : ∀ a b, P a b → Tracks R (f a) (g b) Q) :
    Tracks R (x >>= f) (y >>= g) Q := by
  intro s t related c s'' hc
  obtain ⟨a, s', ha, hc⟩ := bind_eq_some.1 hc
  obtain ⟨b, t', hb, answers, related⟩ := hx s t related a s' ha
  rw [bind_of_eq_some hb]
  exact hf a b answers s' t' related c s'' hc

theorem Tracks.andThen {x : StateT ς Option α} {y : StateT τ Option α}
    {f : α → StateT ς Option β} {g : α → StateT τ Option β'} {Q : β → β' → Prop}
    (hx : Tracks R x y Eq) (hf : ∀ a, Tracks R (f a) (g a) Q) :
    Tracks R (x >>= f) (y >>= g) Q := by
  refine hx.bind ?_
  rintro a _ rfl
  exact hf a

theorem tracks_mapM {f : α → StateT ς Option β} {g : α' → StateT τ Option β'}
    {P : α → α' → Prop} {Q : β → β' → Prop} (hf : ∀ a b, P a b → Tracks R (f a) (g b) Q)
    {as : List α} {bs : List α'} (h : List.Forall₂ P as bs) :
    Tracks R (as.mapM f) (bs.mapM g) (List.Forall₂ Q) := by
  induction h with
  | nil => exact tracks_pure .nil
  | cons first _ ih =>
    rw [List.mapM_cons, List.mapM_cons]
    exact (hf _ _ first).bind fun _ _ ha => ih.bind fun _ _ has => tracks_pure (.cons ha has)

end Sequencing

variable {σ σ' η η' α β : Type} {R : ToolWorld σ η → ToolWorld σ' η' → Prop}

namespace Stage

inductive Tracks (R : ToolWorld σ η → ToolWorld σ' η' → Prop) :
    Stage σ η α → Stage σ' η' α → Prop
  | done (answer : α) : Tracks R (.done answer) (.done answer)
  | pending (polls : Nat) {finish : ToolRun σ η α} {other : ToolRun σ' η' α}
      (tracks : ToolChat.Tracks R finish other Eq) :
      Tracks R (.pending polls finish) (.pending polls other)

variable {stage : Stage σ η α} {other : Stage σ' η' α}

theorem Tracks.polls_eq (h : stage.Tracks R other) : stage.polls = other.polls := by
  cases h <;> rfl

theorem Tracks.map (h : stage.Tracks R other) (f : α → β) :
    (stage.map f).Tracks R (other.map f) := by
  cases h with
  | done answer => exact .done (f answer)
  | pending polls tracks =>
    exact .pending polls (tracks.andThen fun answer => tracks_pure rfl)

theorem Tracks.complete (h : stage.Tracks R other) :
    ToolChat.Tracks R stage.complete other.complete Eq := by
  cases h with
  | done answer => exact tracks_pure rfl
  | pending polls tracks => exact tracks

theorem Tracks.poll (h : stage.Tracks R other) :
    ToolChat.Tracks R stage.poll other.poll (Stage.Tracks R) := by
  cases h with
  | done answer => exact tracks_pure (.done answer)
  | pending polls tracks =>
    cases polls with
    | zero => exact tracks.andThen fun answer => tracks_pure (.done answer)
    | succ polls => exact tracks_pure (.pending polls tracks)

variable {stages : List (Stage σ η α)} {others : List (Stage σ' η' α)}

theorem tracks_settle (rounds : Nat) (h : List.Forall₂ (Stage.Tracks R) stages others) :
    ToolChat.Tracks R (settle rounds stages) (settle rounds others) Eq := by
  induction rounds generalizing stages others with
  | zero =>
    have completed : ToolChat.Tracks R (stages.mapM complete) (others.mapM complete)
        (List.Forall₂ Eq) := tracks_mapM (fun _ _ hs => hs.complete) h
    rwa [List.forall₂_eq_eq_eq] at completed
  | succ rounds ih =>
    have polled : ToolChat.Tracks R (stages.mapM poll) (others.mapM poll)
        (List.Forall₂ (Stage.Tracks R)) := tracks_mapM (fun _ _ hs => hs.poll) h
    exact polled.bind fun _ _ hs => ih hs

theorem tracks_join (h : List.Forall₂ (Stage.Tracks R) stages others) :
    ToolChat.Tracks R (join stages) (join others) Eq := by
  have polls : stages.map Stage.polls = others.map Stage.polls := by
    have each := h.imp fun _ _ hs => hs.polls_eq
    rw [← List.forall₂_eq_eq_eq]
    exact List.forall₂_map_left_iff.2 (List.forall₂_map_right_iff.2 each)
  unfold join
  rw [polls]
  exact tracks_settle _ h

end Stage

/-- Two entries that bind alike, where the body of the second one tracks that of the first. -/
structure RegisteredTool.Alike (R : ToolWorld σ η → ToolWorld σ' η' → Prop)
    (entry : RegisteredTool σ) (other : RegisteredTool σ') : Prop where
  bind : other.bind = entry.bind
  returnRaw : other.returnRaw = entry.returnRaw
  propagateErrors : other.propagateErrors = entry.propagateErrors
  delay : other.handler.delay = entry.handler.delay
  body : ∀ arguments context, Tracks R (ToolRun.runBody (entry.handler.body arguments context))
    (ToolRun.runBody (other.handler.body arguments context)) Eq

theorem RegisteredTool.alike_self {R : ToolWorld σ η → ToolWorld σ η' → Prop}
    (tools : ∀ world other, R world other → other.tools = world.tools)
    (change : ∀ world other shared, R world other →
      R { world with tools := shared } { other with tools := shared })
    (entry : RegisteredTool σ) : entry.Alike R entry := by
  refine ⟨rfl, rfl, rfl, rfl, fun arguments context => ?_⟩
  rintro world other related answer after ⟨⟩
  refine ⟨_, _, ?_, rfl, change _ _ _ related⟩
  unfold ToolRun.runBody
  rw [tools world other related]
  rfl

namespace Invoker

variable {observer : Observer ToolEvent η} {other : Observer ToolEvent η'}
  {stopwatch timer : ToolCall → Duration} {entry : RegisteredTool σ} {entry' : RegisteredTool σ'}

-- The two invokers may measure different times, so an event is given as a function of its time.
variable (tell : ∀ (call : ToolCall) (event : Duration → ToolEvent),
  Tracks R (ToolRun.tell observer (event (stopwatch call)))
    (ToolRun.tell other (event (timer call))) Eq)
include tell

theorem tracks_conclude (alike : entry.Alike R entry') (call : ToolCall) (context : Context)
    (outcome : Except ToolError Output) :
    Tracks R (conclude observer (stopwatch call) entry call context outcome)
      (conclude other (timer call) entry' call context outcome) Eq := by
  cases outcome with
  | ok output =>
    refine (tell call (.succeeded call context ⟨call, output.toText⟩)).andThen fun _ => ?_
    exact tracks_pure rfl
  | error e =>
    refine (tell call (.failed call context _)).andThen fun _ => ?_
    rw [alike.propagateErrors]
    split
    · exact tracks_pure rfl
    · exact tracks_pure rfl

theorem tracks_invoke (alike : entry.Alike R entry') (call : ToolCall) (context : Context) :
    Tracks R ((observed observer stopwatch).invoke entry call context)
      ((observed other timer).invoke entry' call context) (Stage.Tracks R) := by
  refine (tell call fun _ => .started call context).andThen fun _ => ?_
  rw [alike.bind, alike.delay]
  cases entry.bind call.arguments with
  | error e =>
    exact (tracks_conclude tell alike call context (.error e)).andThen fun answer =>
      tracks_pure (.done answer)
  | ok arguments =>
    have finish := (alike.body arguments context).andThen fun outcome =>
      tracks_conclude tell alike call context outcome
    dsimp only
    cases entry.handler.delay arguments context with
    | zero => exact finish.andThen fun answer => tracks_pure (.done answer)
    | succ polls => exact tracks_pure (.pending polls finish)

theorem tracks_unknown (call : ToolCall) (context : Context) :
    Tracks R ((observed observer stopwatch : Invoker σ η).unknown call context)
      ((observed other timer : Invoker σ' η').unknown call context) Eq := by
  refine (tell call fun _ => .started call context).andThen fun _ => ?_
  refine (tell call fun _ => .failed call context _ .zero).andThen fun _ => ?_
  exact tracks_pure rfl

end Invoker

namespace Executor

structure Mirrors (R : ToolWorld σ η → ToolWorld σ' η' → Prop) (executor : Executor σ η)
    (other : Executor σ' η') : Prop where
  tools : ∀ name, Option.Rel (RegisteredTool.Alike R) (executor.tools.get? name)
    (other.tools.get? name)
  invoke : ∀ entry entry', RegisteredTool.Alike R entry entry' → ∀ call context,
    Tracks R (executor.invoker.invoke entry call context)
      (other.invoker.invoke entry' call context) (Stage.Tracks R)
  unknown : ∀ call context, Tracks R (executor.invoker.unknown call context)
    (other.invoker.unknown call context) Eq

variable {executor : Executor σ η} {other : Executor σ' η'} (h : executor.Mirrors R other)
  (context : Context)
include h

theorem Mirrors.start (call : ToolCall) :
    Tracks R (executor.start context call) (other.start context call) (Stage.Tracks R) := by
  unfold Executor.start
  have known := h.tools call.name
  generalize executor.tools.get? call.name = found at known
  generalize other.tools.get? call.name = found' at known
  cases known with
  | none => exact (h.unknown call context).andThen fun result => tracks_pure (.done _)
  | some alike =>
    refine (h.invoke _ _ alike call context).bind fun stage stage' hs => ?_
    rw [alike.returnRaw]
    exact tracks_pure (hs.map _)

theorem Mirrors.runCall (call : ToolCall) :
    Tracks R (executor.runCall context call) (other.runCall context call) Eq :=
  (h.start context call).bind fun _ _ hs => hs.complete

theorem Mirrors.runInTurn (calls : List ToolCall) :
    Tracks R (executor.runInTurn context calls) (other.runInTurn context calls) Eq := by
  induction calls with
  | nil => exact tracks_pure rfl
  | cons call calls ih =>
    refine (h.runCall context call).andThen fun outcome => ?_
    cases outcome with
    | error e => exact tracks_pure rfl
    | ok execution =>
      refine ih.andThen fun outcomes => ?_
      cases outcomes with
      | error e => exact tracks_pure rfl
      | ok executions => exact tracks_pure rfl

theorem Mirrors.runTogether (calls : List ToolCall) :
    Tracks R (executor.runTogether context calls) (other.runTogether context calls) Eq := by
  have same : List.Forall₂ Eq calls calls := List.forall₂_eq_eq_eq ▸ rfl
  have started : Tracks R (calls.mapM (executor.start context)) (calls.mapM (other.start context))
      (List.Forall₂ (Stage.Tracks R)) := by
    refine tracks_mapM ?_ same
    rintro call _ rfl
    exact h.start context call
  refine started.bind fun stages stages' hs => (Stage.tracks_join hs).andThen fun answers => ?_
  exact tracks_pure rfl

theorem Mirrors.runCalls (parallel : Bool) (calls : List ToolCall) :
    Tracks R (executor.runCalls context parallel calls) (other.runCalls context parallel calls)
      Eq := by
  unfold Executor.runCalls
  split
  · exact h.runTogether context calls
  · exact h.runInTurn context calls

end Executor

end ToolChat
