import Mathlib.Data.List.Forall2
import ToolChat.Run

/-!
Runs step by step.

A computation meets a property if each of its answers has it and a panic ends it only where panics
are allowed for. What is met passes through sequencing, so it is read off a computation from the
leaves upwards.
-/

set_option autoImplicit false

namespace ToolChat

section Sequencing

variable {ς α β : Type} {mayPanic : Prop}

theorem bind_eq_some {x : StateT ς Option α} {f : α → StateT ς Option β} {s : ς} {r : β × ς} :
    (x >>= f) s = some r ↔ ∃ a s', x s = some (a, s') ∧ f a s' = some r := by
  change (x s).bind (fun p => f p.1 p.2) = some r ↔ _
  simp only [Option.bind_eq_some_iff, Prod.exists]

theorem bind_of_eq_some {x : StateT ς Option α} {f : α → StateT ς Option β} {s s' : ς} {a : α}
    (h : x s = some (a, s')) : (x >>= f) s = f a s' := by
  change (x s).bind (fun p => f p.1 p.2) = f a s'
  rw [h, Option.bind_some]

theorem pure_eq_some {a : α} {s : ς} {r : α × ς} :
    (pure a : StateT ς Option α) s = some r ↔ r = (a, s) := by
  change some (a, s) = some r ↔ _
  rw [Option.some.injEq, eq_comm]

/-- Every answer has a property, and no panic takes the place of an answer unless one may. -/
def Meets (mayPanic : Prop) (x : StateT ς Option α) (P : α → Prop) : Prop :=
  ∀ s, (x s = none → mayPanic) ∧ ∀ a s', x s = some (a, s') → P a

theorem Meets.exists_eq_some {x : StateT ς Option α} {P : α → Prop} (h : Meets False x P) (s : ς) :
    ∃ r, x s = some r :=
  Option.ne_none_iff_exists'.1 (h s).1

theorem Meets.mono {x : StateT ς Option α} {P Q : α → Prop} (h : Meets mayPanic x P)
    (imp : ∀ a, P a → Q a) : Meets mayPanic x Q :=
  fun s => ⟨(h s).1, fun a s' ha => imp a ((h s).2 a s' ha)⟩

theorem meets_pure {a : α} {P : α → Prop} (h : P a) :
    Meets mayPanic (pure a : StateT ς Option α) P := by
  refine fun s => ⟨nofun, fun b s' hb => ?_⟩
  cases pure_eq_some.1 hb
  exact h

theorem Meets.bind {x : StateT ς Option α} {f : α → StateT ς Option β} {P : α → Prop}
    {Q : β → Prop} (hx : Meets mayPanic x P) (hf : ∀ a, P a → Meets mayPanic (f a) Q) :
    Meets mayPanic (x >>= f) Q := by
  refine fun s => ⟨fun hn => ?_, fun b s'' hb => ?_⟩
  · cases hs : x s with
    | none => exact (hx s).1 hs
    | some r =>
      obtain ⟨a, s'⟩ := r
      refine (hf a ((hx s).2 a s' hs) s').1 ?_
      change (x s).bind (fun p => f p.1 p.2) = none at hn
      rwa [hs] at hn
  · obtain ⟨a, s', ha, hb⟩ := bind_eq_some.1 hb
    exact (hf a ((hx s).2 a s' ha) s').2 b s'' hb

theorem meets_mapM {γ : Type} {f : α → StateT ς Option β} {R : γ → α → Prop} {Q : γ → β → Prop}
    {xs : List γ} {as : List α} (h : List.Forall₂ R xs as)
    (hf : ∀ x a, R x a → Meets mayPanic (f a) (Q x)) :
    Meets mayPanic (as.mapM f) (List.Forall₂ Q xs) := by
  induction h with
  | nil => exact meets_pure .nil
  | cons hR _ ih =>
    rw [List.mapM_cons]
    exact (hf _ _ hR).bind fun b hb => ih.bind fun bs hbs => meets_pure (.cons hb hbs)

end Sequencing

def Observer.Calm {ε η : Type} (observer : Observer ε η) : Prop :=
  ∀ event notes, ∃ kept, observer.notice event notes = .calm kept

theorem Observer.calm_silent {ε η : Type} : (silent : Observer ε η).Calm :=
  fun _ notes => ⟨notes, rfl⟩

theorem Observer.calm_guarded {ε η : Type} (observer : Observer ε η) : observer.guarded.Calm :=
  fun event notes => ⟨(observer.notice event notes).notes, rfl⟩

variable {σ η ε α : Type} {mayPanic : Prop}

theorem ToolRun.meets_tell {observer : Observer ε η} (calm : ¬mayPanic → observer.Calm)
    (event : ε) : Meets mayPanic (tell observer event : ToolRun σ η Unit) fun _ => True := by
  refine fun world => ⟨fun hn => ?_, fun _ _ _ => trivial⟩
  by_contra h
  obtain ⟨kept, hk⟩ := calm h event world.observers
  simp only [tell, hk] at hn
  cases hn

theorem ToolRun.meets_runBody (body : StateM σ α) :
    Meets mayPanic (runBody body : ToolRun σ η α) fun _ => True :=
  fun _ => ⟨nofun, fun _ _ _ => trivial⟩

namespace Run

theorem ofTools_eq_some {run : ToolRun σ η α} {world : World σ η} {r : α × World σ η} :
    ofTools run world = some r ↔
      ∃ a after, run world.forTools = some (a, after) ∧ r = (a, world.afterTools after) := by
  simp only [ofTools, Option.map_eq_some_iff, Prod.exists, @eq_comm _ r]

theorem meets_ofTools {run : ToolRun σ η α} {P : α → Prop} (h : Meets mayPanic run P) :
    Meets mayPanic (ofTools run) P := by
  refine fun world => ⟨fun hn => (h world.forTools).1 (Option.map_eq_none_iff.1 hn), ?_⟩
  intro a after ha
  obtain ⟨_, _, hrun, ⟨⟩⟩ := ofTools_eq_some.1 ha
  exact (h world.forTools).2 _ _ hrun

theorem meets_tell {observer : Observer ε η} (calm : ¬mayPanic → observer.Calm) (event : ε) :
    Meets mayPanic (tell observer event : Run σ η Unit) fun _ => True :=
  meets_ofTools (ToolRun.meets_tell calm event)

theorem meets_send (request : ModelRequest) :
    Meets mayPanic (send request : Run σ η (List ModelRequest)) fun _ => True :=
  fun _ => ⟨nofun, fun _ _ _ => trivial⟩

theorem requests_of_ofTools {run : ToolRun σ η α} {world after : World σ η} {a : α}
    (h : ofTools run world = some (a, after)) : after.requests = world.requests := by
  obtain ⟨_, _, _, ⟨⟩⟩ := ofTools_eq_some.1 h
  rfl

theorem requests_of_tell {observer : Observer ε η} {event : ε} {world after : World σ η}
    (h : tell observer event world = some ((), after)) : after.requests = world.requests :=
  requests_of_ofTools h

theorem tools_of_tell {observer : Observer ε η} {event : ε} {world after : World σ η}
    (h : tell observer event world = some ((), after)) : after.tools = world.tools := by
  obtain ⟨_, toolsAfter, hrun, ⟨⟩⟩ := ofTools_eq_some.1 h
  unfold ToolRun.tell at hrun
  split at hrun
  · cases hrun
    rfl
  · cases hrun

end Run

end ToolChat
