import ToolChat.Proofs.Chat.Course
import ToolChat.Proofs.Tool.Simulation

/-!
Turns side by side.

A turn tracks another one if both chats have the same provider and policy, if their tools show the
model the same specifications and run alike, and if telling its observer tracks telling the other
one. Then both send the same requests, take the same course and have the same answer.
-/

set_option autoImplicit false

namespace ToolChat

variable {σ σ' η η' α β : Type} {R : ToolWorld σ η → ToolWorld σ' η' → Prop}

namespace Run

structure Related (R : ToolWorld σ η → ToolWorld σ' η' → Prop) (world : World σ η)
    (other : World σ' η') : Prop where
  forTools : R world.forTools other.forTools
  requests : other.requests = world.requests

theorem tracks_ofTools {run : ToolRun σ η α} {other : ToolRun σ' η' β} {Q : α → β → Prop}
    (h : Tracks R run other Q) : Tracks (Related R) (ofTools run) (ofTools other) Q := by
  intro world world' related a after running
  obtain ⟨_, left, ran, ⟨⟩⟩ := ofTools_eq_some.1 running
  obtain ⟨b, left', ran', answers, kept⟩ := h _ _ related.forTools _ _ ran
  exact ⟨b, world'.afterTools left', ofTools_eq_some.2 ⟨b, left', ran', rfl⟩, answers, kept,
    related.requests⟩

theorem tracks_send (request : ModelRequest) :
    Tracks (Related R) (send request) (send request) Eq := by
  intro world world' related requests after sending
  cases sending
  have same : world'.requests ++ [request] = world.requests ++ [request] :=
    congrArg (· ++ [request]) related.requests
  exact ⟨_, _, rfl, same.symm, related.forTools, same⟩

end Run

namespace Chat

/-- Both chats ask the same provider under the same policy, and the tools and the observer of the
second one track those of the first. -/
structure Mirrors (R : ToolWorld σ η → ToolWorld σ' η' → Prop) (chat : Chat σ η)
    (other : Chat σ' η') : Prop where
  provider : other.provider = chat.provider
  policy : other.policy = chat.policy
  specifications : other.executor.tools.specifications = chat.executor.tools.specifications
  calls : chat.executor.Mirrors R other.executor
  tell : ∀ event, Tracks R (ToolRun.tell chat.observer event) (ToolRun.tell other.observer event)
    Eq

variable {chat : Chat σ η} {other : Chat σ' η'} (h : chat.Mirrors R other) (request : TurnRequest)
include h

theorem Mirrors.told {f : Unit → Run σ η α} {g : Unit → Run σ' η' α} {event : ChatEvent}
    (hf : Tracks (Run.Related R) (f ()) (g ()) Eq) :
    Tracks (Run.Related R) (Run.tell chat.observer event >>= f)
      (Run.tell other.observer event >>= g) Eq :=
  (Run.tracks_ofTools (h.tell event)).andThen fun _ => hf

theorem Mirrors.modelRequest_eq (messages : List Message) :
    other.modelRequest request messages = chat.modelRequest request messages := by
  unfold modelRequest
  rw [h.specifications]

theorem Mirrors.ask (progress : TurnProgress) :
    Tracks (Run.Related R) (chat.ask request progress) (other.ask request progress) Eq := by
  refine h.told (h.told ?_)
  rw [h.modelRequest_eq, h.provider]
  split
  · exact tracks_pure rfl
  · next valid _ =>
    refine (Run.tracks_send valid).andThen fun requests => ?_
    split
    · exact tracks_pure rfl
    · exact h.told (tracks_pure rfl)

theorem Mirrors.runTools (progress : TurnProgress) (calls : List ToolCall) :
    Tracks (Run.Related R) (chat.runTools request progress calls)
      (other.runTools request progress calls) Eq := by
  refine h.told ?_
  rw [h.policy]
  refine (Run.tracks_ofTools (h.calls.runCalls _ _ calls)).andThen fun outcome => ?_
  cases outcome with
  | error e => exact tracks_pure rfl
  | ok executions => exact h.told (tracks_pure rfl)

theorem Mirrors.runRounds (progress : TurnProgress) :
    Tracks (Run.Related R) (chat.runRounds request progress) (other.runRounds request progress)
      Eq := by
  -- The induction is on the tool rounds that the policy still allows.
  induction left : chat.policy.maxToolRounds - progress.toolRounds using Nat.strongRecOn
    generalizing progress with
  | ind n ih =>
    rw [Chat.runRounds, Chat.runRounds]
    refine (h.ask request progress.asking).andThen fun outcome => ?_
    cases outcome with
    | error e => exact tracks_pure rfl
    | ok response =>
      simp only [h.policy]
      split
      · exact tracks_pure rfl
      · split
        · exact tracks_pure rfl
        · next allowed =>
          refine (h.runTools request progress.asking response.calls).andThen fun outcome => ?_
          cases outcome with
          | error e => exact tracks_pure rfl
          | ok executions =>
            dsimp only
            split
            · exact tracks_pure rfl
            · refine ih _ ?_ _ rfl
              simp only [TurnProgress.afterRound, TurnProgress.asking]
              omega

theorem Mirrors.drive :
    Tracks (Run.Related R) (chat.drive request) (other.drive request) Eq := by
  unfold Chat.drive
  rw [h.policy]
  split
  · exact tracks_pure rfl
  · split
    · exact tracks_pure rfl
    · exact h.runRounds request _

theorem Mirrors.runTurn :
    Tracks (Run.Related R) (chat.runTurn request) (other.runTurn request) Eq := by
  refine (h.drive request).andThen fun outcome => ?_
  cases outcome with
  | ok result => exact h.told (h.told (tracks_pure rfl))
  | error e => exact h.told (tracks_pure rfl)

section Courses

variable {request} {start world after : World σ η} {start' world' : World σ' η'}
  {progress next : TurnProgress} {rounds : List Round} {round : Round} {ending : Ending}
  {answer : Except ChatError TurnResult}

theorem Mirrors.completes (related : Run.Related R world world')
    (completes : chat.Completes request progress world round after) :
    ∃ after', other.Completes request progress world' round after' ∧
      Run.Related R after after' := by
  obtain ⟨sent, calls, allowed, heard, asked, ran⟩ := completes
  obtain ⟨_, heard', asked', rfl, related⟩ := h.ask request _ _ _ related _ _ asked
  obtain ⟨_, after', ran', rfl, related⟩ := h.runTools request _ _ _ _ related _ _ ran
  refine ⟨after', ⟨?_, calls, ?_, heard', asked', ran'⟩, related⟩
  · rw [sent, nextRequest, nextRequest, h.modelRequest_eq]
  · rw [h.policy]
    exact allowed

theorem Mirrors.continues (related : Run.Related R world world')
    (step : chat.Continues request progress world round next after) :
    ∃ after', other.Continues request progress world' round next after' ∧
      Run.Related R after after' := by
  obtain ⟨completes, mixed⟩ := step
  obtain ⟨after', completes', related⟩ := h.completes related completes
  exact ⟨after', .round completes' mixed, related⟩

theorem Mirrors.reaches (related : Run.Related R start start')
    (reaches : chat.Reaches request start rounds progress world) :
    ∃ world', other.Reaches request start' rounds progress world' ∧
      Run.Related R world world' := by
  induction reaches with
  | start => exact ⟨start', .start, related⟩
  | round _ step ih =>
    obtain ⟨world', reaches', related⟩ := ih
    obtain ⟨after', step', related⟩ := h.continues related step
    exact ⟨after', reaches'.round step', related⟩

theorem Mirrors.ends (related : Run.Related R world world')
    (ends : chat.Ends request progress world ending answer after) :
    ∃ after', other.Ends request progress world' ending answer after' ∧
      Run.Related R after after' := by
  have next : other.nextRequest request progress = chat.nextRequest request progress :=
    h.modelRequest_eq request _
  have asking : ∀ {outcome heard},
      chat.ask request progress.asking world = some (outcome, heard) →
      ∃ heard', other.ask request progress.asking world' = some (outcome, heard') ∧
        Run.Related R heard heard' := by
    intro outcome heard asked
    obtain ⟨_, heard', asked', rfl, related⟩ := h.ask request _ _ _ related _ _ asked
    exact ⟨heard', asked', related⟩
  cases ends with
  | refused asked unsent =>
    obtain ⟨after', asked', left⟩ := asking asked
    have unsent' : after'.requests = world'.requests := by
      rw [left.requests, unsent, related.requests]
    exact ⟨after', .refused asked' unsent', left⟩
  | unanswered asked sent =>
    obtain ⟨after', asked', left⟩ := asking asked
    have sent' : after'.requests = world'.requests ++ [other.nextRequest request progress] := by
      rw [left.requests, sent, related.requests, next]
    exact ⟨after', next ▸ .unanswered asked' sent', left⟩
  | answered asked text =>
    obtain ⟨after', asked', left⟩ := asking asked
    exact ⟨after', next ▸ .answered asked' text, left⟩
  | exhausted asked calls spent =>
    obtain ⟨after', asked', left⟩ := asking asked
    rw [← h.policy] at spent ⊢
    exact ⟨after', next ▸ .exhausted asked' calls spent, left⟩
  | failed asked calls allowed ran =>
    obtain ⟨heard', asked', left⟩ := asking asked
    obtain ⟨_, after', ran', rfl, left⟩ := h.runTools request _ _ _ _ left _ _ ran
    rw [← h.policy] at allowed
    exact ⟨after', next ▸ .failed asked' calls allowed ran', left⟩
  | handedBack completes raw =>
    obtain ⟨after', completes', left⟩ := h.completes related completes
    exact ⟨after', .handedBack completes' raw, left⟩

/-- Both turns take the same course. -/
theorem Mirrors.takes {course : Course} (related : Run.Related R start start')
    (takes : chat.Takes request start course answer after) :
    ∃ after', other.Takes request start' course answer after' ∧ Run.Related R after after' := by
  have rejection : other.rejection? request = chat.rejection? request := by
    unfold rejection?
    rw [h.policy]
  cases takes with
  | rejected rejected => exact ⟨start', .rejected (rejection ▸ rejected), related⟩
  | rounds accepted reaches ends =>
    obtain ⟨world', reaches', related⟩ := h.reaches related reaches
    obtain ⟨after', ends', related⟩ := h.ends related ends
    exact ⟨after', .rounds (rejection ▸ accepted) reaches' ends', related⟩

end Courses

end Chat

end ToolChat
