import ToolChat.Chat.Turn
import ToolChat.Proofs.Tool.Notes

/-!
What a turn leaves as it is.

An invariant of what runs of tools see is kept by a turn if telling its observer and running its
calls keep it. Nothing else in a turn touches what tools share or what observers have noted.
-/

set_option autoImplicit false

namespace ToolChat

variable {σ η α : Type} {I : ToolWorld σ η → Prop}

theorem Run.preserves_ofTools {run : ToolRun σ η α} {P : α → Prop} (h : Preserves I run P) :
    Preserves (fun world : World σ η => I world.forTools) (Run.ofTools run) P := by
  intro world holds a after running
  obtain ⟨_, left, ran, ⟨⟩⟩ := Run.ofTools_eq_some.1 running
  exact h _ holds _ _ ran

theorem Run.preserves_send (request : ModelRequest) :
    Preserves (fun world : World σ η => I world.forTools) (Run.send request) fun _ => True := by
  rintro world holds a after ⟨⟩
  exact ⟨holds, trivial⟩

namespace Chat

variable {chat : Chat σ η}
  (tell : ∀ event, Preserves I (ToolRun.tell chat.observer event) fun _ => True)
include tell

private theorem preserves_told {f : Unit → Run σ η α} {event : ChatEvent}
    (hf : Preserves (fun world : World σ η => I world.forTools) (f ()) fun _ => True) :
    Preserves (fun world : World σ η => I world.forTools)
      (Run.tell chat.observer event >>= f) fun _ => True :=
  (Run.preserves_ofTools (tell event)).bind fun _ _ => hf

theorem preserves_ask (request : TurnRequest) (progress : TurnProgress) :
    Preserves (fun world : World σ η => I world.forTools) (chat.ask request progress)
      fun _ => True := by
  refine preserves_told tell (preserves_told tell ?_)
  split
  · exact preserves_pure trivial
  · next valid _ =>
    refine (Run.preserves_send valid).bind fun requests _ => ?_
    split
    · exact preserves_pure trivial
    · exact preserves_told tell (preserves_pure trivial)

variable (calls : ∀ context parallel calls,
  Preserves I (chat.executor.runCalls context parallel calls) fun _ => True)
include calls

theorem preserves_runTools (request : TurnRequest) (progress : TurnProgress)
    (asked : List ToolCall) :
    Preserves (fun world : World σ η => I world.forTools) (chat.runTools request progress asked)
      fun _ => True := by
  refine preserves_told tell ?_
  refine (Run.preserves_ofTools (calls _ _ asked)).bind fun outcome _ => ?_
  cases outcome with
  | error e => exact preserves_pure trivial
  | ok executions => exact preserves_told tell (preserves_pure trivial)

theorem preserves_runRounds (request : TurnRequest) (progress : TurnProgress) :
    Preserves (fun world : World σ η => I world.forTools) (chat.runRounds request progress)
      fun _ => True := by
  -- The induction is on the tool rounds that the policy still allows.
  induction left : chat.policy.maxToolRounds - progress.toolRounds using Nat.strongRecOn
    generalizing progress with
  | ind n ih =>
    rw [runRounds]
    refine (preserves_ask tell request progress.asking).bind fun outcome _ => ?_
    cases outcome with
    | error e => exact preserves_pure trivial
    | ok response =>
      dsimp only
      split
      · exact preserves_pure trivial
      · split
        · exact preserves_pure trivial
        · next allowed =>
          refine (preserves_runTools tell calls request progress.asking response.calls).bind
            fun outcome _ => ?_
          cases outcome with
          | error e => exact preserves_pure trivial
          | ok executions =>
            dsimp only
            split
            · exact preserves_pure trivial
            · refine ih _ ?_ _ rfl
              simp only [TurnProgress.afterRound, TurnProgress.asking]
              omega

theorem preserves_runTurn (request : TurnRequest) :
    Preserves (fun world : World σ η => I world.forTools) (chat.runTurn request)
      fun _ => True := by
  have drive : Preserves (fun world : World σ η => I world.forTools) (chat.drive request)
      fun _ => True := by
    unfold Chat.drive
    split
    · exact preserves_pure trivial
    · split
      · exact preserves_pure trivial
      · exact preserves_runRounds tell calls request _
  refine drive.bind fun outcome _ => ?_
  cases outcome with
  | ok result => exact preserves_told tell (preserves_told tell (preserves_pure trivial))
  | error e => exact preserves_told tell (preserves_pure trivial)

end Chat

end ToolChat
