import ToolChat.Observe.Log
import ToolChat.Proofs.Chat.Course
import ToolChat.Proofs.Chat.Simulation
import ToolChat.Tool.Stock

/-!
What observers cannot change.

A turn whose observers are guarded gives the answer, sends the requests and runs the bodies of tools
that it does with silent ones, whatever the observers keep and whenever they panic. They are told
the same things in the same order as observers that never panic, those after a panic included. Every
such turn tracks one whose observers note all that they are told.
-/

set_option autoImplicit false

namespace ToolChat

variable {σ σ' η η' α β ε : Type}

inductive Notice where
  | tool (event : ToolEvent)
  | chat (event : ChatEvent)
  deriving DecidableEq

def Observer.noting (notice : ε → Notice) : Observer ε (List Notice) :=
  ⟨fun event notes => .calm (notes ++ [notice event])⟩

namespace Observers

def notice (observers : Observers η) : Notice → η → Reaction η
  | .tool event => observers.tools.notice event
  | .chat event => observers.chat.notice event

/-- What is kept after a notice, whether or not it ends in a panic. -/
def keeps (observers : Observers η) (notes : η) (notice : Notice) : η :=
  (observers.notice notice notes).notes

def noting : Observers (List Notice) :=
  ⟨.noting .tool, .noting .chat⟩

structure Calm (observers : Observers η) : Prop where
  tools : observers.tools.Calm
  chat : observers.chat.Calm

theorem calm_silent : (silent : Observers η).Calm :=
  ⟨Observer.calm_silent, Observer.calm_silent⟩

theorem calm_guarded (observers : Observers η) : observers.guarded.Calm :=
  ⟨observers.tools.calm_guarded, observers.chat.calm_guarded⟩

theorem calm_noting : noting.Calm :=
  ⟨fun _ _ => ⟨_, rfl⟩, fun _ _ => ⟨_, rfl⟩⟩

theorem keeps_guarded (observers : Observers η) : observers.guarded.keeps = observers.keeps := by
  funext notes notice
  cases notice <;> rfl

theorem foldl_silent (told : List Notice) (notes : η) :
    told.foldl silent.keeps notes = notes := by
  induction told with
  | nil => rfl
  | cons notice told ih =>
    have unchanged : silent.keeps notes notice = notes := by cases notice <;> rfl
    rw [List.foldl_cons, unchanged, ih]

theorem foldl_noting (told notes : List Notice) :
    told.foldl noting.keeps notes = notes ++ told := by
  induction told generalizing notes with
  | nil => exact (List.append_nil notes).symm
  | cons notice told ih =>
    have noted : noting.keeps notes notice = notes ++ [notice] := by cases notice <;> rfl
    rw [List.foldl_cons, noted, ih, List.append_assoc, List.singleton_append]

end Observers

/-- A run of the body of a tool. -/
structure BodyRun where
  tool : String
  arguments : Arguments
  context : Context

/-- The handler that also writes down each run of its body. -/
def Handler.recounted (tool : String) (handler : Handler σ) : Handler (σ × List BodyRun) where
  delay := handler.delay
  body arguments context := fun shared =>
    let (outcome, after) := (handler.body arguments context).run shared.1
    (outcome, (after, shared.2 ++ [⟨tool, arguments, context⟩]))

def RegisteredTool.recounted (entry : RegisteredTool σ) : RegisteredTool (σ × List BodyRun) :=
  { entry with handler := entry.handler.recounted entry.specification.name }

def Registry.map (f : α → β) (r : Registry α) : Registry β where
  positions := r.positions
  items := r.items.map fun item => (item.1, f item.2)

theorem Registry.get?_map (f : α → β) (r : Registry α) (name : String) :
    (r.map f).get? name = (r.get? name).map f := by
  unfold Registry.get? Registry.map
  dsimp only
  cases r.positions.lookup name with
  | none => rfl
  | some position =>
    dsimp only
    rw [List.getElem?_map, Option.map_map, Option.map_map]
    rfl

def Toolset.recounted (tools : Toolset σ) : Toolset (σ × List BodyRun) :=
  ⟨tools.entries.map (·.recounted)⟩

theorem Toolset.specifications_recounted (tools : Toolset σ) :
    tools.recounted.specifications = tools.specifications := by
  unfold Toolset.specifications Toolset.recounted Registry.values Registry.map
  rw [List.map_map, List.map_map, List.map_map]
  rfl

/-- One world has notes of all that was told, and what its tools share projects to what those of the
other share. The observers of the other world keep what they made of the same. -/
structure Heard (project : σ → σ') (observers : Observers η) (notes : η)
    (world : ToolWorld σ (List Notice)) (other : ToolWorld σ' η) : Prop where
  tools : other.tools = project world.tools
  observers : other.observers = world.observers.foldl observers.keeps notes

section Hearing

variable {project : σ → σ'} {observers : Observers η} {notes : η} {observer : Observer ε η}
  (notice : ε → Notice)
  (same : ∀ event, observers.notice (notice event) = observer.notice event)
include same

theorem keeps_of_calm {event : ε} {before kept : η}
    (noticed : observer.notice event before = .calm kept) :
    observers.keeps before (notice event) = kept := by
  unfold Observers.keeps
  rw [same, noticed]
  rfl

theorem tracks_noted (calm : observer.Calm) (event : ε) :
    Tracks (Heard project observers notes) (ToolRun.tell (.noting notice) event)
      (ToolRun.tell observer event) Eq := by
  rintro world other ⟨tools, told⟩ a after ⟨⟩
  obtain ⟨kept, noticed⟩ := calm event other.observers
  refine ⟨(), { other with observers := kept }, ?_, rfl, tools, ?_⟩
  · simp only [ToolRun.tell, noticed]
  · rw [List.foldl_append, ← told]
    exact (keeps_of_calm notice same noticed).symm

theorem tracks_noting (event : ε) :
    Tracks (fun world other => Heard project observers notes other world)
      (ToolRun.tell observer event) (ToolRun.tell (.noting notice) event) Eq := by
  rintro world other ⟨tools, told⟩ a after h
  unfold ToolRun.tell at h
  split at h
  · next kept noticed =>
    cases h
    refine ⟨(), { other with observers := other.observers ++ [notice event] }, rfl, rfl, tools, ?_⟩
    rw [List.foldl_append, ← told]
    exact (keeps_of_calm notice same noticed).symm
  · cases h

end Hearing

theorem RegisteredTool.alike_recounted {observers : Observers η} {notes : η}
    (entry : RegisteredTool σ) :
    entry.recounted.Alike (Heard Prod.fst observers notes) entry := by
  refine ⟨rfl, rfl, rfl, rfl, fun arguments context => ?_⟩
  rintro world other ⟨tools, told⟩ answer after ⟨⟩
  let left := ((entry.handler.body arguments context).run world.tools.1).2
  refine ⟨_, { other with tools := left }, ?_, rfl, rfl, told⟩
  unfold ToolRun.runBody
  rw [tools]
  rfl

namespace Chat

def watched (provider : Provider) (tools : Toolset σ) (policy : ChatPolicy)
    (stopwatch : ToolCall → Duration) (observers : Observers η) : Chat σ η where
  provider
  executor := ⟨tools, .observed observers.tools stopwatch⟩
  policy
  observer := observers.chat

variable {provider : Provider} {tools : Toolset σ} {policy : ChatPolicy}
  {stopwatch : ToolCall → Duration} {observers : Observers η} {notes : η}

theorem mirrors_watched {R : ToolWorld σ η → ToolWorld σ' η' → Prop} {tools' : Toolset σ'}
    {observers' : Observers η'} {timer : ToolCall → Duration}
    (specifications : tools'.specifications = tools.specifications)
    (entries : ∀ name, Option.Rel (RegisteredTool.Alike R) (tools.get? name) (tools'.get? name))
    (calls : ∀ (call : ToolCall) (event : Duration → ToolEvent),
      Tracks R (ToolRun.tell observers.tools (event (stopwatch call)))
        (ToolRun.tell observers'.tools (event (timer call))) Eq)
    (turns : ∀ event, Tracks R (ToolRun.tell observers.chat event)
      (ToolRun.tell observers'.chat event) Eq) :
    (watched provider tools policy stopwatch observers).Mirrors R
      (watched provider tools' policy timer observers') where
  provider := rfl
  policy := rfl
  specifications := specifications
  calls :=
    { tools := entries
      invoke := fun _ _ alike call context => Invoker.tracks_invoke calls alike call context
      unknown := fun call context => Invoker.tracks_unknown calls call context }
  tell := turns

theorem option_rel_self {r : α → α → Prop} (refl : ∀ a, r a a) (found : Option α) :
    Option.Rel r found found := by
  cases found with
  | none => exact .none
  | some a => exact .some (refl a)

theorem mirrors_noting (calm : observers.Calm) :
    (watched provider tools policy stopwatch .noting).Mirrors (Heard id observers notes)
      (watched provider tools policy stopwatch observers) :=
  mirrors_watched rfl (fun _ => option_rel_self (RegisteredTool.alike_self
      (fun _ _ heard => heard.tools) fun _ _ _ heard => ⟨rfl, heard.observers⟩) _)
    (fun _ _ => tracks_noted .tool (fun _ => rfl) calm.tools _)
    fun event => tracks_noted .chat (fun _ => rfl) calm.chat event

theorem mirrors_recounted (calm : observers.Calm) :
    (watched provider tools.recounted policy stopwatch .noting).Mirrors
      (Heard Prod.fst observers notes) (watched provider tools policy stopwatch observers) := by
  refine mirrors_watched tools.specifications_recounted.symm (fun name => ?_)
    (fun _ _ => tracks_noted .tool (fun _ => rfl) calm.tools _)
    fun event => tracks_noted .chat (fun _ => rfl) calm.chat event
  have entry : tools.recounted.get? name = (tools.get? name).map (·.recounted) :=
    Registry.get?_map _ _ _
  rw [entry]
  cases tools.get? name with
  | none => exact .none
  | some entry => exact .some entry.alike_recounted

theorem mirrors_noted :
    (watched provider tools policy stopwatch observers).Mirrors
      (fun world other => Heard id observers notes other world)
      (watched provider tools policy stopwatch .noting) :=
  mirrors_watched rfl (fun _ => option_rel_self (RegisteredTool.alike_self
      (fun _ _ heard => heard.tools.symm) fun _ _ _ heard => ⟨rfl, heard.observers⟩) _)
    (fun _ _ => tracks_noting .tool (fun _ => rfl) _)
    fun event => tracks_noting .chat (fun _ => rfl) event

theorem mirrors_retimed (timer : ToolCall → Duration) :
    (watched provider tools policy stopwatch .noting).Mirrors
      (fun world other => other.tools = world.tools)
      (watched provider tools policy timer .noting) := by
  have told : ∀ {ε : Type} {notice : ε → Notice} (event event' : ε),
      Tracks (fun (world other : ToolWorld σ (List Notice)) => other.tools = world.tools)
        (ToolRun.tell (.noting notice) event) (ToolRun.tell (.noting notice) event') Eq := by
    rintro ε notice event event' world other same a after ⟨⟩
    exact ⟨(), _, rfl, rfl, same⟩
  exact mirrors_watched rfl (fun _ => option_rel_self (RegisteredTool.alike_self
      (fun _ _ same => same) fun _ _ _ _ => rfl) _) (fun _ _ => told _ _) fun event => told event event

/-- What the observers of a turn keep is what they make of all that those that note everything would
have been told, in a turn with the same answer and the same course. -/
theorem exists_noted {request : TurnRequest} {shared : σ} {sent : List ModelRequest}
    {answer : Except ChatError TurnResult} {after : World σ η}
    (run : (watched provider tools policy stopwatch observers).runTurn request
      ⟨shared, notes, sent⟩ = some (answer, after)) :
    ∃ noted, (watched provider tools policy stopwatch .noting).runTurn request ⟨shared, [], sent⟩ =
        some (answer, noted) ∧
      after.observers = noted.observers.foldl observers.keeps notes ∧
      ∀ course last, (watched provider tools policy stopwatch observers).Takes request
          ⟨shared, notes, sent⟩ course answer last →
        ∃ left, (watched provider tools policy stopwatch .noting).Takes request
          ⟨shared, [], sent⟩ course answer left := by
  have related : Run.Related (fun world other => Heard id observers notes other world)
      (⟨shared, notes, sent⟩ : World σ η) (⟨shared, [], sent⟩ : World σ (List Notice)) :=
    ⟨⟨rfl, rfl⟩, rfl⟩
  obtain ⟨_, noted, noting, rfl, ⟨heard, -⟩⟩ := mirrors_noted.runTurn request _ _ related _ _ run
  refine ⟨noted, noting, heard.observers, fun course last takes => ?_⟩
  obtain ⟨left, taken, -⟩ := mirrors_noted.takes related takes
  exact ⟨left, taken⟩

/-- What comes of a turn, apart from what observers keep. -/
structure Effects (σ : Type) where
  answer : Except ChatError TurnResult
  /-- What the bodies of tools share in the end. -/
  shared : σ
  /-- The bodies that were run, the first one first. -/
  runs : List BodyRun
  requests : List ModelRequest

/-- A turn has some effects, and its observers keep some notes. -/
structure Yields (provider : Provider) (tools : Toolset σ) (policy : ChatPolicy)
    (stopwatch : ToolCall → Duration) (observers : Observers η) (request : TurnRequest)
    (start : World σ η) (effects : Effects σ) (kept : η) : Prop where
  turn : (watched provider tools policy stopwatch observers).runTurn request start =
    some (effects.answer, ⟨effects.shared, kept, effects.requests⟩)
  runs : (watched provider tools.recounted policy stopwatch observers).runTurn request
    ⟨(start.tools, []), start.observers, start.requests⟩ =
      some (effects.answer, ⟨(effects.shared, effects.runs), kept, effects.requests⟩)

theorem exists_runTurn_watched (calm : observers.Calm) (request : TurnRequest)
    (start : World σ η) :
    ∃ r, (watched provider tools policy stopwatch observers).runTurn request start = some r :=
  exists_runTurn calm.chat (Invoker.answers_observed calm.tools stopwatch) start

theorem yields_of_noting {request : TurnRequest} {shared : σ} {sent : List ModelRequest}
    (effects : Effects σ) {told : List Notice}
    (noted : (watched provider tools.recounted policy stopwatch .noting).runTurn request
      ⟨(shared, []), [], sent⟩ =
        some (effects.answer, ⟨(effects.shared, effects.runs), told, effects.requests⟩))
    (calm : observers.Calm) (notes : η) :
    Yields provider tools policy stopwatch observers request ⟨shared, notes, sent⟩ effects
      (told.foldl observers.keeps notes) := by
  constructor
  · obtain ⟨_, ⟨shared', kept, requests⟩, run, rfl, ⟨⟨rfl, rfl⟩, rfl⟩⟩ :=
      (mirrors_recounted calm).runTurn request _ ⟨shared, notes, sent⟩ ⟨⟨rfl, rfl⟩, rfl⟩ _ _ noted
    exact run
  · obtain ⟨_, ⟨shared', kept, requests⟩, run, rfl, ⟨⟨rfl, rfl⟩, rfl⟩⟩ :=
      (mirrors_noting calm).runTurn request _ ⟨(shared, []), notes, sent⟩ ⟨⟨rfl, rfl⟩, rfl⟩ _ _
        noted
    exact run

/-- Whatever its observers do, a turn with guarded ones has the answer, runs the bodies, leaves what
they share and sends the requests that it does with silent ones. How long calls take makes no
difference to that. What the observers are told is what any that never panic are told, in the same
order, and they keep what they make of all of it. -/
theorem runTurn_isolated (provider : Provider) (tools : Toolset σ) (policy : ChatPolicy)
    (request : TurnRequest) (shared : σ) (sent : List ModelRequest) :
    ∃ effects : Effects σ, ∀ stopwatch : ToolCall → Duration, ∃ told : List Notice,
      Yields provider tools policy stopwatch .noting request ⟨shared, [], sent⟩ effects told ∧
      ∀ {η : Type} (observers : Observers η) (notes : η),
        Yields provider tools policy stopwatch .silent request ⟨shared, notes, sent⟩ effects
          notes ∧
        Yields provider tools policy stopwatch observers.guarded request ⟨shared, notes, sent⟩
          effects (told.foldl observers.keeps notes) ∧
        (observers.Calm → Yields provider tools policy stopwatch observers request
          ⟨shared, notes, sent⟩ effects (told.foldl observers.keeps notes)) := by
  have returns : ∃ r, (watched provider tools.recounted policy (fun _ => .zero) .noting).runTurn
      request ⟨(shared, []), [], sent⟩ = some r :=
    exists_runTurn_watched Observers.calm_noting request _
  obtain ⟨⟨answer, ⟨⟨after, runs⟩, timeless, requests⟩⟩, run⟩ := returns
  let effects : Effects σ := ⟨answer, after, runs, requests⟩
  refine ⟨effects, fun stopwatch => ?_⟩
  obtain ⟨_, ⟨left, told, kept⟩, noted, rfl, same⟩ :=
    (mirrors_retimed stopwatch).runTurn request _ ⟨(shared, []), [], sent⟩ ⟨rfl, rfl⟩ _ _ run
  obtain rfl : left = (after, runs) := same.forTools
  obtain rfl : kept = requests := same.requests
  refine ⟨told, ?_, fun observers notes => ⟨?_, ?_, fun calm => ?_⟩⟩
  · have whole := yields_of_noting effects noted Observers.calm_noting []
    rwa [Observers.foldl_noting, List.nil_append] at whole
  · have unchanged := yields_of_noting effects noted Observers.calm_silent notes
    rwa [Observers.foldl_silent] at unchanged
  · have kept := yields_of_noting effects noted observers.calm_guarded notes
    rwa [Observers.keeps_guarded] at kept
  · exact yields_of_noting effects noted calm notes

def greeting : TurnRequest := ⟨⟨"s", "m", none⟩, "hi", {}, []⟩

def asksTwice : Provider := fun requests =>
  if requests.length = 1 then .ok (.ofCalls "m" [⟨"a", "tick", ""⟩, ⟨"b", "missing", ""⟩])
  else .ok (.ofText "m" "Done.")

def ticking : Toolset RunCounts :=
  (Toolset.ofTools
    [{ name := "tick", handler := (Handler.count "tick").delayed 1 }]).toOption.getD .empty

theorem pestered_isolated :
    (watched asksTwice ticking {} (fun _ => .zero) .panicking).runTurn greeting ⟨[], [], []⟩ =
        none ∧
      ∃ effects told,
        Yields asksTwice ticking {} (fun _ => .zero) Observers.panicking.guarded greeting
          ⟨[], [], []⟩ effects (told.foldl Observers.panicking.keeps []) ∧
        Yields asksTwice ticking {} (fun _ => .zero) (.silent : Observers Log) greeting
          ⟨[], [], []⟩ effects [] ∧
        Yields asksTwice ticking {} (fun _ => .zero) .noting greeting ⟨[], [], []⟩ effects told ∧
        (effects.shared, effects.requests.length, told.length) = ([("tick", 1)], 2, 14) := by
  obtain ⟨effects, isolated⟩ := runTurn_isolated asksTwice ticking {} greeting [] []
  obtain ⟨told, noted, others⟩ := isolated fun _ => .zero
  obtain ⟨silent, guarded, -⟩ := others Observers.panicking []
  have noise : ((watched asksTwice ticking {} (fun _ => .zero) .noting).runTurn greeting
      ⟨[], [], []⟩).map (fun r => (r.2.tools, r.2.requests.length, r.2.observers.length)) =
        some ([("tick", 1)], 2, 14) := by decide +kernel
  rw [noted.turn, Option.map_some, Option.some.injEq] at noise
  exact ⟨by decide +kernel, effects, told, guarded, silent, noted, noise⟩

end Chat

end ToolChat
