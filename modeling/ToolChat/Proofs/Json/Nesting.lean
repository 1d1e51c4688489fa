import Mathlib.Data.List.Basic
import ToolChat.Json.Reader

/-!
How deep brackets are nested in what is read.

The reader is taken as a machine: what it is about to do is a task, and each step that does not fail
leaves a task with fewer characters. A bracket opens a frame only where there is room for one, so
that each frame holds what still fits into it, and the whole value fits into the room there is.
-/

set_option autoImplicit false

namespace ToolChat.Json

def isFlat : Json → Bool
  | .array _ | .object _ => false
  | _ => true

/-- Brackets are nested in a value up to a depth. -/
inductive Nests : (depth : Nat) → Json → Prop
  | flat {depth : Nat} {value : Json} (flat : value.isFlat = true) : Nests depth value
  | array {depth : Nat} {items : List Json} (each : ∀ item ∈ items, Nests depth item) :
      Nests (depth + 1) (.array items)
  | object {depth : Nat} {members : List (String × Json)}
      (each : ∀ member ∈ members, Nests depth member.2) : Nests (depth + 1) (.object members)

namespace Nests

theorem items {depth : Nat} {items : List Json} (h : Nests depth (.array items)) :
    ∃ inner, depth = inner + 1 ∧ ∀ item ∈ items, Nests inner item := by
  cases h with
  | flat flat => cases flat
  | array each => exact ⟨_, rfl, each⟩

theorem members {depth : Nat} {members : List (String × Json)}
    (h : Nests depth (.object members)) :
    ∃ inner, depth = inner + 1 ∧ ∀ member ∈ members, Nests inner member.2 := by
  cases h with
  | flat flat => cases flat
  | object each => exact ⟨_, rfl, each⟩

end Nests

theorem mem_put {key : String} {value : Json} {members : List (String × Json)}
    {member : String × Json} (h : member ∈ put key value members) :
    member.2 = value ∨ member ∈ members := by
  induction members with
  | nil => exact .inl (congrArg Prod.snd (List.mem_singleton.1 h))
  | cons first members ih =>
    unfold put at h
    split at h
    · rcases List.mem_cons.1 h with rfl | old
      · exact .inl rfl
      · exact .inr (List.mem_cons_of_mem _ old)
    · rcases List.mem_cons.1 h with rfl | later
      · exact .inr List.mem_cons_self
      · exact (ih later).imp_right (List.mem_cons_of_mem _)

theorem forall_mem_put {P : Json → Prop} {key : String} {value : Json}
    {members : List (String × Json)} (each : ∀ member ∈ members, P member.2) (last : P value) :
    ∀ member ∈ put key value members, P member.2 := by
  intro member inside
  rcases mem_put inside with same | old
  · exact same ▸ last
  · exact each member old

/-- What the reader is about to do. -/
inductive Reading where
  | beforeValue (frames : List Frame) (cs : List Char)
  | beforeMember (frames : List Frame) (done : List (String × Json)) (cs : List Char)
  /-- A value was read, and is to be put into the innermost frame. -/
  | afterValue (frames : List Frame) (value : Json) (cs : List Char)

namespace Reading

def run : Reading → Except Fault Json
  | .beforeValue frames cs => readValue frames cs
  | .beforeMember frames done cs => readMember frames done cs
  | .afterValue frames value cs => resume frames value cs

def left : Reading → List Char
  | .beforeValue _ cs | .beforeMember _ _ cs | .afterValue _ _ cs => cs

inductive Step : Reading → Reading → Prop
  | flat {frames : List Frame} {cs rest : List Char} {value : Json}
      (flat : value.isFlat = true) :
      Step (.beforeValue frames cs) (.afterValue frames value rest)
  | emptyArray {frames : List Frame} {cs rest : List Char} (room : frames.length < mostOpen) :
      Step (.beforeValue frames cs) (.afterValue frames (.array []) rest)
  | openArray {frames : List Frame} {cs rest : List Char} (room : frames.length < mostOpen) :
      Step (.beforeValue frames cs) (.beforeValue (.items [] :: frames) rest)
  | emptyObject {frames : List Frame} {cs rest : List Char} (room : frames.length < mostOpen) :
      Step (.beforeValue frames cs) (.afterValue frames (.object []) rest)
  | openObject {frames : List Frame} {cs rest : List Char} (room : frames.length < mostOpen) :
      Step (.beforeValue frames cs) (.beforeMember frames [] rest)
  | key {frames : List Frame} {done : List (String × Json)} {key : String}
      {cs rest : List Char} :
      Step (.beforeMember frames done cs) (.beforeValue (.members done key :: frames) rest)
  | closeArray {frames : List Frame} {done : List Json} {value : Json} {cs rest : List Char} :
      Step (.afterValue (.items done :: frames) value cs)
        (.afterValue frames (.array (value :: done).reverse) rest)
  | nextItem {frames : List Frame} {done : List Json} {value : Json} {cs rest : List Char} :
      Step (.afterValue (.items done :: frames) value cs)
        (.beforeValue (.items (value :: done) :: frames) rest)
  | closeObject {frames : List Frame} {done : List (String × Json)} {key : String} {value : Json}
      {cs rest : List Char} :
      Step (.afterValue (.members done key :: frames) value cs)
        (.afterValue frames (.object (put key value done)) rest)
  | nextMember {frames : List Frame} {done : List (String × Json)} {key : String} {value : Json}
      {cs rest : List Char} :
      Step (.afterValue (.members done key :: frames) value cs)
        (.beforeMember frames (put key value done) rest)

/-- A task that succeeds goes on with another one that does, or is done. -/
def Proceeds (reading : Reading) (result : Json) : Prop :=
  (∃ cs, reading = .afterValue [] result cs) ∨
    ∃ next, Step reading next ∧ next.left.length < reading.left.length ∧ next.run = .ok result

private theorem shorter_of_visible {cs rest : List Char} {c : Char}
    (visible : skipBlanks cs = c :: rest) : rest.length < cs.length := by
  have most := skipBlanks_length_le cs
  rw [visible, List.length_cons] at most
  omega

theorem proceeds_of_readValue {frames : List Frame} {cs : List Char} {result : Json}
    (h : readValue frames cs = .ok result) : (Reading.beforeValue frames cs).Proceeds result := by
  right
  rw [readValue] at h
  split at h
  · cases h
  next c inside visible =>
  have shorter := shorter_of_visible visible
  split at h
  · split at h
    · cases h
    next room =>
    split at h
    · cases h
    next d rest visible' =>
    have shorter' := shorter_of_visible visible'
    split at h
    · exact ⟨.afterValue frames (.array []) rest, .emptyArray (Nat.not_le.1 room),
        Nat.lt_trans shorter' shorter, h⟩
    · have begins := skipBlanks_length_le inside
      rw [visible'] at begins
      exact ⟨.beforeValue (.items [] :: frames) (d :: rest), .openArray (Nat.not_le.1 room),
        Nat.lt_of_le_of_lt begins shorter, h⟩
  split at h
  · split at h
    · cases h
    next room =>
    split at h
    · cases h
    next d rest visible' =>
    have shorter' := shorter_of_visible visible'
    split at h
    · exact ⟨.afterValue frames (.object []) rest, .emptyObject (Nat.not_le.1 room),
        Nat.lt_trans shorter' shorter, h⟩
    · have begins := skipBlanks_length_le inside
      rw [visible'] at begins
      exact ⟨.beforeMember frames [] (d :: rest), .openObject (Nat.not_le.1 room),
        Nat.lt_of_le_of_lt begins shorter, h⟩
  split at h
  · split at h
    · cases h
    next s rest scanned =>
    exact ⟨.afterValue frames (.string s) rest, .flat rfl,
      Nat.lt_trans (scanString_shorter scanned) shorter, h⟩
  split at h
  · split at h
    · cases h
    next rest scanned =>
    exact ⟨.afterValue frames .null rest, .flat rfl,
      Nat.lt_of_le_of_lt (scanWord_length_le scanned) shorter, h⟩
  split at h
  · split at h
    · cases h
    next rest scanned =>
    exact ⟨.afterValue frames (.boolean true) rest, .flat rfl,
      Nat.lt_of_le_of_lt (scanWord_length_le scanned) shorter, h⟩
  split at h
  · split at h
    · cases h
    next rest scanned =>
    exact ⟨.afterValue frames (.boolean false) rest, .flat rfl,
      Nat.lt_of_le_of_lt (scanWord_length_le scanned) shorter, h⟩
  split at h
  · split at h
    · cases h
    next n rest scanned =>
    have short := scanNumber_shorter scanned
    have begins := skipBlanks_length_le cs
    rw [visible] at begins
    exact ⟨.afterValue frames (.number n) rest, .flat rfl,
      Nat.lt_of_lt_of_le short begins, h⟩
  · cases h

theorem proceeds_of_readMember {frames : List Frame} {done : List (String × Json)}
    {cs : List Char} {result : Json} (h : readMember frames done cs = .ok result) :
    (Reading.beforeMember frames done cs).Proceeds result := by
  right
  rw [readMember.eq_def] at h
  split at h
  · cases h
  next c inside =>
  split at h
  · split at h
    · cases h
    next key rest scanned =>
    have shorter := scanString_shorter scanned
    split at h
    · cases h
    next d rest' visible =>
    split at h
    · exact ⟨.beforeValue (.members done key :: frames) rest', .key,
        Nat.lt_trans (shorter_of_visible visible) (Nat.lt_succ_of_lt shorter), h⟩
    · cases h
  · cases h

theorem proceeds_of_resume {frames : List Frame} {value : Json} {cs : List Char} {result : Json}
    (h : resume frames value cs = .ok result) :
    (Reading.afterValue frames value cs).Proceeds result := by
  rw [resume.eq_def] at h
  split at h
  · split at h
    · cases h
      exact .inl ⟨cs, rfl⟩
    · cases h
  · next done frames =>
    split at h
    · cases h
    next c inside visible =>
    have shorter := shorter_of_visible visible
    split at h
    · exact .inr ⟨.afterValue frames (.array (value :: done).reverse) inside, .closeArray, shorter,
        h⟩
    split at h
    · split at h
      · cases h
      next d rest visible' =>
      split at h
      · cases h
      have begins := skipBlanks_length_le inside
      rw [visible'] at begins
      exact .inr ⟨.beforeValue (.items (value :: done) :: frames) (d :: rest), .nextItem,
        Nat.lt_of_le_of_lt begins shorter, h⟩
    · cases h
  · next done key frames =>
    split at h
    · cases h
    next c inside visible =>
    have shorter := shorter_of_visible visible
    split at h
    · exact .inr ⟨.afterValue frames (.object (put key value done)) inside, .closeObject, shorter,
        h⟩
    split at h
    · split at h
      · cases h
      next d rest visible' =>
      split at h
      · cases h
      have begins := skipBlanks_length_le inside
      rw [visible'] at begins
      exact .inr ⟨.beforeMember frames (put key value done) (d :: rest), .nextMember,
        Nat.lt_of_le_of_lt begins shorter, h⟩
    · cases h

theorem proceeds {reading : Reading} {result : Json} (h : reading.run = .ok result) :
    reading.Proceeds result := by
  cases reading with
  | beforeValue frames cs => exact proceeds_of_readValue h
  | beforeMember frames done cs => exact proceeds_of_readMember h
  | afterValue frames value cs => exact proceeds_of_resume h

/-- What holds of a reading that succeeds, and is kept by its steps, holds of what is read. -/
theorem holds_of_run {P : Reading → Prop} {result : Json}
    (step : ∀ before after, Step before after → P before → P after) {reading : Reading}
    (h : reading.run = .ok result) (holds : P reading) : ∃ cs, P (.afterValue [] result cs) := by
  -- On the number of characters that are left to read.
  induction left : reading.left.length using Nat.strongRecOn generalizing reading with
  | ind n ih =>
    rcases proceeds h with ⟨cs, rfl⟩ | ⟨next, one, shorter, run⟩
    · exact ⟨cs, holds⟩
    · exact ih _ (left ▸ shorter) run (step _ _ one holds) rfl

end Reading

def Frame.contents : Frame → List Json
  | .items done => done
  | .members done _ => done.map (·.2)

/-- Each frame is open where there is room for it, and holds what fits into it. -/
def Frame.AllFit : List Frame → Prop
  | [] => True
  | frame :: outer => outer.length < mostOpen ∧
      (∀ value ∈ frame.contents, Nests (mostOpen - (outer.length + 1)) value) ∧ AllFit outer

def Reading.Fits : Reading → Prop
  | .beforeValue frames _ => Frame.AllFit frames
  | .beforeMember frames done _ => Frame.AllFit (.members done "" :: frames)
  | .afterValue frames value _ => Nests (mostOpen - frames.length) value ∧ Frame.AllFit frames

section Fitting

variable {frames : List Frame}

theorem level_of_room (room : frames.length < mostOpen) :
    mostOpen - frames.length = mostOpen - (frames.length + 1) + 1 := by
  omega

theorem nests_closed_array {items : List Json} (room : frames.length < mostOpen)
    (each : ∀ item ∈ items, Nests (mostOpen - (frames.length + 1)) item) :
    Nests (mostOpen - frames.length) (.array items) := by
  rw [level_of_room room]
  exact .array each

theorem nests_closed_object {members : List (String × Json)} (room : frames.length < mostOpen)
    (each : ∀ member ∈ members, Nests (mostOpen - (frames.length + 1)) member.2) :
    Nests (mostOpen - frames.length) (.object members) := by
  rw [level_of_room room]
  exact .object each

theorem Reading.Step.fits {before after : Reading} (step : Step before after)
    (fits : before.Fits) : after.Fits := by
  cases step with
  | flat flat => exact ⟨.flat flat, fits⟩
  | emptyArray room => exact ⟨nests_closed_array room (List.forall_mem_nil _), fits⟩
  | openArray room => exact ⟨room, List.forall_mem_nil _, fits⟩
  | emptyObject room => exact ⟨nests_closed_object room (List.forall_mem_nil _), fits⟩
  | openObject room => exact ⟨room, List.forall_mem_nil _, fits⟩
  | key => exact fits
  | closeArray =>
    obtain ⟨last, room, held, outer⟩ := fits
    refine ⟨nests_closed_array room fun item inside => ?_, outer⟩
    rcases List.mem_cons.1 (List.mem_reverse.1 inside) with rfl | inside
    · exact last
    · exact held item inside
  | nextItem =>
    obtain ⟨last, room, held, outer⟩ := fits
    exact ⟨room, List.forall_mem_cons.2 ⟨last, held⟩, outer⟩
  | closeObject =>
    obtain ⟨last, room, held, outer⟩ := fits
    exact ⟨nests_closed_object room (forall_mem_put (List.forall_mem_map.1 held) last), outer⟩
  | nextMember =>
    obtain ⟨last, room, held, outer⟩ := fits
    exact ⟨room, List.forall_mem_map.2 (forall_mem_put (List.forall_mem_map.1 held) last), outer⟩

end Fitting

/-- What is read has its brackets nested no deeper than the reader allows. -/
theorem nests_of_read {text : List Char} {value : Json} (h : Json.read text = .ok value) :
    Nests mostOpen value := by
  have run : (Reading.beforeValue [] text).run = .ok value := h
  obtain ⟨_, nests, -⟩ := Reading.holds_of_run (P := Reading.Fits)
    (fun _ _ step fits => step.fits fits) run trivial
  exact nests

end ToolChat.Json
