import Mathlib.Data.List.Nodup
import ToolChat.Proofs.Json.Pointer
import ToolChat.Proofs.Json.Spelling

/-!
What is printed is read again.

The reader goes over the text of a value as over the value: it comes out with the value and goes on
with what follows. This takes numbers that are kept exactly, objects whose keys are distinct, and
brackets that are nested no deeper than the reader allows.
-/

set_option autoImplicit false

namespace ToolChat.Json

section Steps

variable {frames : List Frame} {c d : Char} {cs rest : List Char} {value : Json}
  {items : List Json} {members : List (String × Json)} {key s : String}

theorem skipBlanks_of_visible (visible : isJsonBlank c = false) : skipBlanks (c :: cs) = c :: cs :=
  List.dropWhile_cons_of_neg (Bool.eq_false_iff.1 visible)

theorem ne_of_isDigit (digit : c.isDigit = true) (other : d.isDigit = false) : c ≠ d := by
  rintro rfl
  cases other.symm.trans digit

theorem visible_of_isDigit (digit : c.isDigit = true) : isJsonBlank c = false := by
  simp [isJsonBlank, ne_of_isDigit digit]

theorem readValue_null :
    readValue frames ('n' :: 'u' :: 'l' :: 'l' :: rest) = resume frames .null rest := by
  rw [readValue]
  rfl

theorem readValue_true :
    readValue frames ('t' :: 'r' :: 'u' :: 'e' :: rest) = resume frames (.boolean true) rest := by
  rw [readValue]
  rfl

theorem readValue_false :
    readValue frames ('f' :: 'a' :: 'l' :: 's' :: 'e' :: rest) =
      resume frames (.boolean false) rest := by
  rw [readValue]
  rfl

theorem readValue_string (scanned : scanString [] cs = .ok (s, rest)) :
    readValue frames ('"' :: cs) = resume frames (.string s) rest := by
  have here : skipBlanks ('"' :: cs) = '"' :: cs := skipBlanks_of_visible (by decide)
  rw [readValue]
  split
  · next none => cases here.symm.trans none
  · next again =>
    cases here.symm.trans again
    rw [if_neg (by decide), if_neg (by decide), if_pos rfl]
    split
    · next failed => cases failed.symm.trans scanned
    · next again =>
      cases again.symm.trans scanned
      rfl

theorem readValue_emptyArray (room : frames.length < mostOpen) :
    readValue frames ('[' :: ']' :: rest) = resume frames (.array []) rest := by
  rw [readValue]
  exact if_neg (Nat.not_le.2 room)

theorem readValue_array (room : frames.length < mostOpen) (visible : isJsonBlank d = false)
    (item : d ≠ ']') :
    readValue frames ('[' :: d :: rest) = readValue (.items [] :: frames) (d :: rest) := by
  rw [readValue]
  refine (if_neg (Nat.not_le.2 room)).trans ?_
  split
  · next none => cases (skipBlanks_of_visible visible).symm.trans none
  · next inside =>
    cases (skipBlanks_of_visible visible).symm.trans inside
    rw [if_neg item]

theorem readValue_emptyObject (room : frames.length < mostOpen) :
    readValue frames ('\x7b' :: '\x7d' :: rest) = resume frames (.object []) rest := by
  rw [readValue]
  exact if_neg (Nat.not_le.2 room)

theorem readValue_object (room : frames.length < mostOpen) :
    readValue frames ('\x7b' :: '"' :: rest) = readMember frames [] ('"' :: rest) := by
  rw [readValue]
  exact if_neg (Nat.not_le.2 room)

theorem resume_closeArray :
    resume (.items items :: frames) value (']' :: rest) =
      resume frames (.array (value :: items).reverse) rest := by
  rw [resume]
  rfl

theorem resume_nextItem (visible : isJsonBlank d = false) (item : d ≠ ']') :
    resume (.items items :: frames) value (',' :: d :: rest) =
      readValue (.items (value :: items) :: frames) (d :: rest) := by
  have here : skipBlanks (',' :: d :: rest) = ',' :: d :: rest := skipBlanks_of_visible (by decide)
  rw [resume]
  split
  · next none => cases here.symm.trans none
  · next comma =>
    cases here.symm.trans comma
    rw [if_neg (by decide), if_pos rfl]
    split
    · next none => cases (skipBlanks_of_visible visible).symm.trans none
    · next inside =>
      cases (skipBlanks_of_visible visible).symm.trans inside
      rw [if_neg item]

theorem resume_closeObject :
    resume (.members members key :: frames) value ('\x7d' :: rest) =
      resume frames (.object (put key value members)) rest := by
  rw [resume]
  rfl

theorem resume_nextMember :
    resume (.members members key :: frames) value (',' :: '"' :: rest) =
      readMember frames (put key value members) ('"' :: rest) := by
  rw [resume]
  rfl

theorem readValue_minus {n : Number} (scanned : scanNumber ('-' :: cs) = .ok (n, rest)) :
    readValue frames ('-' :: cs) = resume frames (.number n) rest := by
  have here : skipBlanks ('-' :: cs) = '-' :: cs := skipBlanks_of_visible (by decide)
  rw [readValue]
  split
  · next none => cases here.symm.trans none
  · next again =>
    cases here.symm.trans again
    rw [if_neg (by decide), if_neg (by decide), if_neg (by decide), if_neg (by decide),
      if_neg (by decide), if_neg (by decide), if_pos (.inl rfl)]
    split
    · next failed => cases failed.symm.trans scanned
    · next again =>
      cases again.symm.trans scanned
      rfl

end Steps

/-- A value is spelled out in its text, and brackets are nested in it up to a depth: all its numbers
are kept exactly, and the keys of each object are distinct. -/
inductive Spelled : (depth : Nat) → Json → Prop
  | null {depth : Nat} : Spelled depth .null
  | boolean {depth : Nat} (b : Bool) : Spelled depth (.boolean b)
  | integer {depth : Nat} (n : Int) (inRange : InExactRange n) :
      Spelled depth (.number (.integer n inRange))
  | string {depth : Nat} (s : String) : Spelled depth (.string s)
  | array {depth : Nat} {items : List Json} (each : ∀ item ∈ items, Spelled depth item) :
      Spelled (depth + 1) (.array items)
  | object {depth : Nat} {members : List (String × Json)} (distinct : (members.map (·.1)).Nodup)
      (each : ∀ member ∈ members, Spelled depth member.2) :
      Spelled (depth + 1) (.object members)

theorem Spelled.exists_chars_eq_cons {depth : Nat} {value : Json} (h : Spelled depth value) :
    ∃ c cs, value.chars = c :: cs ∧ isJsonBlank c = false ∧ c ≠ ']' := by
  cases h with
  | null => exact ⟨'n', _, rfl, by decide, by decide⟩
  | boolean b =>
    cases b with
    | true => exact ⟨'t', _, rfl, by decide, by decide⟩
    | false => exact ⟨'f', _, rfl, by decide, by decide⟩
  | integer n inRange =>
    rw [chars, Number.chars]
    split
    · exact ⟨'-', _, rfl, by decide, by decide⟩
    · cases digits : Nat.toDigits 10 n.natAbs with
      | nil => exact absurd digits Nat.toDigits_ne_nil
      | cons c cs =>
        have digit := isDigit_of_toDigits_eq_cons digits
        exact ⟨c, cs, rfl, visible_of_isDigit digit, ne_of_isDigit digit rfl⟩
  | string s => exact ⟨'"', _, rfl, by decide, by decide⟩
  | array each => exact ⟨'[', _, by rw [chars]; rfl, by decide, by decide⟩
  | object distinct each => exact ⟨'\x7b', _, by rw [chars]; rfl, by decide, by decide⟩

/-- The reader goes over the text of a value as over the value, wherever there is room for the
brackets of the value. -/
def Reads (depth : Nat) (value : Json) : Prop :=
  ∀ frames rest, frames.length + depth ≤ mostOpen → EndsNumber rest →
    readValue frames (value.chars ++ rest) = resume frames value rest

section Parts

variable {depth : Nat} {frames : List Frame} {rest : List Char}

theorem endsNumber_comma : EndsNumber (',' :: rest) := endsNumber_cons (by decide)

theorem endsNumber_bracket : EndsNumber (']' :: rest) := endsNumber_cons (by decide)

theorem endsNumber_brace : EndsNumber ('\x7d' :: rest) := endsNumber_cons (by decide)

theorem itemChars_cons_cons (item next : Json) (items : List Json) :
    itemChars (item :: next :: items) = item.chars ++ ',' :: itemChars (next :: items) := by
  rw [itemChars]
  exact nofun

theorem memberChars_cons_cons (key : String) (value : Json) (next : String × Json)
    (members : List (String × Json)) :
    memberChars ((key, value) :: next :: members) =
      quoted key ++ ':' :: value.chars ++ ',' :: memberChars (next :: members) := by
  rw [memberChars]
  exact nofun

theorem exists_itemChars_eq (item : Json) (items : List Json) :
    ∃ more, itemChars (item :: items) = item.chars ++ more := by
  cases items with
  | nil => exact ⟨[], by rw [itemChars, List.append_nil]⟩
  | cons next items => exact ⟨_, itemChars_cons_cons item next items⟩

theorem exists_memberChars_eq (member : String × Json) (members : List (String × Json)) :
    ∃ more, memberChars (member :: members) = '"' :: more := by
  cases members with
  | nil => exact ⟨_, by rw [memberChars, quoted]; rfl⟩
  | cons next members => exact ⟨_, by rw [memberChars_cons_cons, quoted]; rfl⟩

theorem readValue_items {item : Json} {items : List Json} (rest : List Char) (done : List Json)
    (room : frames.length + (depth + 1) ≤ mostOpen)
    (each : ∀ element ∈ item :: items, Spelled depth element)
    (reads : ∀ element ∈ item :: items, Reads depth element) :
    readValue (.items done :: frames) (itemChars (item :: items) ++ ']' :: rest) =
      resume frames (.array (done.reverse ++ item :: items)) rest := by
  have inner : ∀ done, (Frame.items done :: frames).length + depth ≤ mostOpen := by
    intro done
    rw [List.length_cons]
    omega
  induction items generalizing item done with
  | nil =>
    rw [itemChars, reads item List.mem_cons_self _ _ (inner done) endsNumber_bracket,
      resume_closeArray, List.reverse_cons]
  | cons next items ih =>
    have later : ∀ element ∈ next :: items, element ∈ item :: next :: items := fun _ =>
      List.mem_cons_of_mem _
    have others := ih (item :: done) (fun e he => each e (later e he))
      (fun e he => reads e (later e he))
    obtain ⟨more, begins⟩ := exists_itemChars_eq next items
    obtain ⟨d, cs, chars, visible, opens⟩ :=
      (each next (later next List.mem_cons_self)).exists_chars_eq_cons
    rw [itemChars_cons_cons, List.append_assoc, List.cons_append,
      reads item List.mem_cons_self _ _ (inner done) endsNumber_comma]
    rw [begins, chars, List.cons_append, List.cons_append] at others ⊢
    rw [resume_nextItem visible opens, others, List.reverse_cons, List.append_assoc]
    rfl

theorem readMember_quoted {done : List (String × Json)} {key : String} {cs : List Char} :
    readMember frames done (quoted key ++ ':' :: cs) =
      readValue (.members done key :: frames) cs := by
  rw [quoted, List.append_assoc]
  exact readMember_of_key (scanString_quoted key (':' :: cs))

theorem readMember_members {key : String} {value : Json} {members : List (String × Json)}
    (rest : List Char) (done : List (String × Json)) (room : frames.length + (depth + 1) ≤ mostOpen)
    (distinct : ((done ++ (key, value) :: members).map (·.1)).Nodup)
    (reads : ∀ member ∈ (key, value) :: members, Reads depth member.2) :
    readMember frames done (memberChars ((key, value) :: members) ++ '\x7d' :: rest) =
      resume frames (.object (done ++ (key, value) :: members)) rest := by
  have inner : ∀ done key, (Frame.members done key :: frames).length + depth ≤ mostOpen := by
    intro done key
    rw [List.length_cons]
    omega
  induction members generalizing key value done with
  | nil =>
    have fresh : key ∉ done.map (·.1) := not_mem_of_nodup_append_cons distinct
    rw [memberChars, List.append_assoc, List.cons_append, readMember_quoted,
      reads _ List.mem_cons_self _ _ (inner done key) endsNumber_brace, resume_closeObject,
      put_of_not_mem fresh]
  | cons next members ih =>
    have fresh : key ∉ done.map (·.1) := not_mem_of_nodup_append_cons distinct
    obtain ⟨name, other⟩ := next
    have later : ∀ member ∈ (name, other) :: members, Reads depth member.2 := fun member hm =>
      reads member (List.mem_cons_of_mem _ hm)
    rw [List.append_cons] at distinct
    have others := ih (done ++ [(key, value)]) distinct later
    obtain ⟨more, begins⟩ := exists_memberChars_eq (name, other) members
    rw [memberChars_cons_cons, List.append_assoc, List.append_assoc, List.cons_append,
      readMember_quoted, List.cons_append,
      reads _ List.mem_cons_self _ _ (inner done key) endsNumber_comma]
    rw [begins, List.cons_append] at others ⊢
    rw [resume_nextMember, put_of_not_mem fresh, others, List.append_assoc]
    rfl

end Parts

/-- The reader goes over the text of a value as over the value. -/
theorem Spelled.reads {depth : Nat} {value : Json} (h : Spelled depth value) :
    Reads depth value := by
  induction h with
  | null => exact fun frames rest _ _ => readValue_null
  | boolean b =>
    cases b with
    | true => exact fun frames rest _ _ => readValue_true
    | false => exact fun frames rest _ _ => readValue_false
  | integer n inRange =>
    intro frames rest _ ends
    have scanned := scanNumber_integer inRange ends
    rw [chars]
    by_cases negative : n < 0
    · rw [Number.chars, if_pos negative] at scanned ⊢
      exact readValue_minus scanned
    · rw [Number.chars, if_neg negative] at scanned ⊢
      cases digits : Nat.toDigits 10 n.natAbs with
      | nil => exact absurd digits Nat.toDigits_ne_nil
      | cons c cs =>
        rw [digits] at scanned
        exact readValue_of_digit (isDigit_of_toDigits_eq_cons digits) scanned
  | string s =>
    intro frames rest _ _
    rw [chars, quoted, List.append_assoc]
    exact readValue_string (scanString_quoted s rest)
  | @array depth items each ih =>
    intro frames rest room _
    rw [chars, List.append_assoc]
    cases items with
    | nil => exact readValue_emptyArray (by omega)
    | cons item items =>
      obtain ⟨more, begins⟩ := exists_itemChars_eq item items
      obtain ⟨d, cs, chars, visible, opens⟩ := (each item List.mem_cons_self).exists_chars_eq_cons
      have whole := readValue_items rest [] room each ih
      rw [begins, chars] at whole ⊢
      exact (readValue_array (by omega) visible opens).trans whole
  | @object depth members distinct each ih =>
    intro frames rest room _
    rw [chars, List.append_assoc]
    cases members with
    | nil => exact readValue_emptyObject (by omega)
    | cons member members =>
      obtain ⟨more, begins⟩ := exists_memberChars_eq member members
      have whole := readMember_members rest [] room distinct ih
      rw [begins] at whole ⊢
      exact (readValue_object (by omega)).trans whole

theorem Spelled.read_text {depth : Nat} {value : Json} (h : Spelled depth value)
    (room : depth ≤ mostOpen) : Json.read value.text.toList = .ok value := by
  have whole := h.reads [] [] (by simpa using room) endsNumber_nil
  rw [List.append_nil] at whole
  rw [text, String.toList_ofList, Json.read, whole, resume]
  rfl

end ToolChat.Json
