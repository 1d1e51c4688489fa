import ToolChat.Proofs.Json.ReadBack

/-!
Texts of values without numbers.

The text of such a value tells where it ends, so that of two texts of different values neither
begins with the other. This does not go by way of the reader, which refuses brackets that are nested
too deep.
-/

set_option autoImplicit false

namespace ToolChat.Json

inductive NumberFree : Json → Prop
  | null : NumberFree .null
  | boolean (b : Bool) : NumberFree (.boolean b)
  | string (s : String) : NumberFree (.string s)
  | array {items : List Json} (each : ∀ item ∈ items, NumberFree item) : NumberFree (.array items)
  | object {members : List (String × Json)} (each : ∀ member ∈ members, NumberFree member.2) :
      NumberFree (.object members)

section Lists

variable {α : Type} {f : α → List Char} {close : Char} {as bs : List α} {r s : List Char}

/-- If a text begins with what is written of one and with what is written of the other, then these
are the same, and so is what follows them. -/
def Separates (f : α → List Char) (a b : α) : Prop :=
  ∀ r s, f a ++ r = f b ++ s → a = b ∧ r = s

/-- What is written begins, and not with the bracket that closes it. -/
def Opens (f : α → List Char) (close : Char) (a : α) : Prop :=
  ∃ c cs, f a = c :: cs ∧ c ≠ close

/-- What follows the first text of a list: the others behind commas, and the bracket. -/
def following (f : α → List Char) (close : Char) : List α → List Char → List Char
  | [], rest => close :: rest
  | a :: as, rest => ',' :: (f a ++ following f close as rest)

def enclosed (f : α → List Char) (close : Char) : List α → List Char → List Char
  | [], rest => close :: rest
  | a :: as, rest => f a ++ following f close as rest

theorem following_inj (bracket : close ≠ ',') (each : ∀ a ∈ as, ∀ b ∈ bs, Separates f a b)
    (same : following f close as r = following f close bs s) : as = bs ∧ r = s := by
  induction as generalizing bs with
  | nil =>
    cases bs with
    | nil => exact ⟨rfl, (List.cons.inj same).2⟩
    | cons b bs => exact absurd (List.cons.inj same).1 bracket
  | cons a as ih =>
    cases bs with
    | nil => exact absurd (List.cons.inj same).1.symm bracket
    | cons b bs =>
      obtain ⟨here, later⟩ := List.forall_mem_cons.1 each
      obtain ⟨rfl, others⟩ := here b List.mem_cons_self _ _ (List.cons.inj same).2
      obtain ⟨rfl, rest⟩ := ih (fun x inside y other =>
        later x inside y (List.mem_cons_of_mem _ other)) others
      exact ⟨rfl, rest⟩

theorem Opens.ne_close {a : α} (h : Opens f close a) : f a ++ r ≠ close :: s := by
  obtain ⟨c, cs, begins, other⟩ := h
  rw [begins]
  exact fun same => other (List.cons.inj same).1

theorem enclosed_inj (bracket : close ≠ ',') (opens : ∀ a ∈ as, Opens f close a)
    (also : ∀ b ∈ bs, Opens f close b) (each : ∀ a ∈ as, ∀ b ∈ bs, Separates f a b)
    (same : enclosed f close as r = enclosed f close bs s) : as = bs ∧ r = s := by
  cases as with
  | nil =>
    cases bs with
    | nil => exact ⟨rfl, (List.cons.inj same).2⟩
    | cons b bs => exact absurd same.symm (also b List.mem_cons_self).ne_close
  | cons a as =>
    cases bs with
    | nil => exact absurd same (opens a List.mem_cons_self).ne_close
    | cons b bs =>
      obtain ⟨here, later⟩ := List.forall_mem_cons.1 each
      obtain ⟨rfl, others⟩ := here b List.mem_cons_self _ _ same
      obtain ⟨rfl, rest⟩ := following_inj bracket (fun x inside y other =>
        later x inside y (List.mem_cons_of_mem _ other)) others
      exact ⟨rfl, rest⟩

end Lists

def memberText (member : String × Json) : List Char :=
  quoted member.1 ++ ':' :: member.2.chars

section Texts

variable {r s : List Char}

theorem array_chars_append (items : List Json) (rest : List Char) :
    (Json.array items).chars ++ rest = '[' :: enclosed chars ']' items rest := by
  rw [chars, List.cons_append, List.cons_append, List.append_assoc, List.singleton_append]
  cases items with
  | nil => rfl
  | cons item items =>
    rw [enclosed]
    induction items generalizing item with
    | nil => rw [itemChars, following]
    | cons next items ih =>
      have later := (List.cons.inj (ih next)).2
      rw [itemChars_cons_cons, List.append_assoc, List.cons_append, later, following]

theorem object_chars_append (members : List (String × Json)) (rest : List Char) :
    (Json.object members).chars ++ rest = '\x7b' :: enclosed memberText '\x7d' members rest := by
  rw [chars, List.cons_append, List.cons_append, List.append_assoc, List.singleton_append]
  cases members with
  | nil => rfl
  | cons member members =>
    rw [enclosed]
    induction members generalizing member with
    | nil => rw [memberChars, following, memberText]
    | cons next members ih =>
      have later := (List.cons.inj (ih next)).2
      rw [memberChars_cons_cons, List.append_assoc, List.cons_append, later, following]
      rfl

theorem quoted_append (text : String) (rest : List Char) :
    quoted text ++ rest = '"' :: (text.toList.flatMap escapedChar ++ '"' :: rest) := by
  rw [quoted, List.cons_append, List.cons_append, List.append_assoc, List.singleton_append]

theorem quoted_inj {first second : String} (same : quoted first ++ r = quoted second ++ s) :
    first = second ∧ r = s := by
  rw [quoted_append, quoted_append] at same
  have scans := congrArg (scanString []) (List.cons.inj same).2
  rw [scanString_quoted, scanString_quoted] at scans
  exact Prod.mk.inj (Except.ok.inj scans)

theorem opens_memberText (member : String × Json) : Opens memberText '\x7d' member :=
  ⟨'"', _, by rw [memberText, quoted_append], by decide⟩

theorem separates_memberText {first second : String × Json}
    (h : Separates chars first.2 second.2) : Separates memberText first second := by
  intro r s same
  rw [memberText, memberText, List.append_assoc, List.append_assoc] at same
  obtain ⟨keys, values⟩ := quoted_inj same
  obtain ⟨value, rest⟩ := h r s (List.cons.inj values).2
  exact ⟨Prod.ext keys value, rest⟩

def kindOf? : Char → Option Kind
  | 'n' => some .null
  | 't' | 'f' => some .boolean
  | '"' => some .string
  | '[' => some .array
  | '\x7b' => some .object
  | _ => none

namespace NumberFree

variable {value other : Json}

theorem exists_chars_eq_cons (h : value.NumberFree) :
    ∃ c cs, value.chars = c :: cs ∧ kindOf? c = some value.kind := by
  cases h with
  | null => exact ⟨'n', _, rfl, rfl⟩
  | boolean b => cases b <;> exact ⟨_, _, rfl, rfl⟩
  | string s => exact ⟨'"', _, rfl, rfl⟩
  | array each => exact ⟨'[', _, by rw [chars]; rfl, rfl⟩
  | object each => exact ⟨'\x7b', _, by rw [chars]; rfl, rfl⟩

theorem kind_eq (h : value.NumberFree) (also : other.NumberFree)
    (same : value.chars ++ r = other.chars ++ s) : value.kind = other.kind := by
  obtain ⟨c, cs, begins, kind⟩ := h.exists_chars_eq_cons
  obtain ⟨d, ds, others, found⟩ := also.exists_chars_eq_cons
  rw [begins, others] at same
  rw [(List.cons.inj same).1, found] at kind
  exact (Option.some.inj kind).symm

theorem opens (h : value.NumberFree) : Opens chars ']' value := by
  obtain ⟨c, cs, begins, kind⟩ := h.exists_chars_eq_cons
  refine ⟨c, cs, begins, ?_⟩
  rintro rfl
  cases kind

theorem separates (h : value.NumberFree) (also : other.NumberFree) :
    Separates chars value other := by
  intro r s same
  -- The first character tells the kind, so that only values of one kind are left to compare.
  induction h generalizing other r s with
  | null =>
    have kind := kind_eq .null also same
    cases also with
    | null => exact ⟨rfl, List.append_cancel_left same⟩
    | _ => cases kind
  | boolean b =>
    have kind := kind_eq (.boolean b) also same
    cases also with
    | boolean c =>
      cases b <;> cases c
      case true.true | false.false => exact ⟨rfl, List.append_cancel_left same⟩
      case true.false | false.true => cases same
    | _ => cases kind
  | string text =>
    have kind := kind_eq (.string text) also same
    cases also with
    | string other =>
      rw [chars, chars] at same
      obtain ⟨rfl, rest⟩ := quoted_inj same
      exact ⟨rfl, rest⟩
    | _ => cases kind
  | @array items each ih =>
    have kind := kind_eq (.array each) also same
    cases also with
    | @array others also =>
      rw [array_chars_append, array_chars_append] at same
      obtain ⟨rfl, rest⟩ := enclosed_inj (by decide) (fun item inside => (each item inside).opens)
        (fun item inside => (also item inside).opens)
        (fun item inside other member => ih item inside (also other member)) (List.cons.inj same).2
      exact ⟨rfl, rest⟩
    | _ => cases kind
  | @object members each ih =>
    have kind := kind_eq (.object each) also same
    cases also with
    | @object others also =>
      rw [object_chars_append, object_chars_append] at same
      obtain ⟨rfl, rest⟩ := enclosed_inj (by decide) (fun member _ => opens_memberText member)
        (fun member _ => opens_memberText member) (fun member inside other there =>
          separates_memberText (ih member inside (also other there))) (List.cons.inj same).2
      exact ⟨rfl, rest⟩
    | _ => cases kind

/-- Different values have different texts. -/
theorem eq_of_text_eq (h : value.NumberFree) (also : other.NumberFree)
    (same : value.text = other.text) : value = other := by
  have texts : value.chars = other.chars := String.ofList_inj.1 same
  exact (h.separates also [] [] (congrArg (· ++ []) texts)).1

end NumberFree

end Texts

end ToolChat.Json
