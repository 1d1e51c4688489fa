import ToolChat.Schema.Basic

/-!
Pointers in JSON documents.

A document points to its own parts by the texts of its members named `$ref`. A pointer names the
members to go through from the root, after `#` and each after a slash.
-/

set_option autoImplicit false

namespace ToolChat

namespace Json

theorem put_of_not_mem {key : String} {members : List (String × Json)}
    (h : key ∉ members.map (·.1)) (value : Json) :
    put key value members = members ++ [(key, value)] := by
  induction members with
  | nil => rfl
  | cons member members ih =>
    obtain ⟨k, v⟩ := member
    rw [List.map_cons, List.mem_cons, not_or] at h
    rw [put, if_neg (Ne.symm h.1), ih h.2, List.cons_append]

theorem not_mem_of_nodup_append_cons {done members : List (String × Json)} {key : String}
    {value : Json} (distinct : ((done ++ (key, value) :: members).map (·.1)).Nodup) :
    key ∉ done.map (·.1) := by
  rw [List.map_append, List.nodup_append] at distinct
  exact fun old => distinct.2.2 key old key List.mem_cons_self rfl

private theorem foldl_put {pairs members : List (String × Json)}
    (distinct : ((members ++ pairs).map (·.1)).Nodup) :
    pairs.foldl (fun members (key, value) => put key value members) members = members ++ pairs := by
  induction pairs generalizing members with
  | nil => rw [List.foldl_nil, List.append_nil]
  | cons pair pairs ih =>
    obtain ⟨key, value⟩ := pair
    have new : key ∉ members.map (·.1) := not_mem_of_nodup_append_cons distinct
    rw [List.append_cons] at distinct
    simp only [List.foldl_cons]
    rw [put_of_not_mem new, ih distinct, List.append_assoc, List.singleton_append]

theorem collect_of_nodup {pairs : List (String × Json)} (distinct : (pairs.map (·.1)).Nodup) :
    collect pairs = pairs :=
  foldl_put distinct

theorem lookup_of_member? {name : String} {members : List (String × Json)} {json : Json}
    (h : member? name members = some json) : members.lookup name = some json := by
  unfold member? at h
  split at h
  · cases h
  · cases h
  · next found =>
    cases h
    exact found

theorem member?_of_lookup {name : String} {members : List (String × Json)} {json : Json}
    (found : members.lookup name = some json) (present : json ≠ .null) :
    member? name members = some json := by
  unfold member?
  rw [found]
  cases json with
  | null => exact absurd rfl present
  | _ => rfl

def pointerOf (key : String) : Json → List String
  | .string text => if key = "$ref" then [text] else []
  | _ => []

mutual

def pointers : Json → List String
  | .array items => pointersOfItems items
  | .object members => pointersOfMembers members
  | _ => []

def pointersOfItems : List Json → List String
  | [] => []
  | item :: items => item.pointers ++ pointersOfItems items

def pointersOfMembers : List (String × Json) → List String
  | [] => []
  | (key, value) :: members => pointerOf key value ++ value.pointers ++ pointersOfMembers members

end

theorem pointers_string (text : String) : (Json.string text).pointers = [] :=
  rfl

theorem pointerOf_string {key : String} (other : key ≠ "$ref") (text : String) :
    pointerOf key (.string text) = [] :=
  if_neg other

theorem pointersOfMembers_append (left right : List (String × Json)) :
    pointersOfMembers (left ++ right) = pointersOfMembers left ++ pointersOfMembers right := by
  induction left with
  | nil => rfl
  | cons member left ih =>
    rw [List.cons_append, pointersOfMembers, pointersOfMembers, ih, List.append_assoc,
      List.append_assoc, List.append_assoc]

def unescape : List Char → List Char
  | '~' :: '0' :: rest => '~' :: unescape rest
  | '~' :: '1' :: rest => '/' :: unescape rest
  | c :: rest => c :: unescape rest
  | [] => []

theorem unescape_of_not_mem {part : List Char} (h : '~' ∉ part) : unescape part = part := by
  induction part with
  | nil => rfl
  | cons c rest ih =>
    rw [List.mem_cons, not_or] at h
    have other : c ≠ '~' := Ne.symm h.1
    unfold unescape
    split
    · next same => exact absurd (List.cons.inj same).1 other
    · next same => exact absurd (List.cons.inj same).1 other
    · next same =>
      obtain ⟨rfl, rfl⟩ := List.cons.inj same
      rw [ih h.2]
    · next same => cases same

def part? (part : List Char) : Json → Option Json
  | .object members => members.lookup (String.ofList (unescape part))
  | _ => none

/-- What a pointer leads to from the root of a document. -/
def resolve? (root : Json) (pointer : String) : Option Json :=
  match pointer.toList.splitOn '/' with
  | ['#'] :: parts => parts.foldlM (fun value part => value.part? part) root
  | _ => none

theorem resolve?_pointer {id : String} (slash : '/' ∉ id.toList) (tilde : '~' ∉ id.toList)
    {members entries : List (String × Json)}
    (found : members.lookup "$defs" = some (.object entries)) :
    (Json.object members).resolve? (Schema.pointer id) = entries.lookup id := by
  have whole : (Schema.pointer id).toList =
      ['/'].intercalate [['#'], ['$', 'd', 'e', 'f', 's'], id.toList] := by
    have defs : "#/$defs/".toList = ['#', '/', '$', 'd', 'e', 'f', 's', '/'] := by decide
    rw [Schema.pointer, String.toList_append, defs, List.intercalate_cons_cons,
      List.intercalate_cons_cons, List.intercalate_singleton]
    rfl
  have parts : (Schema.pointer id).toList.splitOn '/' =
      [['#'], ['$', 'd', 'e', 'f', 's'], id.toList] := by
    rw [whole]
    apply List.splitOn_intercalate
    · intro part hp
      simp only [List.mem_cons, List.not_mem_nil, or_false] at hp
      rcases hp with rfl | rfl | rfl
      · decide
      · decide
      · exact slash
    · exact List.cons_ne_nil _ _
  have first : (Json.object members).part? ['$', 'd', 'e', 'f', 's'] = some (.object entries) :=
    found
  have second : (Json.object entries).part? id.toList = entries.lookup id := by
    rw [part?, unescape_of_not_mem tilde, String.ofList_toList]
  rw [resolve?, parts]
  simp only [List.foldlM_cons, List.foldlM_nil, first, Option.bind_eq_bind, Option.bind_some,
    second, Option.pure_def, Option.bind_fun_some]

end Json

end ToolChat
