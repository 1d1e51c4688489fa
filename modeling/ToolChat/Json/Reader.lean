import ToolChat.Json.Scan

/-!
Reading JSON text.

The reader keeps the arrays and objects that are still open in a list of frames, the innermost
first. `readValue` reads up to the end of a value and gives it to `resume`, which puts it into the
innermost frame and goes on from there; every step leaves fewer characters to read. A bracket that
would open the 128th frame is refused.
-/

set_option autoImplicit false

namespace ToolChat.Json

/-- An array or object that is still open. -/
inductive Frame where
  /-- An array, with its items so far, the latest first. -/
  | items (done : List Json)
  /-- An object, with its members so far and the key of the value being read. -/
  | members (done : List (String × Json)) (key : String)

/-- The number of arrays and objects that may be open at once. -/
def mostOpen : Nat := 127

mutual

def readValue (frames : List Frame) (cs : List Char) : Except Fault Json :=
  match _h : skipBlanks cs with
  | [] => .error (.before .endInValue [])
  | c :: rest =>
    if c = '[' then
      if mostOpen ≤ frames.length then .error (.after .tooDeep 1 (c :: rest))
      else match _h' : skipBlanks rest with
        | [] => .error (.before .endInList [])
        | d :: rest' =>
          if d = ']' then resume frames (.array []) rest'
          else readValue (.items [] :: frames) (d :: rest')
    else if c = '\x7b' then
      if mostOpen ≤ frames.length then .error (.after .tooDeep 1 (c :: rest))
      else match _h' : skipBlanks rest with
        | [] => .error (.before .endInObject [])
        | d :: rest' =>
          if d = '\x7d' then resume frames (.object []) rest'
          else readMember frames [] (d :: rest')
    else if c = '"' then
      match _h' : scanString [] rest with
      | .error fault => .error fault
      | .ok (s, rest') => resume frames (.string s) rest'
    else if c = 'n' then
      match _h' : scanWord ['u', 'l', 'l'] rest with
      | .error fault => .error fault
      | .ok rest' => resume frames .null rest'
    else if c = 't' then
      match _h' : scanWord ['r', 'u', 'e'] rest with
      | .error fault => .error fault
      | .ok rest' => resume frames (.boolean true) rest'
    else if c = 'f' then
      match _h' : scanWord ['a', 'l', 's', 'e'] rest with
      | .error fault => .error fault
      | .ok rest' => resume frames (.boolean false) rest'
    else if c = '-' ∨ c.isDigit then
      match _h' : scanNumber (c :: rest) with
      | .error fault => .error fault
      | .ok (n, rest') => resume frames (.number n) rest'
    else .error (.after .expectedValue 1 (c :: rest))
termination_by cs.length
decreasing_by
  all_goals
    have hs := skipBlanks_length_le cs
    rw [_h] at hs
    simp only [List.length_cons] at hs
  · have := skipBlanks_length_le rest
    rw [_h'] at this
    simp only [List.length_cons] at this
    omega
  · have := skipBlanks_length_le rest
    rw [_h'] at this
    omega
  · have := skipBlanks_length_le rest
    rw [_h'] at this
    simp only [List.length_cons] at this
    omega
  · have := skipBlanks_length_le rest
    rw [_h'] at this
    omega
  · have := scanString_shorter _h'
    omega
  · have := scanWord_length_le _h'
    omega
  · have := scanWord_length_le _h'
    omega
  · have := scanWord_length_le _h'
    omega
  · have := scanNumber_shorter _h'
    simp only [List.length_cons] at this
    omega

/-- Reads a member of the innermost object up to its colon, then its value. -/
def readMember (frames : List Frame) (done : List (String × Json)) (cs : List Char) :
    Except Fault Json :=
  match cs with
  | [] => .error (.before .endInObject [])
  | c :: rest =>
    if c = '"' then
      match _h : scanString [] rest with
      | .error fault => .error fault
      | .ok (key, rest') =>
        match _h' : skipBlanks rest' with
        | [] => .error (.before .endInObject [])
        | d :: rest'' =>
          if d = ':' then readValue (.members done key :: frames) rest''
          else .error (.after .expectedColon 1 (d :: rest''))
    else .error (.after .keyNotString 1 (c :: rest))
termination_by cs.length
decreasing_by
  have := scanString_shorter _h
  have hs := skipBlanks_length_le rest'
  rw [_h'] at hs
  simp only [List.length_cons] at *
  omega

/-- Goes on after a value: puts it into the innermost frame, or ends if none is open. -/
def resume (frames : List Frame) (value : Json) (cs : List Char) : Except Fault Json :=
  match frames with
  | [] =>
    match skipBlanks cs with
    | [] => .ok value
    | c :: rest => .error (.after .trailingCharacters 1 (c :: rest))
  | .items done :: frames =>
    match _h : skipBlanks cs with
    | [] => .error (.before .endInList [])
    | c :: rest =>
      if c = ']' then resume frames (.array (value :: done).reverse) rest
      else if c = ',' then
        match _h' : skipBlanks rest with
        | [] => .error (.before .endInValue [])
        | d :: rest' =>
          if d = ']' then .error (.after .trailingComma 1 (d :: rest'))
          else readValue (.items (value :: done) :: frames) (d :: rest')
      else .error (.after .expectedCommaOrBracket 1 (c :: rest))
  | .members done key :: frames =>
    match _h : skipBlanks cs with
    | [] => .error (.before .endInObject [])
    | c :: rest =>
      if c = '\x7d' then resume frames (.object (put key value done)) rest
      else if c = ',' then
        match _h' : skipBlanks rest with
        | [] => .error (.before .endInValue [])
        | d :: rest' =>
          if d = '\x7d' then .error (.after .trailingComma 1 (d :: rest'))
          else readMember frames (put key value done) (d :: rest')
      else .error (.after .expectedCommaOrBrace 1 (c :: rest))
termination_by cs.length
decreasing_by
  all_goals
    have hs := skipBlanks_length_le cs
    rw [_h] at hs
    simp only [List.length_cons] at hs
  · omega
  · have := skipBlanks_length_le rest
    rw [_h'] at this
    omega
  · omega
  · have := skipBlanks_length_le rest
    rw [_h'] at this
    omega

end

theorem readMember_of_key {frames : List Frame} {done : List (String × Json)}
    {cs rest : List Char} {key : String} (scanned : scanString [] cs = .ok (key, ':' :: rest)) :
    readMember frames done ('"' :: cs) = readValue (.members done key :: frames) rest := by
  rw [readMember, if_pos rfl]
  split
  · next failed => cases failed.symm.trans scanned
  · next again =>
    cases again.symm.trans scanned
    rfl

theorem readValue_of_digit {frames : List Frame} {c : Char} {cs rest : List Char} {n : Number}
    (digit : c.isDigit = true) (scanned : scanNumber (c :: cs) = .ok (n, rest)) :
    readValue frames (c :: cs) = resume frames (.number n) rest := by
  have other : ∀ d : Char, d.isDigit = false → c ≠ d := by
    rintro d none rfl
    cases none.symm.trans digit
  have visible : isJsonBlank c = false := by
    simp [isJsonBlank, other]
  have here : skipBlanks (c :: cs) = c :: cs := by
    rw [skipBlanks, List.dropWhile_cons_of_neg (Bool.eq_false_iff.1 visible)]
  rw [readValue]
  split
  · next none => cases here.symm.trans none
  · next again =>
    cases here.symm.trans again
    rw [if_neg (other _ rfl), if_neg (other _ rfl), if_neg (other _ rfl), if_neg (other _ rfl),
      if_neg (other _ rfl), if_neg (other _ rfl), if_pos (.inr digit)]
    split
    · next failed => cases failed.symm.trans scanned
    · next again =>
      cases again.symm.trans scanned
      rfl

/-- Reads a text that holds one value and blanks around it. -/
def read (text : List Char) : Except Fault Json :=
  readValue [] text

end ToolChat.Json
