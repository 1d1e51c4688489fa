import ToolChat.Json.Numeral

/-!
Reading the parts of JSON text that do not nest: blanks, words, strings and numerals.

Each reader takes the characters left and hands back what remains of them; the lemmas at the end say
that something was read, which is what lets the reader of whole values terminate.
-/

set_option autoImplicit false

namespace ToolChat.Json

def isJsonBlank (c : Char) : Bool :=
  c == ' ' || c == '\n' || c == '\t' || c == '\r'

def skipBlanks (cs : List Char) : List Char :=
  cs.dropWhile isJsonBlank

def scanWord : (letters : List Char) → List Char → Except Fault (List Char)
  | [], cs => .ok cs
  | _ :: _, [] => .error (.before .endInValue [])
  | letter :: letters, c :: cs =>
    if c = letter then scanWord letters cs else .error (.after .expectedWord 1 (c :: cs))

def hexValue? (c : Char) : Option Nat :=
  if c.isDigit then some (c.toNat - '0'.toNat)
  else if 'a' ≤ c ∧ c ≤ 'f' then some (c.toNat - 'a'.toNat + 10)
  else if 'A' ≤ c ∧ c ≤ 'F' then some (c.toNat - 'A'.toNat + 10)
  else none

def hexQuad? (a b c d : Char) : Option Nat :=
  match hexValue? a, hexValue? b, hexValue? c, hexValue? d with
  | some a, some b, some c, some d => some (((a * 16 + b) * 16 + c) * 16 + d)
  | _, _, _, _ => none

/-- Reads the four digits of a hexadecimal escape. With fewer than four bytes left the text has
ended. -/
def scanHex (cs : List Char) : Except Fault (Nat × List Char) :=
  if byteCount cs < 4 then .error (.before .endInString [])
  else match cs with
    | a :: b :: c :: d :: rest =>
      match hexQuad? a b c d with
      | some n => .ok (n, rest)
      | none => .error (.after .invalidEscape 4 cs)
    | _ => .error (.after .invalidEscape 4 cs)

/-- Reads one character that has to be there inside a hexadecimal escape. -/
def scanInEscape (expected : Char) : List Char → Except Fault (List Char)
  | [] => .error (.before .endInString [])
  | c :: cs => if c = expected then .ok cs else .error (.after .unfinishedSurrogatePair 1 (c :: cs))

/-- Reads a hexadecimal escape after its letter: one escape, or two that make a surrogate pair. -/
def scanUnicode (cs : List Char) : Except Fault (Char × List Char) := do
  let (high, cs) ← scanHex cs
  if 0xDC00 ≤ high ∧ high ≤ 0xDFFF then
    .error (.before .loneSurrogate cs)
  else if 0xD800 ≤ high ∧ high ≤ 0xDBFF then
    let cs ← scanInEscape '\\' cs
    let cs ← scanInEscape 'u' cs
    let (low, cs) ← scanHex cs
    if 0xDC00 ≤ low ∧ low ≤ 0xDFFF then
      .ok (Char.ofNat (0x10000 + (high - 0xD800) * 0x400 + (low - 0xDC00)), cs)
    else .error (.before .loneSurrogate cs)
  else .ok (Char.ofNat high, cs)

def scanEscape : List Char → Except Fault (Char × List Char)
  | [] => .error (.before .endInString [])
  | c :: cs =>
    if c = '"' ∨ c = '\\' ∨ c = '/' then .ok (c, cs)
    else if c = 'b' then .ok ('\x08', cs)
    else if c = 'f' then .ok ('\x0c', cs)
    else if c = 'n' then .ok ('\n', cs)
    else if c = 'r' then .ok ('\r', cs)
    else if c = 't' then .ok ('\t', cs)
    else if c = 'u' then scanUnicode cs
    else .error (.after .invalidEscape 1 (c :: cs))

theorem scanHex_shorter {cs rest : List Char} {n : Nat} (h : scanHex cs = .ok (n, rest)) :
    rest.length < cs.length := by
  unfold scanHex at h
  split at h
  · cases h
  · split at h
    · split at h
      · cases h
        simp only [List.length_cons]
        omega
      · cases h
    · cases h

theorem scanInEscape_shorter {expected : Char} {cs rest : List Char}
    (h : scanInEscape expected cs = .ok rest) : rest.length < cs.length := by
  cases cs with
  | nil => cases h
  | cons c cs =>
    simp only [scanInEscape] at h
    split at h
    · cases h
      simp
    · cases h

theorem scanUnicode_shorter {cs rest : List Char} {c : Char}
    (h : scanUnicode cs = .ok (c, rest)) : rest.length < cs.length := by
  unfold scanUnicode at h
  cases h₁ : scanHex cs with
  | error e => rw [h₁] at h; cases h
  | ok first =>
    obtain ⟨high, cs₁⟩ := first
    have s₁ := scanHex_shorter h₁
    rw [h₁] at h
    simp only [bind, Except.bind] at h
    split at h
    · cases h
    split at h
    · cases h₂ : scanInEscape '\\' cs₁ with
      | error e => rw [h₂] at h; cases h
      | ok cs₂ =>
        have s₂ := scanInEscape_shorter h₂
        rw [h₂] at h
        dsimp only at h
        cases h₃ : scanInEscape 'u' cs₂ with
        | error e => rw [h₃] at h; cases h
        | ok cs₃ =>
          have s₃ := scanInEscape_shorter h₃
          rw [h₃] at h
          dsimp only at h
          cases h₄ : scanHex cs₃ with
          | error e => rw [h₄] at h; cases h
          | ok second =>
            obtain ⟨low, cs₄⟩ := second
            have s₄ := scanHex_shorter h₄
            rw [h₄] at h
            dsimp only at h
            split at h
            · simp only [Except.ok.injEq, Prod.mk.injEq] at h
              obtain ⟨_, rfl⟩ := h
              omega
            · cases h
    · simp only [Except.ok.injEq, Prod.mk.injEq] at h
      obtain ⟨_, rfl⟩ := h
      exact s₁

theorem scanEscape_shorter {cs rest : List Char} {c : Char}
    (h : scanEscape cs = .ok (c, rest)) : rest.length < cs.length := by
  cases cs with
  | nil => cases h
  | cons d cs =>
    simp only [scanEscape] at h
    split at h
    · cases h; simp
    split at h
    · cases h; simp
    split at h
    · cases h; simp
    split at h
    · cases h; simp
    split at h
    · cases h; simp
    split at h
    · cases h; simp
    split at h
    · have := scanUnicode_shorter h
      simp only [List.length_cons]
      omega
    · cases h

/-- Reads a string after its opening quote. The characters already read are given, the latest
first. -/
def scanString (read : List Char) (cs : List Char) : Except Fault (String × List Char) :=
  match cs with
  | [] => .error (.before .endInString [])
  | c :: cs =>
    if c = '"' then .ok (String.ofList read.reverse, cs)
    else if c = '\\' then
      match _h : scanEscape cs with
      | .error fault => .error fault
      | .ok (escaped, rest) => scanString (escaped :: read) rest
    else if c.toNat < 0x20 then .error (.before .controlCharacter cs)
    else scanString (c :: read) cs
termination_by cs.length
decreasing_by
  · have := scanEscape_shorter _h
    simp only [List.length_cons]
    omega
  · simp

theorem scanString_shorter {read cs rest : List Char} {s : String}
    (h : scanString read cs = .ok (s, rest)) : rest.length < cs.length := by
  fun_induction scanString read cs with
  | case1 => cases h
  | case2 => cases h; simp
  | case3 => cases h
  | case4 read cs escaped rest' h' _ ih =>
    have := scanEscape_shorter h'
    have := ih h
    simp only [List.length_cons]
    omega
  | case5 => cases h
  | case6 read c cs _ _ _ ih =>
    have := ih h
    simp only [List.length_cons]
    omega

/-- Reads the digits before the point: a zero stands alone. -/
def scanWhole : List Char → Except Fault (List Char × List Char)
  | [] => .error (.before .endInValue [])
  | c :: cs =>
    if c = '0' then
      if (cs.head?.map Char.isDigit).getD false then .error (.after .invalidNumber 1 cs)
      else .ok ([c], cs)
    else if c.isDigit then .ok (c :: cs.takeWhile Char.isDigit, cs.dropWhile Char.isDigit)
    else .error (.after .invalidNumber 1 (c :: cs))

def scanFraction : List Char → Except Fault (Option (List Char) × List Char)
  | '.' :: cs =>
    match cs.takeWhile Char.isDigit, cs with
    | [], [] => .error (.before .endInValue [])
    | [], _ => .error (.after .invalidNumber 1 cs)
    | digits, _ => .ok (some digits, cs.dropWhile Char.isDigit)
  | cs => .ok (none, cs)

def scanExponentDigits : List Char → Except Fault (List Char × List Char)
  | [] => .error (.before .endInValue [])
  | c :: cs =>
    if c.isDigit then .ok (c :: cs.takeWhile Char.isDigit, cs.dropWhile Char.isDigit)
    else .error (.after .invalidNumber 1 (c :: cs))

/-- Reads the sign of an exponent: a plus may stand for none. -/
def scanExponentSign : List Char → Bool × List Char
  | '+' :: cs => (false, cs)
  | '-' :: cs => (true, cs)
  | cs => (false, cs)

def scanExponent : List Char → Except Fault (Option (Bool × List Char) × List Char)
  | [] => .ok (none, [])
  | c :: cs =>
    if c = 'e' ∨ c = 'E' then
      let signed := scanExponentSign cs
      (scanExponentDigits signed.2).map fun (digits, rest) => (some (signed.1, digits), rest)
    else .ok (none, c :: cs)

def scanSign : List Char → Bool × List Char
  | '-' :: cs => (true, cs)
  | cs => (false, cs)

def scanNumeral (cs : List Char) : Except Fault (Numeral × List Char) := do
  let (whole, afterWhole) ← scanWhole (scanSign cs).2
  let (fraction, afterFraction) ← scanFraction afterWhole
  let (exponent, rest) ← scanExponent afterFraction
  .ok (⟨(scanSign cs).1, whole, fraction, exponent⟩, rest)

/-- Reads a number. One out of range is reported after the last digit looked at. -/
def scanNumber (cs : List Char) : Except Fault (Number × List Char) := do
  let (numeral, rest) ← scanNumeral cs
  match numeral.value with
  | .ok n => .ok (n, rest)
  | .error unseen => .error ⟨.numberOutOfRange, byteCount rest + unseen⟩

theorem skipBlanks_length_le (cs : List Char) : (skipBlanks cs).length ≤ cs.length :=
  (List.dropWhile_sublist isJsonBlank).length_le

theorem scanWord_length_le {letters cs rest : List Char} (h : scanWord letters cs = .ok rest) :
    rest.length ≤ cs.length := by
  induction letters generalizing cs with
  | nil => cases h; exact Nat.le_refl _
  | cons letter letters ih =>
    cases cs with
    | nil => cases h
    | cons c cs =>
      simp only [scanWord] at h
      split at h
      · exact Nat.le_succ_of_le (ih h)
      · cases h

theorem scanWhole_shorter {cs rest whole : List Char} (h : scanWhole cs = .ok (whole, rest)) :
    rest.length < cs.length := by
  cases cs with
  | nil => cases h
  | cons c cs =>
    simp only [scanWhole] at h
    repeat' split at h
    all_goals cases h
    · simp
    · exact Nat.lt_succ_of_le (List.dropWhile_sublist Char.isDigit).length_le

theorem scanFraction_length_le {cs rest : List Char} {fraction : Option (List Char)}
    (h : scanFraction cs = .ok (fraction, rest)) : rest.length ≤ cs.length := by
  unfold scanFraction at h
  split at h
  · split at h
    · cases h
    · cases h
    · cases h
      exact Nat.le_succ_of_le (List.dropWhile_sublist Char.isDigit).length_le
  · cases h
    exact Nat.le_refl _

theorem scanExponentDigits_shorter {cs rest digits : List Char}
    (h : scanExponentDigits cs = .ok (digits, rest)) : rest.length < cs.length := by
  cases cs with
  | nil => cases h
  | cons c cs =>
    simp only [scanExponentDigits] at h
    split at h
    · cases h
      exact Nat.lt_succ_of_le (List.dropWhile_sublist Char.isDigit).length_le
    · cases h

theorem scanExponentSign_length_le (cs : List Char) :
    (scanExponentSign cs).2.length ≤ cs.length := by
  unfold scanExponentSign
  split <;> simp

theorem scanExponent_length_le {cs rest : List Char} {exponent : Option (Bool × List Char)}
    (h : scanExponent cs = .ok (exponent, rest)) : rest.length ≤ cs.length := by
  cases cs with
  | nil => cases h; exact Nat.le_refl _
  | cons c cs =>
    simp only [scanExponent] at h
    split at h
    · cases hd : scanExponentDigits (scanExponentSign cs).2 with
      | error e => rw [hd] at h; cases h
      | ok p =>
        obtain ⟨digits, after⟩ := p
        have := scanExponentDigits_shorter hd
        have := scanExponentSign_length_le cs
        rw [hd] at h
        cases h
        simp only [List.length_cons]
        omega
    · cases h
      exact Nat.le_refl _

theorem scanSign_length_le (cs : List Char) : (scanSign cs).2.length ≤ cs.length := by
  unfold scanSign
  split <;> simp

theorem scanNumeral_shorter {cs rest : List Char} {numeral : Numeral}
    (h : scanNumeral cs = .ok (numeral, rest)) : rest.length < cs.length := by
  unfold scanNumeral at h
  have s₀ := scanSign_length_le cs
  cases h₁ : scanWhole (scanSign cs).2 with
  | error e => rw [h₁] at h; cases h
  | ok afterWhole =>
    obtain ⟨whole, afterWhole⟩ := afterWhole
    have s₁ := scanWhole_shorter h₁
    rw [h₁] at h
    simp only [bind, Except.bind] at h
    cases h₂ : scanFraction afterWhole with
    | error e => rw [h₂] at h; cases h
    | ok afterFraction =>
      obtain ⟨fraction, afterFraction⟩ := afterFraction
      have s₂ := scanFraction_length_le h₂
      rw [h₂] at h
      dsimp only at h
      cases h₃ : scanExponent afterFraction with
      | error e => rw [h₃] at h; cases h
      | ok afterExponent =>
        obtain ⟨exponent, afterExponent⟩ := afterExponent
        have s₃ := scanExponent_length_le h₃
        rw [h₃] at h
        cases h
        dsimp only
        omega

theorem scanNumber_shorter {cs rest : List Char} {n : Number}
    (h : scanNumber cs = .ok (n, rest)) : rest.length < cs.length := by
  unfold scanNumber at h
  cases hn : scanNumeral cs with
  | error e => rw [hn] at h; cases h
  | ok p =>
    obtain ⟨numeral, afterNumeral⟩ := p
    have := scanNumeral_shorter hn
    rw [hn] at h
    simp only [bind, Except.bind] at h
    split at h
    · cases h
      exact this
    · cases h

end ToolChat.Json
