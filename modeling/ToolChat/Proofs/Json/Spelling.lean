import Mathlib.Data.List.Basic
import ToolChat.Json.Printer
import ToolChat.Json.Reader

/-!
What is spelled is read again.

The scanners undo the printer: a quoted string is scanned as the string, whatever follows it, and
the digits of an integer in the exact range are scanned as the integer, if what follows does not go
on with the number.
-/

set_option autoImplicit false

namespace ToolChat.Json

section Strings

theorem length_le_byteCount (cs : List Char) : cs.length ≤ byteCount cs := by
  have counts : ∀ (cs : List Char) (n : Nat),
      n + cs.length ≤ cs.foldl (fun n c => n + c.utf8Size) n := by
    intro cs
    induction cs with
    | nil => exact fun n => Nat.le_refl n
    | cons c cs ih =>
      intro n
      have size := c.utf8Size_pos
      have rest := ih (n + c.utf8Size)
      rw [List.length_cons, List.foldl_cons]
      omega
  have all := counts cs 0
  rw [Nat.zero_add] at all
  exact all

variable {read cs rest : List Char} {c : Char}

theorem scanHex_of_quad {n : Nat} {a b c d : Char} (rest : List Char)
    (digits : hexQuad? a b c d = some n) :
    scanHex (a :: b :: c :: d :: rest) = .ok (n, rest) := by
  have enough : ¬byteCount (a :: b :: c :: d :: rest) < 4 := by
    have bytes := length_le_byteCount (a :: b :: c :: d :: rest)
    simp only [List.length_cons] at bytes
    omega
  simp only [scanHex, if_neg enough, digits]

theorem hexQuad?_of_control : ∀ n < 0x20,
    hexQuad? '0' '0' (Nat.digitChar (n / 16)) (Nat.digitChar (n % 16)) = some n := by
  decide

theorem scanEscape_of_control (control : c.toNat < 0x20) :
    scanEscape ('u' :: '0' :: '0' :: Nat.digitChar (c.toNat / 16) ::
      Nat.digitChar (c.toNat % 16) :: rest) = .ok (c, rest) := by
  have hex := scanHex_of_quad rest (hexQuad?_of_control c.toNat control)
  have low : ¬(0xDC00 ≤ c.toNat ∧ c.toNat ≤ 0xDFFF) := by omega
  have high : ¬(0xD800 ≤ c.toNat ∧ c.toNat ≤ 0xDBFF) := by omega
  have unicode : scanUnicode ('0' :: '0' :: Nat.digitChar (c.toNat / 16) ::
      Nat.digitChar (c.toNat % 16) :: rest) = .ok (c, rest) := by
    simp only [scanUnicode, hex, bind, Except.bind, if_neg low, if_neg high, Char.ofNat_toNat]
  exact unicode

theorem scanEscape_of_letter {letter : Char} (h : escapeLetters.lookup c = some letter) :
    scanEscape (letter :: rest) = .ok (c, rest) := by
  obtain ⟨before, after, listed, -⟩ := List.lookup_eq_some_iff.1 h
  have member : (c, letter) ∈ escapeLetters := by
    rw [listed]
    exact List.mem_append_right _ List.mem_cons_self
  simp only [escapeLetters, List.mem_cons, List.not_mem_nil, Prod.mk.injEq, or_false] at member
  rcases member with ⟨rfl, rfl⟩ | ⟨rfl, rfl⟩ | ⟨rfl, rfl⟩ | ⟨rfl, rfl⟩ | ⟨rfl, rfl⟩ | ⟨rfl, rfl⟩ |
    ⟨rfl, rfl⟩ <;> rfl

theorem scanString_of_escape (escape : scanEscape cs = .ok (c, rest)) :
    scanString read ('\\' :: cs) = scanString (c :: read) rest := by
  rw [scanString, if_neg (by decide), if_pos rfl]
  split
  · next failed => cases failed.symm.trans escape
  · next again =>
    cases again.symm.trans escape
    rfl

theorem scanString_escapedChar (c : Char) (read rest : List Char) :
    scanString read (escapedChar c ++ rest) = scanString (c :: read) rest := by
  unfold escapedChar
  cases letter : escapeLetters.lookup c with
  | some letter => exact scanString_of_escape (scanEscape_of_letter letter)
  | none =>
    dsimp only
    split
    · next control => exact scanString_of_escape (scanEscape_of_control control)
    · next visible =>
      have quote : c ≠ '"' := by
        rintro rfl
        cases letter
      have backslash : c ≠ '\\' := by
        rintro rfl
        cases letter
      rw [List.singleton_append, scanString, if_neg quote, if_neg backslash, if_neg visible]

theorem scanString_quoted (s : String) (rest : List Char) :
    scanString [] (s.toList.flatMap escapedChar ++ '"' :: rest) = .ok (s, rest) := by
  have scans : ∀ (cs read : List Char), scanString read (cs.flatMap escapedChar ++ '"' :: rest) =
      .ok (String.ofList (read.reverse ++ cs), rest) := by
    intro cs
    induction cs with
    | nil =>
      intro read
      rw [List.flatMap_nil, List.nil_append, scanString, if_pos rfl, List.append_nil]
    | cons c cs ih =>
      intro read
      rw [List.flatMap_cons, List.append_assoc, scanString_escapedChar, ih, List.reverse_cons,
        List.append_assoc, List.singleton_append]
  rw [scans, List.reverse_nil, List.nil_append, String.ofList_toList]

end Strings

section Integers

/-- What follows a number so that the number ends there. -/
def EndsNumber (rest : List Char) : Prop :=
  ∀ c, rest.head? = some c → c.isDigit = false ∧ c ≠ '.' ∧ c ≠ 'e' ∧ c ≠ 'E'

theorem endsNumber_nil : EndsNumber [] :=
  nofun

theorem endsNumber_cons {c : Char} {rest : List Char}
    (other : c.isDigit = false ∧ c ≠ '.' ∧ c ≠ 'e' ∧ c ≠ 'E') : EndsNumber (c :: rest) := by
  rintro _ ⟨⟩
  exact other

theorem isDigit_of_toDigits_eq_cons {n : Nat} {c : Char} {cs : List Char}
    (h : Nat.toDigits 10 n = c :: cs) : c.isDigit = true :=
  Nat.isDigit_of_mem_toDigits (b := 10) (n := n) (by decide) (by decide) (h ▸ List.mem_cons_self)

theorem exists_toDigits_eq_cons {n : Nat} (pos : 0 < n) :
    ∃ c cs, Nat.toDigits 10 n = c :: cs ∧ c ≠ '0' := by
  induction n using Nat.strongRecOn with
  | ind n ih =>
    rw [Nat.toDigits_eq_if (by decide)]
    split
    · exact ⟨_, [], rfl, fun zero => Nat.ne_of_gt pos (Nat.digitChar_eq_zero.1 zero)⟩
    · next large =>
      obtain ⟨c, cs, digits, nonzero⟩ := ih (n / 10) (by omega) (by omega)
      exact ⟨c, _, by rw [digits]; rfl, nonzero⟩

variable {rest : List Char}

theorem takeWhile_digits {digits : List Char} (all : ∀ c ∈ digits, c.isDigit = true)
    (ends : EndsNumber rest) :
    (digits ++ rest).takeWhile Char.isDigit = digits ∧
      (digits ++ rest).dropWhile Char.isDigit = rest := by
  have stop : rest.takeWhile Char.isDigit = [] ∧ rest.dropWhile Char.isDigit = rest := by
    cases rest with
    | nil => exact ⟨rfl, rfl⟩
    | cons c rest =>
      have other := Bool.eq_false_iff.1 (ends c rfl).1
      exact ⟨List.takeWhile_cons_of_neg other, List.dropWhile_cons_of_neg other⟩
  rw [List.takeWhile_append_of_pos all, List.dropWhile_append_of_pos all, stop.1, stop.2,
    List.append_nil]
  exact ⟨rfl, rfl⟩

theorem scanWhole_toDigits (n : Nat) (ends : EndsNumber rest) :
    scanWhole (Nat.toDigits 10 n ++ rest) = .ok (Nat.toDigits 10 n, rest) := by
  rcases Nat.eq_zero_or_pos n with rfl | pos
  · have alone : (rest.head?.map Char.isDigit).getD false = false := by
      cases rest with
      | nil => rfl
      | cons c rest => exact (ends c rfl).1
    rw [Nat.toDigits_zero, List.singleton_append, scanWhole, if_pos rfl, alone]
    rfl
  · have all : ∀ c ∈ Nat.toDigits 10 n, c.isDigit = true := fun c hc =>
      Nat.isDigit_of_mem_toDigits (by decide) (by decide) hc
    obtain ⟨c, cs, digits, nonzero⟩ := exists_toDigits_eq_cons pos
    rw [digits] at all ⊢
    obtain ⟨taken, left⟩ := takeWhile_digits (fun d hd => all d (List.mem_cons_of_mem _ hd)) ends
    rw [List.cons_append, scanWhole, if_neg nonzero, if_pos (all c List.mem_cons_self), taken, left]

theorem le_ofDigitChars (digits : List Char) (n : Nat) : n ≤ Nat.ofDigitChars 10 digits n := by
  rw [Nat.ofDigitChars_eq_ofDigitChars_zero]
  have power : 0 < 10 ^ digits.length := Nat.pow_pos (by decide)
  exact Nat.le_add_right_of_le (Nat.le_mul_of_pos_left n power)

theorem takeWhole_of_lt {digits : List Char} {value : Nat}
    (small : Nat.ofDigitChars 10 digits value < 18446744073709551616) :
    Numeral.takeWhole digits ⟨value, 0, 0⟩ = ⟨Nat.ofDigitChars 10 digits value, 0, 0⟩ := by
  induction digits generalizing value with
  | nil => rw [Nat.ofDigitChars_nil, Numeral.takeWhole]
  | cons c digits ih =>
    -- No digit is dropped, as what was taken so far is at most the whole.
    rw [Nat.ofDigitChars_cons] at small ⊢
    have next : value * 10 + Numeral.digitValue c = 10 * value + (c.toNat - '0'.toNat) := by
      rw [Nat.mul_comm]
      rfl
    have fits := Nat.lt_of_le_of_lt (le_ofDigitChars digits _) small
    rw [Numeral.takeWhole]
    simp only [next, fits, and_self, if_true]
    exact ih small

theorem scanNumeral_of_whole {cs whole : List Char}
    (scanned : scanWhole (scanSign cs).2 = .ok (whole, rest)) (ends : EndsNumber rest) :
    scanNumeral cs = .ok (⟨(scanSign cs).1, whole, none, none⟩, rest) := by
  have fraction : scanFraction rest = .ok (none, rest) := by
    unfold scanFraction
    split
    · next digits => exact absurd rfl (ends '.' rfl).2.1
    · rfl
  have exponent : scanExponent rest = .ok (none, rest) := by
    cases rest with
    | nil => rfl
    | cons c rest =>
      obtain ⟨-, -, small, capital⟩ := ends c rfl
      rw [scanExponent, if_neg (by simp [small, capital])]
  simp only [scanNumeral, scanned, fraction, exponent, bind, Except.bind]

theorem scanNumber_of_numeral {cs : List Char} {numeral : Numeral} {n : Number}
    (scanned : scanNumeral cs = .ok (numeral, rest)) (value : numeral.value = .ok n) :
    scanNumber cs = .ok (n, rest) := by
  simp only [scanNumber, scanned, bind, Except.bind, value]

theorem value_toDigits {negative : Bool} {m : Nat} {n : Int} (inRange : InExactRange n)
    (signed : (if negative then -(m : Int) else m) = n) (proper : ¬(negative = true ∧ m = 0)) :
    (⟨negative, Nat.toDigits 10 m, none, none⟩ : Numeral).value = .ok (.integer n inRange) := by
  have small : m < 18446744073709551616 := by
    obtain ⟨low, high⟩ := inRange
    split at signed <;> omega
  have digits : Nat.ofDigitChars 10 (Nat.toDigits 10 m) 0 = m := Nat.ofDigitChars_ten_toDigits
  have whole := takeWhole_of_lt (digits.symm ▸ small)
  rw [digits] at whole
  have significand : (⟨negative, Nat.toDigits 10 m, none, none⟩ : Numeral).significand =
      ⟨m, 0, 0⟩ := by
    rw [Numeral.significand, whole]
    rfl
  subst signed
  simp only [Numeral.value, significand, if_true]
  rw [dif_pos ⟨inRange, proper⟩]

theorem scanSign_toDigits (m : Nat) (rest : List Char) :
    scanSign (Nat.toDigits 10 m ++ rest) = (false, Nat.toDigits 10 m ++ rest) := by
  cases digits : Nat.toDigits 10 m with
  | nil => exact absurd digits Nat.toDigits_ne_nil
  | cons c cs =>
    have digit := isDigit_of_toDigits_eq_cons digits
    unfold scanSign
    split
    · next minus =>
      obtain ⟨rfl, -⟩ := List.cons.inj minus
      cases digit
    · rfl

theorem scanNumber_integer {n : Int} (inRange : InExactRange n) (ends : EndsNumber rest) :
    scanNumber ((Number.integer n inRange).chars ++ rest) = .ok (.integer n inRange, rest) := by
  have whole := scanWhole_toDigits n.natAbs ends
  rw [Number.chars]
  split
  · next negative =>
    have scanned : scanNumeral ('-' :: Nat.toDigits 10 n.natAbs ++ rest) =
        .ok (⟨true, Nat.toDigits 10 n.natAbs, none, none⟩, rest) := scanNumeral_of_whole whole ends
    refine scanNumber_of_numeral scanned (value_toDigits inRange ?_ ?_)
    · rw [if_pos rfl]
      omega
    · omega
  · next positive =>
    have unsigned := scanSign_toDigits n.natAbs rest
    have scanned : scanNumeral (Nat.toDigits 10 n.natAbs ++ rest) =
        .ok (⟨false, Nat.toDigits 10 n.natAbs, none, none⟩, rest) := by
      rw [scanNumeral_of_whole (by rw [unsigned]; exact whole) ends, unsigned]
    refine scanNumber_of_numeral scanned (value_toDigits inRange ?_ nofun)
    rw [if_neg nofun]
    omega

end Integers

end ToolChat.Json
