import ToolChat.Json.Basic
import ToolChat.Json.Fault

/-!
Numbers in JSON text.

A numeral is the written form of a number: its digits, before they are given a value. Its value is
kept exactly if it has neither a fraction nor an exponent and is in the exact range. All others are
computed in double precision from a significand of at most 64 bits, in at most a few multiplications
or divisions by powers of ten, so the result may lie off the value that was written.
-/

set_option autoImplicit false

namespace ToolChat.Json

structure Numeral where
  negative : Bool
  /-- The digits before the point. -/
  whole : List Char
  /-- The digits after the point, if there is one. -/
  fraction : Option (List Char)
  /-- Whether the exponent is negative, and its digits, if there is one. -/
  exponent : Option (Bool × List Char)
  deriving DecidableEq, Repr

namespace Numeral

/-- A significand under construction: its value, how many whole digits no longer fitted, and how
many digits of the fraction were taken. -/
structure Significand where
  value : Nat
  dropped : Nat
  taken : Nat
  deriving DecidableEq, Repr

def digitValue (c : Char) : Nat :=
  c.toNat - '0'.toNat

/-- Takes the digits before the point. From the first digit that does not fit into 64 bits on, each
digit only counts. -/
def takeWhole (digits : List Char) (s : Significand) : Significand :=
  match digits with
  | [] => s
  | c :: rest =>
    let next := s.value * 10 + digitValue c
    if s.dropped = 0 ∧ next < 18446744073709551616 then takeWhole rest { s with value := next }
    else takeWhole rest { s with dropped := s.dropped + 1 }

/-- Takes the digits after the point up to the first that does not fit into 64 bits. -/
def takeFraction (digits : List Char) (s : Significand) : Significand :=
  match digits with
  | [] => s
  | c :: rest =>
    let next := s.value * 10 + digitValue c
    if next < 18446744073709551616 then
      takeFraction rest { s with value := next, taken := s.taken + 1 }
    else s

def significand (n : Numeral) : Significand :=
  takeFraction (n.fraction.getD []) (takeWhole n.whole ⟨0, 0, 0⟩)

/-- The value of exponent digits. If it grows beyond 31 bits, how many digits stand after the one
that made it so. -/
def exponentValue (digits : List Char) (value : Nat) : Except Nat Nat :=
  match digits with
  | [] => .ok value
  | c :: rest =>
    let next := value * 10 + digitValue c
    if next < 2147483648 then exponentValue rest next else .error rest.length

def powerOfTen (k : Nat) : Finite .double :=
  ((Binary.ofNat (Nat.pow 10 k) : Double).finite?).getD .zero

def greatestPower : Nat := 308

/-- Divides by the greatest power of ten `times` times, as long as the value is not zero. -/
def shrink : (times : Nat) → Finite .double → Finite .double
  | 0, x => x
  | times + 1, x =>
    if x.isZero then x
    else shrink times ((x.div (powerOfTen greatestPower)).finite?.getD .zero)

/-- The double precision value computed for `value * 10 ^ exponent`; `none` if it is too large. -/
def scaled (value : Nat) (exponent : Int) : Option (Finite .double) :=
  let x := (Binary.ofNat value : Double).finite?.getD .zero
  if 0 ≤ exponent then
    if exponent ≤ greatestPower then (x.mul (powerOfTen exponent.toNat)).finite?
    else if x.isZero then some x else none
  else
    let size := exponent.natAbs
    let times := (size - 1) / greatestPower
    let x := shrink times x
    if x.isZero then some x
    else (x.div (powerOfTen (size - times * greatestPower))).finite?

def signed (n : Numeral) (x : Finite .double) : Number :=
  .float (if n.negative then x.neg else x)

/-- The value of a numeral. A number out of range is reported with the count of digits that were
not looked at. -/
def value (n : Numeral) : Except Nat Number :=
  let s := n.significand
  match n.fraction, n.exponent with
  | none, none =>
    let whole : Int := if n.negative then -(s.value : Int) else s.value
    if s.dropped = 0 then
      if h : InExactRange whole ∧ ¬(n.negative = true ∧ s.value = 0) then
        .ok (.integer whole h.1)
      else ((scaled s.value 0).map n.signed).elim (.error 0) .ok
    else ((scaled s.value s.dropped).map n.signed).elim (.error 0) .ok
  | _, none => ((scaled s.value (s.dropped - s.taken)).map n.signed).elim (.error 0) .ok
  | _, some (negativeExponent, digits) =>
    match exponentValue digits 0 with
    | .ok e =>
      let e : Int := if negativeExponent then -(e : Int) else e
      ((scaled s.value (s.dropped - s.taken + e)).map n.signed).elim (.error 0) .ok
    | .error unseen =>
      if !negativeExponent && s.value != 0 then .error unseen else .ok (n.signed .zero)

end Numeral

end ToolChat.Json
