import ToolChat.Number.Binary

/-!
The shortest decimal that reads back.

Around a finite value lies the interval of numbers that round to it, its ends included when the
significand is even. For one digit, two digits and so on, the two decimals of that length next to
the value are tried; the first length with a decimal inside the interval wins, and of two such
decimals the nearer one.
-/

set_option autoImplicit false

namespace ToolChat

/-- A decimal in scientific form: the digits `d₁ d₂ …` stand for `d₁.d₂… * 10 ^ exponent`. -/
structure Scientific where
  digits : List Char
  exponent : Int
  deriving DecidableEq, Repr

/-- Which of two equally near decimals is taken. -/
inductive Tie where
  /-- The larger one. -/
  | up
  /-- The one whose last digit is even. -/
  | even
  deriving DecidableEq, Repr

namespace Scientific

def zero : Scientific := ⟨['0'], 0⟩

/-- The decimal `coefficient * 10 ^ power`, without trailing zeros. -/
def ofCoefficient (coefficient : Nat) (power : Int) : Scientific :=
  let digits := Nat.toDigits 10 coefficient
  ⟨(digits.reverse.dropWhile (· == '0')).reverse, power + (digits.length - 1 : Nat)⟩

end Scientific

namespace Finite

variable {f : Format}

/-- How often `n` has to be multiplied by ten to reach `target`, up to `most` times. -/
def tensToReach (target : Nat) : (most : Nat) → (n : Nat) → Nat
  | 0, _ => 0
  | most + 1, n => if target ≤ n then 0 else tensToReach target most (10 * n) + 1

/-- The exponent of the first decimal digit of a nonzero magnitude. -/
def decimalExponent (x : Finite f) : Int :=
  let one := Nat.pow 2 f.scale
  if one ≤ x.units then ((Nat.toDigits 10 (x.units / one)).length - 1 : Nat)
  else -(tensToReach one f.scale x.units : Int)

/-- Half the distance to the next larger value, in quarters of a unit. -/
def quartersUp (x : Finite f) : Nat :=
  2 * Nat.pow 2 (f.spacing x.units)

/-- Half the distance to the next smaller value, in quarters of a unit. Below a power of two the
grid is twice as fine. -/
def quartersDown (x : Finite f) : Nat :=
  let gap := Nat.pow 2 (f.spacing x.units)
  if x.units = Nat.pow 2 x.units.log2 ∧ 1 < gap then gap else 2 * gap

def evenSignificand (x : Finite f) : Bool :=
  x.units / Nat.pow 2 (f.spacing x.units) % 2 == 0

/-- The decimal with the last digit at `10 ^ power` that lies nearest to a nonzero magnitude,
among those that round to it. -/
def decimalAt? (tie : Tie) (x : Finite f) (power : Int) : Option Nat :=
  let up := Nat.pow 10 (-power).toNat
  let one := 4 * Nat.pow 2 f.scale * Nat.pow 10 power.toNat
  let value := 4 * x.units * up
  let least := (4 * x.units - x.quartersDown) * up
  let greatest := (4 * x.units + x.quartersUp) * up
  let inside (c : Nat) : Bool :=
    if x.evenSignificand then least ≤ c * one && c * one ≤ greatest
    else least < c * one && c * one < greatest
  let below := value / one
  let rest := value % one
  match inside below, inside (below + 1) with
  | false, false => none
  | true, false => some below
  | false, true => some (below + 1)
  | true, true =>
    if 2 * rest < one then some below
    else if one < 2 * rest then some (below + 1)
    else match tie with
      | .up => some (below + 1)
      | .even => some (if below % 2 = 0 then below else below + 1)

/-- As many digits as ever tell two neighbouring values of double precision apart. -/
def mostDigits : Nat := 17

/-- The shortest decimal of a magnitude that reads back as the same value; the exact decimal where
none of up to `mostDigits` digits does. -/
def shortest (tie : Tie) (x : Finite f) : Scientific :=
  if x.isZero then .zero
  else
    let first := x.decimalExponent
    let hit := (List.range mostDigits).findSome? fun (k : Nat) =>
      (x.decimalAt? tie (first - k)).map (·, first - (k : Int))
    match hit with
    | some (coefficient, power) => .ofCoefficient coefficient power
    | none => .ofCoefficient (x.units * Nat.pow 5 f.scale) (-(f.scale : Int))

end Finite

end ToolChat
