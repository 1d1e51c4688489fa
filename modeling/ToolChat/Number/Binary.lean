import ToolChat.Number.Format

/-!
Floating-point values of a format.

A finite value is a sign and a count of units that lies on the format's grid, so its exact value
is that count times `2 ^ (-scale)`, and arithmetic is exact arithmetic on counts followed by one
rounding. The two zeros are different values that compare equal.
-/

set_option autoImplicit false

namespace ToolChat

/-- A finite floating-point value: `units * 2 ^ (-scale)`, with a sign. -/
structure Finite (f : Format) where
  negative : Bool
  units : Nat
  representable : f.Representable units
  deriving DecidableEq

inductive Binary (f : Format) where
  | nan
  | infinite (negative : Bool)
  | finite (x : Finite f)
  deriving DecidableEq

abbrev Double := Binary .double

abbrev Single := Binary .single

namespace Finite

variable {f : Format}

def zero : Finite f :=
  ⟨false, 0, Nat.dvd_zero _, Nat.two_pow_pos _⟩

instance : Inhabited (Finite f) := ⟨zero⟩

def neg (x : Finite f) : Finite f :=
  { x with negative := !x.negative }

def isZero (x : Finite f) : Bool :=
  x.units == 0

/-- The value in units, as an integer. Both zeros give `0`. -/
def signedUnits (x : Finite f) : Int :=
  if x.negative then -(x.units : Int) else x.units

def toInt? (x : Finite f) : Option Int :=
  let one : Int := (Nat.pow 2 f.scale : Nat)
  if x.signedUnits % one = 0 then some (x.signedUnits / one) else none

/-- Whether the magnitude is below the whole number `limit`. -/
def magnitudeBelow (x : Finite f) (limit : Nat) : Bool :=
  x.units < limit * Nat.pow 2 f.scale

def same (x y : Finite f) : Bool :=
  x.signedUnits == y.signedUnits

end Finite

namespace Binary

variable {f : Format}

/-- A magnitude on the grid with a sign; infinite when it is too large for the format. -/
def ofGrid (negative : Bool) (units : Nat) (onGrid : Nat.pow 2 (f.spacing units) ∣ units) :
    Binary f :=
  if below : units < f.bound then .finite ⟨negative, units, onGrid, below⟩
  else .infinite negative

/-- The value nearest to `num / den`, with a sign; a tie goes to the even neighbour. -/
def ofRatio (negative : Bool) (num den : Nat) : Binary f :=
  ofGrid negative (f.nearest (num * Nat.pow 2 f.scale) den) (f.nearest_dvd _ _)

def ofNat (n : Nat) : Binary f :=
  ofRatio false n 1

def ofInt (n : Int) : Binary f :=
  ofRatio (n < 0) n.natAbs 1

def finite? : Binary f → Option (Finite f)
  | .finite x => some x
  | _ => none

def isFinite (x : Binary f) : Bool :=
  x.finite?.isSome

def neg : Binary f → Binary f
  | .nan => .nan
  | .infinite negative => .infinite (!negative)
  | .finite x => .finite x.neg

/-- Equality as arithmetic sees it: a NaN differs from everything, the two zeros are equal. -/
def same : Binary f → Binary f → Bool
  | .infinite a, .infinite b => a == b
  | .finite x, .finite y => x.same y
  | _, _ => false

/-- Whether the value lies between `0` and the whole number `limit`, ends included. -/
def between0And (limit : Nat) : Binary f → Bool
  | .finite x => 0 ≤ x.signedUnits && x.signedUnits ≤ (limit * Nat.pow 2 f.scale : Nat)
  | _ => false

def convert (g : Format) : Binary f → Binary g
  | .nan => .nan
  | .infinite negative => .infinite negative
  | .finite x => ofRatio x.negative x.units (Nat.pow 2 f.scale)

end Binary

namespace Finite

variable {f : Format}

/-- The product, rounded once. -/
def mul (x y : Finite f) : Binary f :=
  .ofRatio (x.negative != y.negative) (x.units * y.units) (Nat.pow 2 f.scale * Nat.pow 2 f.scale)

def div (x y : Finite f) : Binary f :=
  .ofRatio (x.negative != y.negative) x.units y.units

def addMagnitudes (x y : Finite f) : Binary f :=
  .ofRatio false (x.units + y.units) (Nat.pow 2 f.scale)

def fits (x : Finite f) (g : Format) : Bool :=
  (Binary.convert g (.finite x)).isFinite

end Finite

end ToolChat
