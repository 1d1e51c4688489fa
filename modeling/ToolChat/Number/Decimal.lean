import ToolChat.Number.Binary

/-!
Reading decimal text as the nearest floating-point value.

The text is an optional sign and then `nan`, `inf` or `infinity` in any letter case, or digits with
an optional point and an optional exponent, at least one digit standing before or after the point.
-/

set_option autoImplicit false

namespace ToolChat

/-- A decimal with a sign: `coefficient * 10 ^ exponent`. -/
structure Decimal where
  negative : Bool
  coefficient : Nat
  exponent : Int
  deriving DecidableEq, Repr

namespace Decimal

def digitsValue (digits : List Char) : Nat :=
  Nat.ofDigitChars 10 digits 0

def readDigits? (text : List Char) : Option Nat :=
  if !text.isEmpty && text.all Char.isDigit then some (digitsValue text) else none

def readExponent? : List Char → Option Int
  | '-' :: digits => (readDigits? digits).map fun n => -(n : Int)
  | '+' :: digits => (readDigits? digits).map fun n => (n : Int)
  | digits => (readDigits? digits).map fun n => (n : Int)

def readMagnitude? (text : List Char) : Option (Nat × Int) :=
  let whole := text.takeWhile Char.isDigit
  let rest := text.dropWhile Char.isDigit
  let (fraction, tail) := match rest with
    | '.' :: after => (after.takeWhile Char.isDigit, after.dropWhile Char.isDigit)
    | _ => ([], rest)
  if whole.isEmpty && fraction.isEmpty then none
  else
    let exponent? := match tail with
      | [] => some 0
      | c :: after => if c == 'e' || c == 'E' then readExponent? after else none
    exponent?.map fun exponent =>
      (digitsValue (whole ++ fraction), exponent - (fraction.length : Int))

/-- The value of a format nearest to a decimal. A decimal far beyond the largest or below the
smallest magnitude is settled by its length alone. -/
def toBinary (f : Format) (d : Decimal) : Binary f :=
  let length : Int := (Nat.toDigits 10 d.coefficient).length
  if d.coefficient = 0 ∨ d.exponent + length < -(f.scale : Int) then .ofRatio d.negative 0 1
  else if (f.top : Int) < d.exponent + length - 1 then .infinite d.negative
  else .ofRatio d.negative (d.coefficient * Nat.pow 10 d.exponent.toNat)
    (Nat.pow 10 (-d.exponent).toNat)

end Decimal

namespace Binary

def readUnsigned? (f : Format) (negative : Bool) (text : List Char) : Option (Binary f) :=
  let lower := String.ofList (text.map Char.toLower)
  if lower == "nan" then some .nan
  else if lower == "inf" || lower == "infinity" then some (.infinite negative)
  else (Decimal.readMagnitude? text).map fun (coefficient, exponent) =>
    Decimal.toBinary f ⟨negative, coefficient, exponent⟩

def ofText? (f : Format) (text : String) : Option (Binary f) :=
  match text.toList with
  | '-' :: rest => readUnsigned? f true rest
  | '+' :: rest => readUnsigned? f false rest
  | rest => readUnsigned? f false rest

end Binary

end ToolChat
