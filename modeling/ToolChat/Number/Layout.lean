import ToolChat.Number.Shortest

/-!
How a decimal is laid out as text.

A `Layout` holds the decisions of one text format: where positional notation ends, whether a whole
number keeps one zero after the point, how an exponent is written, and how ties between shortest
decimals go. `Layout.plain` is the text of results and messages, `Layout.detailed` the text of
inspected values; the layout of JSON documents stands with the JSON printer.
-/

set_option autoImplicit false

namespace ToolChat

structure Layout where
  /-- The least and the greatest exponent written positionally; all of them if absent. -/
  positional : Option (Int × Int)
  /-- Whether a whole number is written with `.0`. -/
  wholeMark : Bool
  /-- Whether a positive exponent is written with its sign. -/
  signedExponent : Bool
  /-- Which of two equally near shortest decimals is written. -/
  tie : Tie
  deriving DecidableEq, Repr

namespace Layout

/-- Plain text: never an exponent, no `.0`, the larger of two equally near decimals. -/
def plain : Layout := ⟨none, false, false, .up⟩

/-- Detailed text: an exponent from `10 ^ 16` up and below `10 ^ (-4)`, `.0` kept. -/
def detailed : Layout := ⟨some (-4, 15), true, false, .up⟩

def positionalText (wholeMark : Bool) (d : Scientific) : String :=
  if d.exponent < 0 then
    "0." ++ String.ofList (List.replicate (-d.exponent - 1).toNat '0' ++ d.digits)
  else
    let places := d.exponent.toNat + 1
    let whole := d.digits.take places ++ List.replicate (places - d.digits.length) '0'
    let fraction := d.digits.drop places
    String.ofList whole ++
      if fraction.isEmpty then (if wholeMark then ".0" else "")
      else "." ++ String.ofList fraction

def scientificText (signedExponent : Bool) (d : Scientific) : String :=
  let fraction := d.digits.drop 1
  let exponent :=
    (if d.exponent < 0 then "-" else if signedExponent then "+" else "")
      ++ toString d.exponent.natAbs
  String.ofList (d.digits.take 1)
    ++ (if fraction.isEmpty then "" else "." ++ String.ofList fraction)
    ++ "e" ++ exponent

def isPositional (layout : Layout) (exponent : Int) : Bool :=
  match layout.positional with
  | none => true
  | some (least, greatest) => least ≤ exponent && exponent ≤ greatest

def decimalText (layout : Layout) (d : Scientific) : String :=
  if layout.isPositional d.exponent then positionalText layout.wholeMark d
  else scientificText layout.signedExponent d

def finiteText (layout : Layout) {f : Format} (x : Finite f) : String :=
  (if x.negative then "-" else "") ++ layout.decimalText (x.shortest layout.tie)

def text (layout : Layout) {f : Format} : Binary f → String
  | .nan => "NaN"
  | .infinite negative => if negative then "-inf" else "inf"
  | .finite x => layout.finiteText x

end Layout

end ToolChat
