import ToolChat.Json.Printer
import ToolChat.Shape.Basic
import ToolChat.Tool.Error

/-!
How an argument can fail to have its shape.

A violation is a place in the arguments and a cause. Its wording is made only here.
-/

set_option autoImplicit false

namespace ToolChat

inductive Path where
  | argument (name : String)
  | field (parent : Path) (name : String)
  | item (parent : Path) (position : Nat)
  | entry (parent : Path) (key : String)
  deriving DecidableEq, Repr

def Path.text : Path → String
  | .argument name => name
  | .field parent name => parent.text ++ "." ++ name
  | .item parent position => parent.text ++ "[" ++ toString position ++ "]"
  | .entry parent key => parent.text ++ "." ++ key

namespace Violation

/-- What a shape expects of JSON. -/
inductive Expectation where
  | integer
  | number
  | boolean
  | string
  | constant
  | array
  | object
  deriving DecidableEq, Repr

def Expectation.text : Expectation → String
  | .integer => "an integer"
  | .number => "a number"
  | .boolean => "a boolean"
  | .string => "a string"
  | .constant => "an enum constant"
  | .array => "an array"
  | .object => "an object"

inductive Cause where
  /-- It is required, and absent or null. -/
  | missing
  /-- It is of another kind. -/
  | mismatch (expected : Expectation) (found : Json.Kind)
  /-- It is a number, but not a whole one. -/
  | notInteger (n : Json.Number)
  | integerOutOfRange (n : Int) (kind : IntegerKind)
  | numberOutOfRange (x : Double) (kind : FloatKind)
  /-- It is a text, but none of the constants of the enumeration. -/
  | notConstant (found : String) (enumeration : String)
  /-- Its shape is a name that stands for no object shape. -/
  | undeclaredType (name : String)
  /-- Its shape has no structural description. -/
  | undescribedType (name : String)
  deriving DecidableEq

/-- The wording of a cause other than a missing value. -/
def Cause.text : Cause → String
  | .missing => "missing"
  | .mismatch expected found => "expected " ++ expected.text ++ ", found " ++ found.text
  | .notInteger n => n.text ++ " is not an exact integer"
  | .integerOutOfRange n kind => toString n ++ " is out of range for " ++ kind.label
  | .numberOutOfRange x kind => Layout.plain.text x ++ " is out of range for " ++ kind.label
  | .notConstant found enumeration => "'" ++ found ++ "' is not a constant of " ++ enumeration
  | .undeclaredType name => "type '" ++ name ++ "' is not declared"
  | .undescribedType name => "type '" ++ name ++ "' cannot be bound"

end Violation

/-- A place in the arguments and what is wrong there. -/
structure Violation where
  path : Path
  cause : Violation.Cause
  deriving DecidableEq

def Violation.toToolError (v : Violation) : ToolError :=
  match v.cause with
  | .missing => .missingField v.path.text
  | cause => .coercion v.path.text cause.text

end ToolChat
