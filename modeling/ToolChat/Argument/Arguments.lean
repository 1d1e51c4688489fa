import ToolChat.Argument.Value
import ToolChat.Tool.Error

/-!
The bound arguments of a call, and typed access to them.

An argument that is null counts as missing. Each accessor names the type that it expects.
-/

set_option autoImplicit false

namespace ToolChat

/-- Bound arguments by name, in declaration order. -/
structure Arguments where
  values : List (String × Value) := []

namespace Arguments

def get? (arguments : Arguments) (name : String) : Option Value :=
  arguments.values.lookup name

def at? (arguments : Arguments) (position : Nat) : Option Value :=
  arguments.values[position]?.map (·.2)

def size (arguments : Arguments) : Nat :=
  arguments.values.length

def value (arguments : Arguments) (name : String) : Except ToolError Value :=
  match (arguments.get? name).filter (!·.isNull) with
  | some value => .ok value
  | none => .error (.missingField name)

/-- The argument of a name as `view` sees it. -/
def view {α : Type} (arguments : Arguments) (name : String) (expected : String)
    (view : Value → Option α) : Except ToolError α :=
  match arguments.value name with
  | .error e => .error e
  | .ok value =>
    match view value with
    | some a => .ok a
    | none => .error (.coercion name ("expected " ++ expected))

def int64 (arguments : Arguments) (name : String) : Except ToolError Int :=
  arguments.view name "a 64-bit integer" Value.int64?

def double (arguments : Arguments) (name : String) : Except ToolError Double :=
  arguments.view name "a number" Value.double?

def boolean (arguments : Arguments) (name : String) : Except ToolError Bool :=
  arguments.view name "a boolean" Value.boolean?

def text (arguments : Arguments) (name : String) : Except ToolError String :=
  arguments.view name "a string" Value.text?

def toJson (arguments : Arguments) : Json :=
  .object (Json.collect (arguments.values.map fun (name, value) => (name, value.toJson)))

end Arguments

end ToolChat
