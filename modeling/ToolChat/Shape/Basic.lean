import ToolChat.Number.Binary

/-!
Shapes of parameter types.

A shape describes a type once; schemas are generated from it and arguments are bound against it.
Objects are identified by their names, which is how a shape refers to itself.
-/

set_option autoImplicit false

namespace ToolChat

inductive IntegerKind where
  | i8
  | i16
  | i32
  | i64
  | u8
  | u16
  | u32
  | u64
  deriving DecidableEq, Repr

namespace IntegerKind

def least : IntegerKind → Int
  | .i8 => -128
  | .i16 => -32768
  | .i32 => -2147483648
  | .i64 => -9223372036854775808
  | .u8 | .u16 | .u32 | .u64 => 0

def greatest : IntegerKind → Int
  | .i8 => 127
  | .i16 => 32767
  | .i32 => 2147483647
  | .i64 => 9223372036854775807
  | .u8 => 255
  | .u16 => 65535
  | .u32 => 4294967295
  | .u64 => 18446744073709551615

def contains (kind : IntegerKind) (n : Int) : Bool :=
  kind.least ≤ n && n ≤ kind.greatest

def label : IntegerKind → String
  | .i8 => "I8"
  | .i16 => "I16"
  | .i32 => "I32"
  | .i64 => "I64"
  | .u8 => "U8"
  | .u16 => "U16"
  | .u32 => "U32"
  | .u64 => "U64"

end IntegerKind

inductive FloatKind where
  | f32
  | f64
  deriving DecidableEq, Repr

namespace FloatKind

def format : FloatKind → Format
  | .f32 => .single
  | .f64 => .double

/-- Whether a value is finite once it is rounded to a kind. -/
def contains (kind : FloatKind) (x : Double) : Bool :=
  (x.convert kind.format).isFinite

def label : FloatKind → String
  | .f32 => "F32"
  | .f64 => "F64"

end FloatKind

structure EnumShape where
  name : String
  variants : List String
  deriving DecidableEq, Repr

def EnumShape.contains (shape : EnumShape) (candidate : String) : Bool :=
  shape.variants.contains candidate

mutual

inductive Shape where
  | integer (kind : IntegerKind)
  | number (kind : FloatKind)
  | boolean
  | string
  | enumeration (shape : EnumShape)
  | object (shape : ObjectShape)
  | list (item : Shape)
  /-- Like a list, with equal items counted once. -/
  | set (item : Shape)
  /-- Values under keys that are not declared. -/
  | map (value : Shape)
  /-- An object shape that stands elsewhere under this name. -/
  | ref (name : String)
  /-- A type without a structural description. -/
  | undescribed (name : String)

/-- A record type. Its name identifies it. -/
structure ObjectShape where
  name : String
  fields : List Field

structure Field where
  name : String
  shape : Shape
  description : Option String
  /-- Whether the field may be absent or null. -/
  nullable : Bool

end

instance : Inhabited Shape := ⟨.boolean⟩

def ObjectShape.field? (shape : ObjectShape) (name : String) : Option Field :=
  shape.fields.find? (·.name == name)

structure Parameter where
  name : Option String := none
  shape : Shape
  description : Option String := none
  /-- Whether the argument may be absent or null. -/
  optional : Bool := false

/-- The name under which a parameter is passed: its own, or one made of its position. -/
def Parameter.nameAt (parameter : Parameter) (position : Nat) : String :=
  parameter.name.getD ("arg" ++ toString position)

def nameParameters (parameters : List Parameter) : List (String × Parameter) :=
  parameters.zipIdx.map fun (parameter, position) => (parameter.nameAt position, parameter)

end ToolChat
