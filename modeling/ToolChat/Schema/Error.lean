/-!
Why a schema cannot be generated.
-/

set_option autoImplicit false

namespace ToolChat

inductive SchemaError.Kind where
  | unsupported
  | unresolvedReference
  | duplicateProperty
  deriving DecidableEq, Repr

def SchemaError.Kind.label : SchemaError.Kind → String
  | .unsupported => "Unsupported"
  | .unresolvedReference => "UnresolvedReference"
  | .duplicateProperty => "DuplicateProperty"

structure SchemaError where
  kind : SchemaError.Kind
  message : String
  typeName : Option String := none
  deriving DecidableEq, Repr

namespace SchemaError

/-- The type has no structural description. -/
def unsupported (typeName : String) : SchemaError :=
  ⟨.unsupported, "type '" ++ typeName ++ "' has no JSON schema mapping", some typeName⟩

/-- No object shape stands under the name. -/
def unresolvedReference (typeName : String) : SchemaError :=
  ⟨.unresolvedReference, "reference to undeclared object type '" ++ typeName ++ "'", some typeName⟩

def duplicateProperty (owner property : String) : SchemaError :=
  ⟨.duplicateProperty, "property '" ++ property ++ "' is declared more than once", some owner⟩

def text (e : SchemaError) : String :=
  match e.typeName with
  | some typeName => e.kind.label ++ " [type=" ++ typeName ++ "]: " ++ e.message
  | none => e.kind.label ++ ": " ++ e.message

end SchemaError

end ToolChat
