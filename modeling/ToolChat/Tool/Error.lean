import ToolChat.Schema.Error

/-!
What goes wrong with tools: registering them, reading their arguments, running them.
-/

set_option autoImplicit false

namespace ToolChat

inductive ToolError.Kind where
  /-- No tool has the name. -/
  | notFound
  /-- The text of the arguments is not a JSON object. -/
  | invalidArguments
  /-- An argument does not have the shape of its parameter. -/
  | argumentCoercion
  /-- An argument or field that is required is absent or null. -/
  | missingField
  /-- The tool itself failed. -/
  | execution
  | duplicateName
  | invalidDefinition
  | schema
  deriving DecidableEq, Repr

def ToolError.Kind.label : ToolError.Kind → String
  | .notFound => "NotFound"
  | .invalidArguments => "InvalidArguments"
  | .argumentCoercion => "ArgumentCoercion"
  | .missingField => "MissingField"
  | .execution => "Execution"
  | .duplicateName => "DuplicateName"
  | .invalidDefinition => "InvalidDefinition"
  | .schema => "Schema"

/-- A tool error, with the tool and the call that it concerns. -/
structure ToolError where
  kind : ToolError.Kind
  message : String
  toolName : Option String := none
  callId : Option String := none
  deriving DecidableEq, Repr

namespace ToolError

def notFound (toolName : String) : ToolError :=
  { kind := .notFound, message := "There is no tool called '" ++ toolName ++ "'", toolName }

def invalidArguments (message : String) : ToolError :=
  { kind := .invalidArguments, message }

def coercion (path message : String) : ToolError :=
  { kind := .argumentCoercion, message := "argument '" ++ path ++ "': " ++ message }

def missingField (path : String) : ToolError :=
  { kind := .missingField, message := "missing required field '" ++ path ++ "'" }

def execution (message : String) : ToolError :=
  { kind := .execution, message }

def duplicateName (toolName : String) : ToolError :=
  { kind := .duplicateName
    message := "a tool named '" ++ toolName ++ "' is already registered"
    toolName }

def invalidDefinition (message : String) : ToolError :=
  { kind := .invalidDefinition, message }

def ofSchemaError (e : SchemaError) : ToolError :=
  { kind := .schema, message := e.text }

/-- Whether the cause is what the model sent. -/
def isUserError (e : ToolError) : Bool :=
  match e.kind with
  | .notFound | .invalidArguments | .argumentCoercion | .missingField => true
  | _ => false

/-- Whether the cause is how a tool was declared. -/
def isConfigurationError (e : ToolError) : Bool :=
  match e.kind with
  | .duplicateName | .invalidDefinition | .schema => true
  | _ => false

/-- The error as one line of text. A call is named only together with its tool. -/
def text (e : ToolError) : String :=
  match e.toolName, e.callId with
  | some tool, some call =>
    e.kind.label ++ " [tool=" ++ tool ++ ", call_id=" ++ call ++ "]: " ++ e.message
  | some tool, none => e.kind.label ++ " [tool=" ++ tool ++ "]: " ++ e.message
  | _, _ => e.kind.label ++ ": " ++ e.message

end ToolError

end ToolChat
