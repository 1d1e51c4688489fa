import ToolChat.Inspect.Basic
import ToolChat.Tool.Executor

/-!
Inspecting shapes, schemas and tools. Tool bodies are not shown.
-/

set_option autoImplicit false

namespace ToolChat

def EnumShape.view (shape : EnumShape) : View :=
  .record "EnumShape"
    [("name", .quoted shape.name), ("variants", .list (shape.variants.map .quoted))] false

mutual

def Shape.view : Shape → View
  | .integer kind => .tuple "Integer" [.word kind.label]
  | .number kind => .tuple "Number" [.word kind.label]
  | .boolean => .word "Boolean"
  | .string => .word "String"
  | .enumeration e => .tuple "Enum" [e.view]
  | .object ⟨name, fields⟩ =>
    .tuple "Object" [.record "ObjectShape"
      [("name", .quoted name), ("fields", .list (fieldViews fields))] false]
  | .list item => .tuple "List" [item.view]
  | .set item => .tuple "Set" [item.view]
  | .map value => .tuple "Map" [value.view]
  | .ref name => .tuple "Ref" [.quoted name]
  | .undescribed name => .tuple "Opaque" [.quoted name]

def fieldViews : List Field → List View
  | [] => []
  | ⟨name, shape, description, nullable⟩ :: fields =>
    .record "FieldShape"
      [("name", .quoted name), ("shape", shape.view),
        ("description", .option .quoted description), ("nullable", .flag nullable)] false
      :: fieldViews fields

end

def Parameter.view (parameter : Parameter) : View :=
  .record "ParameterShape"
    [("name", .option .quoted parameter.name), ("shape", parameter.shape.view),
      ("description", .option .quoted parameter.description),
      ("optional", .flag parameter.optional)] false

mutual

def Schema.view : Schema → View
  | .object properties required description =>
    .record "Object"
      [("properties", .list (propertyViews properties)),
        ("required", .list (required.map .quoted)),
        ("description", .option .quoted description)] false
  | .array items description =>
    .record "Array"
      [("items", items.view), ("description", .option .quoted description)] false
  | .string description => .record "String" [("description", .option .quoted description)] false
  | .integer description => .record "Integer" [("description", .option .quoted description)] false
  | .number description => .record "Number" [("description", .option .quoted description)] false
  | .boolean description => .record "Boolean" [("description", .option .quoted description)] false
  | .enumeration values description =>
    .record "Enum"
      [("values", .list (values.map .quoted)), ("description", .option .quoted description)] false
  | .reference id => .record "Reference" [("id", .quoted id)] false

def propertyViews : List (String × Schema) → List View
  | [] => []
  | (name, schema) :: rest => .tuple "" [.quoted name, schema.view] :: propertyViews rest

end

def Specification.view (s : Specification) : View :=
  .record "ToolSpecification"
    [("name", .quoted s.name), ("description", .option .quoted s.description),
      ("parameters", .option Schema.view s.parameters),
      ("definitions", .map (s.definitions.map fun (id, schema) => (id, schema.view)))] false

variable {σ η : Type}

def Tool.view (tool : Tool σ) : View :=
  .record "ToolDescriptor"
    [("name", .quoted tool.name), ("description", .option .quoted tool.description),
      ("parameters", .list (tool.parameters.map (·.view))),
      ("return_raw", .flag tool.returnRaw),
      ("propagate_errors", .flag tool.propagateErrors)] true

def RegisteredTool.view (entry : RegisteredTool σ) : View :=
  .record "ToolEntry"
    [("specification", entry.specification.view), ("return_raw", .flag entry.returnRaw),
      ("propagate_errors", .flag entry.propagateErrors)] true

def Registry.view {α : Type} (item : α → View) (r : Registry α) : View :=
  .record "Registry"
    [("index", .map (r.positions.map fun (name, position) => (name, .count position))),
      ("items", .list (r.items.map fun (name, a) => .tuple "" [.quoted name, item a]))] false

def Executor.view (executor : Executor σ η) : View :=
  .record "ToolRuntime"
    [("registry", .record "ToolRegistry"
      [("tools", executor.tools.entries.view RegisteredTool.view)] false)] true

end ToolChat
