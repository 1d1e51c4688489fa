import ToolChat.Json.Basic
import ToolChat.Text.Dictionary

/-!
JSON schemas and their documents.

A schema describes arguments to a model. `Schema.toJson` is the document that is sent: the keyword
`type` first, a description last, lists of required names only when there are any.
-/

set_option autoImplicit false

namespace ToolChat

inductive Schema where
  | object (properties : List (String × Schema)) (required : List String)
      (description : Option String)
  | array (items : Schema) (description : Option String)
  | string (description : Option String)
  | integer (description : Option String)
  | number (description : Option String)
  | boolean (description : Option String)
  | enumeration (values : List String) (description : Option String)
  /-- The schema defined under an identifier. -/
  | reference (id : String)

/-- Schemas under their identifiers, in ascending order. -/
abbrev Definitions := List (String × Schema)

namespace Schema

instance : Inhabited Schema := ⟨.boolean none⟩

def anyObject : Schema := .object [] [] none

/-- Gives a schema a description. A reference cannot carry one and stays as it is. -/
def describe (text : String) : Schema → Schema
  | .object properties required _ => .object properties required (some text)
  | .array items _ => .array items (some text)
  | .string _ => .string (some text)
  | .integer _ => .integer (some text)
  | .number _ => .number (some text)
  | .boolean _ => .boolean (some text)
  | .enumeration values _ => .enumeration values (some text)
  | .reference id => .reference id

def describeWith : Option String → Schema → Schema
  | none, schema => schema
  | some text, schema => schema.describe text

def description? : Schema → Option String
  | .object _ _ description => description
  | .array _ description => description
  | .string description => description
  | .integer description => description
  | .number description => description
  | .boolean description => description
  | .enumeration _ description => description
  | .reference _ => none

/-- The property of a name, the first one if several have it. -/
def property? (name : String) : Schema → Option Schema
  | .object properties _ _ => properties.lookup name
  | _ => none

def requiredNames : Schema → List String
  | .object _ required _ => required
  | _ => []

def pointer (id : String) : String :=
  "#/$defs/" ++ id

def textArray (texts : List String) : Json :=
  .array (texts.map .string)

def keyword (key : String) (value : Option Json) : List (String × Json) :=
  match value with
  | none => []
  | some value => [(key, value)]

mutual

def toJson : Schema → Json
  | .object properties required description =>
    .object ([("type", .string "object"),
        ("properties", .object (Json.collect (documents properties)))]
      ++ keyword "required" (if required.isEmpty then none else some (textArray required))
      ++ keyword "description" (description.map .string))
  | .array items description =>
    .object ([("type", .string "array"), ("items", items.toJson)]
      ++ keyword "description" (description.map .string))
  | .string description =>
    .object (("type", .string "string") :: keyword "description" (description.map .string))
  | .integer description =>
    .object (("type", .string "integer") :: keyword "description" (description.map .string))
  | .number description =>
    .object (("type", .string "number") :: keyword "description" (description.map .string))
  | .boolean description =>
    .object (("type", .string "boolean") :: keyword "description" (description.map .string))
  | .enumeration values description =>
    .object ([("type", .string "string"), ("enum", textArray values)]
      ++ keyword "description" (description.map .string))
  | .reference id => .object [("$ref", .string (pointer id))]

def documents : List (String × Schema) → List (String × Json)
  | [] => []
  | (name, schema) :: rest => (name, schema.toJson) :: documents rest

end

end Schema

end ToolChat
