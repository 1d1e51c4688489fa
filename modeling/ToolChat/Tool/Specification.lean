import ToolChat.Json.Printer
import ToolChat.Schema.Parameters

/-!
How a tool is described to a model.
-/

set_option autoImplicit false

namespace ToolChat

/-- The description of a tool, with the schema of its parameters and the definitions it needs. -/
structure Specification where
  name : String
  description : Option String := none
  parameters : Option Schema := none
  definitions : Definitions := []

namespace Specification

def withParameters (s : Specification) (generated : SchemaBundle) : Specification :=
  { s with parameters := some generated.schema, definitions := generated.definitions }

def definitionsKeyword (definitions : Definitions) : List (String × Json) :=
  Schema.keyword "$defs"
    (if definitions.isEmpty then none else some (.object (Schema.documents definitions)))

def toJson (s : Specification) : Json :=
  .object ([("name", .string s.name)]
    ++ Schema.keyword "description" (s.description.map .string)
    ++ Schema.keyword "parameters" (s.parameters.map Schema.toJson)
    ++ definitionsKeyword s.definitions)

def embedDefinitions (definitions : Definitions) : Json → Json
  | .object members =>
    .object ((definitionsKeyword definitions).foldl (fun ms (key, value) => Json.put key value ms)
      members)
  | document => document

/-- The schema of the parameters as a document of its own. -/
def parametersJson (s : Specification) : Option Json :=
  s.parameters.map fun schema => embedDefinitions s.definitions schema.toJson

end Specification

end ToolChat
