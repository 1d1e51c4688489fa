import ToolChat.Schema.Session

/-!
The schema of one shape, and of the parameters of a tool.

Parameters are wrapped in one object that requires those that are not optional. Without parameters
there is no schema.
-/

set_option autoImplicit false

namespace ToolChat

/-- A schema with the definitions that its references need. -/
structure SchemaBundle where
  schema : Schema
  definitions : Definitions := []

/-- The schema of a shape, generated in a session of its own. -/
def generateSchema (shape : Shape) : Except SchemaError SchemaBundle :=
  match (Session.withIndex (.collect [shape])).generate shape with
  | (.ok schema, session) => .ok ⟨schema, session.definitions⟩
  | (.error e, _) => .error e

/-- The properties of some parameters, of which some are done. -/
def generateProperties (session : Session) (done : List (String × Schema)) :
    List (String × Parameter) → Except SchemaError (List (String × Schema) × Session)
  | [] => .ok (done, session)
  | (name, parameter) :: rest =>
    if done.any (·.1 == name) then .error (.duplicateProperty "parameters" name)
    else match session.generate parameter.shape with
      | (.error e, _) => .error e
      | (.ok schema, session) =>
        generateProperties session
          (done ++ [(name, schema.describeWith parameter.description)]) rest

def requiredParameters (parameters : List Parameter) : List String :=
  ((nameParameters parameters).filter (!·.2.optional)).map (·.1)

def generateParametersWith (index : ShapeIndex) (parameters : List Parameter) :
    Except SchemaError (Option SchemaBundle) :=
  if parameters.isEmpty then .ok none
  else match generateProperties (.withIndex index) [] (nameParameters parameters) with
    | .ok (properties, session) =>
      .ok (some ⟨.object properties (requiredParameters parameters) none, session.definitions⟩)
    | .error e => .error e

def generateParameters (parameters : List Parameter) :
    Except SchemaError (Option SchemaBundle) :=
  generateParametersWith (.ofParameters parameters) parameters

end ToolChat
