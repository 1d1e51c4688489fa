import ToolChat.Tool.Executor

/-!
Ready-made tool bodies.

The state that these bodies share counts, by name, how often counting tools were run.
-/

set_option autoImplicit false

namespace ToolChat

abbrev RunCounts := List (String × Nat)

/-- A kind of access to an argument. -/
inductive Access where
  | int64
  | double
  | boolean
  | text
  /-- The argument as JSON. -/
  | json
  deriving DecidableEq, Repr

def Arguments.access (arguments : Arguments) (access : Access) (name : String) :
    Except ToolError Output :=
  match access with
  | .int64 => (arguments.int64 name).map .integer
  | .double => (arguments.double name).map .number
  | .boolean => (arguments.boolean name).map .boolean
  | .text => (arguments.text name).map .text
  | .json => (arguments.value name).map fun value => .json value.toJson

namespace Handler

def pure (answer : Arguments → Context → Except ToolError Output) : Handler RunCounts :=
  { body := fun arguments context => return answer arguments context }

def constant (output : Output) : Handler RunCounts :=
  pure fun _ _ => .ok output

def failing (e : ToolError) : Handler RunCounts :=
  pure fun _ _ => .error e

def sum (names : List String) : Handler RunCounts :=
  pure fun arguments _ =>
    (names.foldlM (fun total name => (arguments.int64 name).map (total + ·)) 0).map .integer

def get (access : Access) (name : String) : Handler RunCounts :=
  pure fun arguments _ => arguments.access access name

def dump : Handler RunCounts :=
  pure fun arguments _ =>
    .ok (.record "Args" (arguments.values.map fun (name, value) => (name, .json value.toJson)))

def atPosition (position : Nat) : Handler RunCounts :=
  pure fun arguments _ => .ok (match arguments.at? position with
    | some value => .json value.toJson
    | none => .text "absent")

def showContext : Handler RunCounts :=
  pure fun _ context =>
    let pairs := context.metadata.map fun (key, value) => Json.array [.string key, .string value]
    .ok (.text (context.session ++ "|" ++ toString context.round ++ "|" ++ (Json.array pairs).text))

def count (toolName : String) : Handler RunCounts :=
  { body := fun _ _ counts =>
      let n := ((Dictionary.find? toolName counts).getD 0) + 1
      (.ok (.integer n), Dictionary.insert toolName n counts) }

/-- The same body, after it has given way a number of times. -/
def delayed (handler : Handler RunCounts) (polls : Nat) : Handler RunCounts :=
  { handler with delay := fun _ _ => polls }

end Handler

/-- An invoker that binds arguments and reports how many there are, without running the tool. -/
def Invoker.rehearsing {σ η : Type} (label : String) : Invoker σ η :=
  .unobserved fun entry call _ =>
    return (entry.bind call.arguments).map fun arguments =>
      ⟨call, label ++ " " ++ toString arguments.size⟩

end ToolChat
