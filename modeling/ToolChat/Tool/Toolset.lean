import ToolChat.Argument.Binder
import ToolChat.Registry
import ToolChat.Tool.Declaration
import ToolChat.Tool.Specification

/-!
Registered tools.

Registering a tool generates its specification once, and is refused if the name is blank or taken or
if the parameters have no schema. A set of tools keeps the order of registration.
-/

set_option autoImplicit false

namespace ToolChat

structure RegisteredTool (σ : Type) where
  specification : Specification
  parameters : List Parameter
  shapes : ShapeIndex
  handler : Handler σ
  returnRaw : Bool
  propagateErrors : Bool

namespace RegisteredTool

variable {σ : Type}

def ofTool (tool : Tool σ) : Except ToolError (RegisteredTool σ) :=
  if isBlank tool.name then .error (.invalidDefinition "tool name must not be empty")
  else
    let shapes := ShapeIndex.ofParameters tool.parameters
    match generateParametersWith shapes tool.parameters with
    | .error e => .error { ToolError.ofSchemaError e with toolName := some tool.name }
    | .ok generated =>
      let bare : Specification := { name := tool.name, description := tool.description }
      .ok
        { specification := match generated with
            | none => bare
            | some generated => bare.withParameters generated
          parameters := tool.parameters
          shapes
          handler := tool.handler
          returnRaw := tool.returnRaw
          propagateErrors := tool.propagateErrors }

theorem of_ofTool_eq_ok {tool : Tool σ} {entry : RegisteredTool σ} (h : ofTool tool = .ok entry) :
    entry.specification.name = tool.name ∧ entry.parameters = tool.parameters ∧
      entry.shapes = .ofParameters tool.parameters ∧
      ∃ generated, generateParameters tool.parameters = .ok generated ∧
        entry.specification.parameters = generated.map (·.schema) ∧
        entry.specification.definitions = (generated.map (·.definitions)).getD [] := by
  unfold ofTool at h
  split at h
  · cases h
  · dsimp only at h
    split at h
    · cases h
    · next generated made =>
      cases h
      cases generated with
      | none => exact ⟨rfl, rfl, rfl, none, made, rfl, rfl⟩
      | some bundle => exact ⟨rfl, rfl, rfl, some bundle, made, rfl, rfl⟩

theorem ofTool_eq_ok {tool : Tool σ} {generated : Option SchemaBundle}
    (named : isBlank tool.name = false)
    (made : generateParameters tool.parameters = .ok generated) :
    ofTool tool =
      .ok ⟨generated.elim { name := tool.name, description := tool.description }
          (Specification.withParameters { name := tool.name, description := tool.description }),
        tool.parameters, .ofParameters tool.parameters, tool.handler, tool.returnRaw,
        tool.propagateErrors⟩ := by
  rw [generateParameters] at made
  cases generated <;> simp [ofTool, named, made]

def bind (entry : RegisteredTool σ) (text : String) : Except ToolError Arguments :=
  bindArguments entry.parameters entry.shapes text

end RegisteredTool

structure Toolset (σ : Type) where
  entries : Registry (RegisteredTool σ) := .empty

namespace Toolset

variable {σ : Type}

def empty : Toolset σ := {}

def contains (tools : Toolset σ) (name : String) : Bool :=
  tools.entries.contains name

def get? (tools : Toolset σ) (name : String) : Option (RegisteredTool σ) :=
  tools.entries.get? name

def register (tools : Toolset σ) (tool : Tool σ) : Except ToolError (Toolset σ) :=
  if tools.contains tool.name then .error (.duplicateName tool.name)
  else match RegisteredTool.ofTool tool with
    | .error e => .error e
    | .ok entry =>
      match tools.entries.insert? entry.specification.name entry with
      | some entries => .ok ⟨entries⟩
      | none => .error (.duplicateName entry.specification.name)

theorem exists_entry_of_register {tools after : Toolset σ} {tool : Tool σ}
    (h : tools.register tool = .ok after) :
    ∃ entry, RegisteredTool.ofTool tool = .ok entry ∧ after.get? tool.name = some entry := by
  unfold register at h
  split at h
  · cases h
  · cases made : RegisteredTool.ofTool tool with
    | error e =>
      rw [made] at h
      cases h
    | ok entry =>
      rw [made] at h
      dsimp only at h
      split at h
      · next entries inserted =>
        cases h
        rw [(RegisteredTool.of_ofTool_eq_ok made).1] at inserted
        exact ⟨entry, rfl, Registry.get?_of_insert? inserted⟩
      · cases h

theorem exists_register {tools : Toolset σ} {tool : Tool σ} {generated : Option SchemaBundle}
    (free : tools.contains tool.name = false) (named : isBlank tool.name = false)
    (made : generateParameters tool.parameters = .ok generated) :
    ∃ after, tools.register tool = .ok after := by
  obtain ⟨entry, entered⟩ : ∃ entry, RegisteredTool.ofTool tool = .ok entry :=
    ⟨_, RegisteredTool.ofTool_eq_ok named made⟩
  have name := (RegisteredTool.of_ofTool_eq_ok entered).1
  rw [contains] at free
  simp [register, contains, entered, name, Registry.insert?, free]

/-- The set with some more tools, up to the first that cannot be registered. -/
def registerAll (tools : Toolset σ) : List (Tool σ) → Except ToolError (Toolset σ)
  | [] => .ok tools
  | tool :: rest =>
    match tools.register tool with
    | .error e => .error e
    | .ok tools => tools.registerAll rest

def ofTools (tools : List (Tool σ)) : Except ToolError (Toolset σ) :=
  empty.registerAll tools

def names (tools : Toolset σ) : List String :=
  tools.entries.names

/-- The specifications of the tools, in order of registration. -/
def specifications (tools : Toolset σ) : List Specification :=
  tools.entries.values.map (·.specification)

def size (tools : Toolset σ) : Nat :=
  tools.entries.size

end Toolset

end ToolChat
