import ToolChat.Argument.Arguments
import ToolChat.Argument.Binder
import ToolChat.Argument.Value
import ToolChat.Argument.Violation
import ToolChat.Chat.Assistant
import ToolChat.Chat.Error
import ToolChat.Chat.Session
import ToolChat.Chat.Turn
import ToolChat.Digest.NameId
import ToolChat.Digest.Sha1
import ToolChat.Inspect.Basic
import ToolChat.Inspect.Chat
import ToolChat.Inspect.Tools
import ToolChat.Json.Basic
import ToolChat.Json.Fault
import ToolChat.Json.Numeral
import ToolChat.Json.Printer
import ToolChat.Json.Reader
import ToolChat.Json.Scan
import ToolChat.Model.Message
import ToolChat.Model.Provider
import ToolChat.Model.Response
import ToolChat.Number.Binary
import ToolChat.Number.Decimal
import ToolChat.Number.Format
import ToolChat.Number.Layout
import ToolChat.Number.Shortest
import ToolChat.Observe.Basic
import ToolChat.Observe.Log
import ToolChat.Observe.Metrics
import ToolChat.Observe.Trace
import ToolChat.Registry
import ToolChat.Run
import ToolChat.Schema.Basic
import ToolChat.Schema.Bindable
import ToolChat.Schema.Error
import ToolChat.Schema.Parameters
import ToolChat.Schema.Session
import ToolChat.Shape.Basic
import ToolChat.Shape.Index
import ToolChat.Stage
import ToolChat.Text.Blank
import ToolChat.Text.Dictionary
import ToolChat.Text.Hidden
import ToolChat.Text.Unassigned
import ToolChat.Tool.Call
import ToolChat.Tool.Declaration
import ToolChat.Tool.Error
import ToolChat.Tool.Event
import ToolChat.Tool.Executor
import ToolChat.Tool.Output
import ToolChat.Tool.Specification
import ToolChat.Tool.Stock
import ToolChat.Tool.Toolset
import ToolChat.Proofs.Run
import ToolChat.Proofs.Tool.Round
import ToolChat.Proofs.Chat.Course
import ToolChat.Proofs.Chat.Rounds
import ToolChat.Proofs.Chat.Transcript
import ToolChat.Proofs.Chat.HandedBack
import ToolChat.Proofs.Schema.Derivation
import ToolChat.Proofs.Schema.Closure
import ToolChat.Proofs.Json.Pointer
import ToolChat.Proofs.Text.Dictionary
import ToolChat.Proofs.Argument.Values
import ToolChat.Proofs.Json.Spelling
import ToolChat.Proofs.Json.ReadBack
import ToolChat.Proofs.Json.Nesting
import ToolChat.Proofs.Schema.Document
import ToolChat.Proofs.Shape.Occurrence
import ToolChat.Proofs.Schema.Unfolding
import ToolChat.Proofs.Shape.Reach
import ToolChat.Proofs.Schema.Coverage
import ToolChat.Proofs.Argument.Binding
import ToolChat.Proofs.Argument.Bound
import ToolChat.Proofs.Schema.Acceptance
import ToolChat.Proofs.Number.Exact
import ToolChat.Proofs.Schema.Validity
import ToolChat.Proofs.Schema.Agreement
import ToolChat.Proofs.Schema.Requirement
import ToolChat.Proofs.Argument.RoundTrip
import ToolChat.Proofs.Tool.Attempt
import ToolChat.Proofs.Tool.Outcome
import ToolChat.Proofs.Tool.Interleaving
import ToolChat.Proofs.Chat.Interleaving
import ToolChat.Proofs.Chat.Containment
import ToolChat.Proofs.Tool.Notes
import ToolChat.Proofs.Chat.Events
import ToolChat.Proofs.Schema.Growth
import ToolChat.Proofs.Schema.Failure
import ToolChat.Proofs.Argument.FieldNames
import ToolChat.Proofs.Number.Rounding
import ToolChat.Proofs.Json.Scaling
import ToolChat.Proofs.Json.Numeral
import ToolChat.Proofs.Argument.Literal
import ToolChat.Proofs.Tool.Registration
import ToolChat.Proofs.Argument.Rendering
import ToolChat.Proofs.Tool.Simulation
import ToolChat.Proofs.Chat.Simulation
import ToolChat.Proofs.Chat.Isolation
import ToolChat.Proofs.Tool.Brackets
import ToolChat.Proofs.Observe.Totals
import ToolChat.Proofs.Chat.Invariant
import ToolChat.Proofs.Chat.Conservation
import ToolChat.Proofs.Argument.Conformance
import ToolChat.Proofs.Argument.Findings
import ToolChat.Proofs.Json.Keys
import ToolChat.Proofs.Argument.Interchange
import ToolChat.Proofs.Chat.Refusal
import ToolChat.Proofs.Schema.Expansion
import ToolChat.Proofs.Schema.Description
import ToolChat.Proofs.Argument.Accessors
import ToolChat.Proofs.Shape.Places
import ToolChat.Proofs.Argument.Integers
import ToolChat.Proofs.Argument.Sameness
import ToolChat.Proofs.Argument.Renumbering
import ToolChat.Proofs.Argument.Sets
import ToolChat.Proofs.Json.Unambiguous
import ToolChat.Proofs.Schema.Faithful
