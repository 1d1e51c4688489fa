import ToolChat.Observe.Basic
import ToolChat.Observe.Metrics
import ToolChat.Observe.Trace

/-!
Observers that keep a log.

Recording logs events as they are, tracing logs a trace line for each, and metering logs samples.
The observers of calls and of chats share one log, which so holds everything in the order in which
it happened.
-/

set_option autoImplicit false

namespace ToolChat

inductive LogEntry where
  | tool (event : ToolEvent)
  | chat (event : ChatEvent)
  | trace (line : TraceLine)
  | sample (s : Sample)
  deriving DecidableEq

/-- Entries, the latest one last. -/
abbrev Log := List LogEntry

namespace Observer

variable {ε : Type}

def logging (entries : ε → List LogEntry) : Observer ε Log :=
  ⟨fun event log => .calm (log ++ entries event)⟩

/-- An observer that logs what `entries` makes of an event and then panics. -/
def panicking (entries : ε → List LogEntry) : Observer ε Log :=
  ⟨fun event log => .panic (log ++ entries event)⟩

end Observer

namespace Observers

def recording : Observers Log :=
  ⟨.logging fun event => [.tool event], .logging fun event => [.chat event]⟩

def panicking : Observers Log :=
  ⟨.panicking fun event => [.tool event], .panicking fun event => [.chat event]⟩

def tracing : Observers Log :=
  ⟨.logging fun event => [.trace (.ofToolEvent event)],
    .logging fun event => [.trace (.ofChatEvent event)]⟩

def metering : Observers Log :=
  ⟨.logging fun event => (Sample.ofToolEvent event).map .sample,
    .logging fun event => (Sample.ofChatEvent event).map .sample⟩

end Observers

end ToolChat
