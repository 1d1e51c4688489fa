import ToolChat.Chat.Session
import ToolChat.Run
import ToolChat.Tool.Event

/-!
Observers of calls and of chats that share their notes.
-/

set_option autoImplicit false

namespace ToolChat

structure Observers (η : Type) where
  tools : Observer ToolEvent η := .silent
  chat : Observer ChatEvent η := .silent

namespace Observers

variable {η : Type}

def silent : Observers η := {}

def guarded (observers : Observers η) : Observers η :=
  ⟨observers.tools.guarded, observers.chat.guarded⟩

end Observers

end ToolChat
