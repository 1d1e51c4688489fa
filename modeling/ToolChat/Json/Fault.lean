/-!
Faults in JSON text.

A fault is a reason and a place. The place is kept as the number of bytes not yet read when the
fault was noticed, and turned into a line and a column only when it is reported: lines count line
feeds, columns count bytes since the last one.
-/

set_option autoImplicit false

namespace ToolChat.Json

inductive Reason where
  | endInValue
  | endInString
  | endInList
  | endInObject
  | expectedValue
  | expectedWord
  | expectedColon
  | expectedCommaOrBracket
  | expectedCommaOrBrace
  | trailingComma
  | trailingCharacters
  | keyNotString
  | invalidNumber
  | numberOutOfRange
  | controlCharacter
  | invalidEscape
  | loneSurrogate
  | unfinishedSurrogatePair
  | tooDeep
  deriving DecidableEq, Repr

def Reason.text : Reason → String
  | .endInValue => "EOF while parsing a value"
  | .endInString => "EOF while parsing a string"
  | .endInList => "EOF while parsing a list"
  | .endInObject => "EOF while parsing an object"
  | .expectedValue => "expected value"
  | .expectedWord => "expected ident"
  | .expectedColon => "expected `:`"
  | .expectedCommaOrBracket => "expected `,` or `]`"
  | .expectedCommaOrBrace => "expected `,` or `\x7d`"
  | .trailingComma => "trailing comma"
  | .trailingCharacters => "trailing characters"
  | .keyNotString => "key must be a string"
  | .invalidNumber => "invalid number"
  | .numberOutOfRange => "number out of range"
  | .controlCharacter => "control character (\\u0000-\\u001F) found while parsing a string"
  | .invalidEscape => "invalid escape"
  | .loneSurrogate => "lone leading surrogate in hex escape"
  | .unfinishedSurrogatePair => "unexpected end of hex escape"
  | .tooDeep => "recursion limit exceeded"

/-- A reason, and how many bytes of the text were left. -/
structure Fault where
  reason : Reason
  unread : Nat
  deriving DecidableEq, Repr

def byteCount (cs : List Char) : Nat :=
  cs.foldl (fun n c => n + c.utf8Size) 0

/-- The fault noticed after everything before `rest` was read. -/
def Fault.before (reason : Reason) (rest : List Char) : Fault :=
  ⟨reason, byteCount rest⟩

/-- The fault noticed when `count` more bytes of `rest` were read, or as many as there are. -/
def Fault.after (reason : Reason) (count : Nat) (rest : List Char) : Fault :=
  ⟨reason, byteCount rest - count⟩

structure Position where
  line : Nat
  column : Nat
  deriving DecidableEq, Repr

/-- The place after the first `bytes` bytes of a text, counted on from `start`. -/
def Position.advance (start : Position) : (bytes : Nat) → List Char → Position
  | 0, _ => start
  | bytes, [] => ⟨start.line, start.column + bytes⟩
  | bytes, c :: rest =>
    if bytes < c.utf8Size then ⟨start.line, start.column + bytes⟩
    else if c = '\n' then advance ⟨start.line + 1, 0⟩ (bytes - 1) rest
    else advance ⟨start.line, start.column + c.utf8Size⟩ (bytes - c.utf8Size) rest

def Fault.position (fault : Fault) (text : List Char) : Position :=
  Position.advance ⟨1, 0⟩ (byteCount text - fault.unread) text

def Fault.report (fault : Fault) (text : List Char) : String :=
  let place := fault.position text
  fault.reason.text ++ " at line " ++ toString place.line ++ " column " ++ toString place.column

end ToolChat.Json
