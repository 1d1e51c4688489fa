import ToolChat.Json.Basic
import ToolChat.Number.Layout

/-!
The compact text of JSON values.

There is no white space between tokens. In a string the quote, the backslash and the characters
below U+0020 are escaped and everything else stands for itself. Floating-point numbers follow
`Json.layout`.
-/

set_option autoImplicit false

namespace ToolChat.Json

/-- Numbers in JSON text: positional from `10 ^ (-5)` to `10 ^ 15` with `.0` kept, else an exponent
with its sign; of two equally near shortest decimals the even one. -/
def layout : Layout := ⟨some (-5, 15), true, true, .even⟩

def escapeLetters : List (Char × Char) :=
  [('"', '"'), ('\\', '\\'), ('\x08', 'b'), ('\x0c', 'f'), ('\n', 'n'), ('\r', 'r'), ('\t', 't')]

def escapedChar (c : Char) : List Char :=
  match escapeLetters.lookup c with
  | some letter => ['\\', letter]
  | none =>
    if c.toNat < 0x20 then
      ['\\', 'u', '0', '0', Nat.digitChar (c.toNat / 16), Nat.digitChar (c.toNat % 16)]
    else [c]

def quoted (s : String) : List Char :=
  '"' :: s.toList.flatMap escapedChar ++ ['"']

def Number.chars : Number → List Char
  | .integer n _ => if n < 0 then '-' :: Nat.toDigits 10 n.natAbs else Nat.toDigits 10 n.natAbs
  | .float x => (layout.finiteText x).toList

mutual

def chars : Json → List Char
  | .null => "null".toList
  | .boolean b => if b then "true".toList else "false".toList
  | .number n => n.chars
  | .string s => quoted s
  | .array items => '[' :: itemChars items ++ [']']
  | .object members => '\x7b' :: memberChars members ++ ['\x7d']

def itemChars : List Json → List Char
  | [] => []
  | [item] => item.chars
  | item :: items => item.chars ++ ',' :: itemChars items

def memberChars : List (String × Json) → List Char
  | [] => []
  | [(key, value)] => quoted key ++ ':' :: value.chars
  | (key, value) :: members => quoted key ++ ':' :: value.chars ++ ',' :: memberChars members

end

def text (value : Json) : String :=
  String.ofList value.chars

def Number.text (n : Number) : String :=
  String.ofList n.chars

end ToolChat.Json
