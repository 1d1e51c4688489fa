import ToolChat.Number.Layout
import ToolChat.Text.Hidden

/-!
Inspecting values.

A view is what a value looks like from inside: its constructors, its fields and their values.
`View.text` writes it on one line, with strings quoted and hidden characters escaped.
-/

set_option autoImplicit false

namespace ToolChat

/-- What a value looks like from inside. -/
inductive View where
  /-- Text that stands for itself. -/
  | word (text : String)
  /-- Text in quotes. -/
  | quoted (text : String)
  /-- A name with values in parentheses; the name may be empty. -/
  | tuple (name : String) (items : List View)
  /-- A name with named values in braces, which may be only some of its fields. -/
  | record (name : String) (fields : List (String × View)) (hidesMore : Bool)
  | list (items : List View)
  /-- Values under keys. -/
  | map (entries : List (String × View))

namespace View

def numberedEscape (c : Char) : List Char :=
  '\\' :: 'u' :: '\x7b' :: Nat.toDigits 16 c.toNat ++ ['\x7d']

/-- The characters that have a letter or digit of their own after a backslash. -/
def namedEscapes : List (Char × Char) :=
  [('\x00', '0'), ('\t', 't'), ('\n', 'n'), ('\r', 'r'), ('"', '"'), ('\\', '\\')]

def quotedChar (c : Char) : List Char :=
  match namedEscapes.lookup c with
  | some letter => ['\\', letter]
  | none => if isHidden c then numberedEscape c else [c]

def quotedText (s : String) : String :=
  "\"" ++ String.ofList (s.toList.flatMap quotedChar) ++ "\""

mutual

def text : View → String
  | .word s => s
  | .quoted s => quotedText s
  | .tuple name items => name ++ "(" ++ ", ".intercalate (itemTexts items) ++ ")"
  | .record name fields hidesMore =>
    let parts := fieldTexts fields ++ if hidesMore then [".."] else []
    if parts.isEmpty then name else name ++ " \x7b " ++ ", ".intercalate parts ++ " \x7d"
  | .list items => "[" ++ ", ".intercalate (itemTexts items) ++ "]"
  | .map entries => "\x7b" ++ ", ".intercalate (entryTexts entries) ++ "\x7d"

def itemTexts : List View → List String
  | [] => []
  | item :: items => item.text :: itemTexts items

def fieldTexts : List (String × View) → List String
  | [] => []
  | (name, value) :: fields => (name ++ ": " ++ value.text) :: fieldTexts fields

def entryTexts : List (String × View) → List String
  | [] => []
  | (key, value) :: entries => (quotedText key ++ ": " ++ value.text) :: entryTexts entries

end

def option {α : Type} (view : α → View) : Option α → View
  | none => .word "None"
  | some a => .tuple "Some" [view a]

def flag (b : Bool) : View :=
  .word (if b then "true" else "false")

def count (n : Nat) : View :=
  .word (toString n)

def number {f : Format} (x : Binary f) : View :=
  .word (Layout.detailed.text x)

end View

end ToolChat
