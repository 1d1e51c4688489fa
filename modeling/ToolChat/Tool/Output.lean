import ToolChat.Json.Printer

/-!
What a tool answers, and its text.

The text is what the model gets to read. A JSON string stands bare, every other JSON value in its
compact text.
-/

set_option autoImplicit false

namespace ToolChat

inductive Output where
  | unit
  | integer (n : Int)
  | number (x : Double)
  | boolean (b : Bool)
  | text (s : String)
  | list (items : List Output)
  | record (name : String) (fields : List (String × Output))
  | json (value : Json)

namespace Output

instance : Inhabited Output := ⟨.unit⟩

def ofSingle (x : Single) : Output :=
  .number (x.convert .double)

mutual

def toText : Output → String
  | .unit => "Success"
  | .integer n => toString n
  | .number x => Layout.plain.text x
  | .boolean b => if b then "true" else "false"
  | .text s => s
  | .list items => "[" ++ ", ".intercalate (itemTexts items) ++ "]"
  | .record name fields => name ++ "[" ++ ", ".intercalate (fieldTexts fields) ++ "]"
  | .json (.string s) => s
  | .json value => value.text

def itemTexts : List Output → List String
  | [] => []
  | item :: items => item.toText :: itemTexts items

def fieldTexts : List (String × Output) → List String
  | [] => []
  | (name, value) :: fields => (name ++ "=" ++ value.toText) :: fieldTexts fields

end

end Output

end ToolChat
