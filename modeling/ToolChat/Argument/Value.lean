import ToolChat.Json.Basic
import ToolChat.Text.Dictionary

/-!
Bound argument values.

A value is what the JSON of an argument becomes once its shape is known. `Value.same` compares
values as arithmetic does, and `Value.toJson` gives back the JSON that a model would send for one.
-/

set_option autoImplicit false

namespace ToolChat

inductive Value where
  | null
  | integer (n : Int)
  | number (x : Double)
  | boolean (b : Bool)
  | string (s : String)
  /-- A constant of an enumeration. -/
  | constant (s : String)
  | list (items : List Value)
  /-- Items no two of which are the same, in the order in which they first came. -/
  | set (items : List Value)
  /-- Entries in ascending key order. -/
  | map (entries : List (String × Value))
  /-- Fields in declaration order. -/
  | object (fields : List (String × Value))

namespace Value

instance : Inhabited Value := ⟨.null⟩

def isNull : Value → Bool
  | .null => true
  | _ => false

def integer? : Value → Option Int
  | .integer n => some n
  | _ => none

def int64? (value : Value) : Option Int :=
  value.integer?.filter fun n => -9223372036854775808 ≤ n && n < 9223372036854775808

/-- The value in double precision, if it is a number of any kind. -/
def double? : Value → Option Double
  | .number x => some x
  | .integer n => some (.ofInt n)
  | _ => none

def boolean? : Value → Option Bool
  | .boolean b => some b
  | _ => none

def text? : Value → Option String
  | .string s | .constant s => some s
  | _ => none

def items? : Value → Option (List Value)
  | .list items | .set items => some items
  | _ => none

def entries? : Value → Option (List (String × Value))
  | .map entries => some entries
  | _ => none

def field? (name : String) : Value → Option Value
  | .object fields => fields.lookup name
  | _ => none

mutual

/-- Equality of values of one kind, numbers being compared as numbers. -/
def same : Value → Value → Bool
  | .null, .null => true
  | .integer m, .integer n => m == n
  | .number x, .number y => x.same y
  | .boolean a, .boolean b => a == b
  | .string s, .string t => s == t
  | .constant s, .constant t => s == t
  | .list xs, .list ys => sameItems xs ys
  | .set xs, .set ys => sameItems xs ys
  | .map xs, .map ys => sameMembers xs ys
  | .object xs, .object ys => sameMembers xs ys
  | _, _ => false

def sameItems : List Value → List Value → Bool
  | [], [] => true
  | x :: xs, y :: ys => same x y && sameItems xs ys
  | _, _ => false

def sameMembers : List (String × Value) → List (String × Value) → Bool
  | [], [] => true
  | (k, x) :: xs, (l, y) :: ys => k == l && same x y && sameMembers xs ys
  | _, _ => false

end

/-- Keeps the first of items that are the same. -/
def distinct (items : List Value) : List Value :=
  items.foldl (fun kept item => if kept.any (same · item) then kept else kept ++ [item]) []

mutual

def toJson : Value → Json
  | .null => .null
  | .integer n => .ofInt n
  | .number x => .ofDouble x
  | .boolean b => .boolean b
  | .string s => .string s
  | .constant s => .string s
  | .list items => .array (itemsJson items)
  | .set items => .array (itemsJson items)
  | .map entries => .object (Json.collect (membersJson entries))
  | .object fields => .object (Json.collect (membersJson fields))

def itemsJson : List Value → List Json
  | [] => []
  | item :: items => item.toJson :: itemsJson items

def membersJson : List (String × Value) → List (String × Json)
  | [] => []
  | (name, value) :: rest => (name, value.toJson) :: membersJson rest

end

end Value

end ToolChat
