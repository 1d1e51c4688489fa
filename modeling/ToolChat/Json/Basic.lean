import ToolChat.Number.Binary
import ToolChat.Text.Dictionary

/-!
JSON values.

A whole number between the least signed and the greatest unsigned 64-bit integer is kept exactly;
every other number is a finite double precision value. The members of an object stand in the order
in which their keys first came, each key once: `Json.put` is the only way the library adds one.
-/

set_option autoImplicit false

namespace ToolChat

namespace Json

/-- Whether an integer is kept exactly. -/
def InExactRange (n : Int) : Prop :=
  -9223372036854775808 ≤ n ∧ n < 18446744073709551616

instance (n : Int) : Decidable (InExactRange n) :=
  inferInstanceAs (Decidable (_ ∧ _))

inductive Number where
  | integer (n : Int) (inRange : InExactRange n)
  | float (x : Finite .double)
  deriving DecidableEq

def Number.toDouble : Number → Double
  | .integer n _ => .ofInt n
  | .float x => .finite x

end Json

inductive Json where
  | null
  | boolean (b : Bool)
  | number (n : Json.Number)
  | string (s : String)
  | array (items : List Json)
  | object (members : List (String × Json))

namespace Json

instance : Inhabited Json := ⟨.null⟩

/-- Gives a key a value: in place if the key is there, else after all others. -/
def put (key : String) (value : Json) : List (String × Json) → List (String × Json)
  | [] => [(key, value)]
  | (k, v) :: rest => if k = key then (k, value) :: rest else (k, v) :: put key value rest

/-- The members that some pairs make: each key where it first came, with the value it last got. -/
def collect (pairs : List (String × Json)) : List (String × Json) :=
  pairs.foldl (fun members (key, value) => put key value members) []

/-- The member of a key, unless it is null. -/
def member? (key : String) (members : List (String × Json)) : Option Json :=
  match members.lookup key with
  | none | some .null => none
  | some json => some json

/-- The integer as a number: exact where it is in range, else the nearest double; `null` where
that is infinite. -/
def ofInt (n : Int) : Json :=
  if h : InExactRange n then .number (.integer n h)
  else match (Binary.ofInt n : Double) with
    | .finite x => .number (.float x)
    | _ => .null

/-- The value as a number; `null` where it is not finite. -/
def ofDouble : Double → Json
  | .finite x => .number (.float x)
  | _ => .null

inductive Kind where
  | null
  | boolean
  | number
  | string
  | array
  | object
  deriving DecidableEq, Repr

def kind : Json → Kind
  | .null => .null
  | .boolean _ => .boolean
  | .number _ => .number
  | .string _ => .string
  | .array _ => .array
  | .object _ => .object

def Kind.text : Kind → String
  | .null => "null"
  | .boolean => "a boolean"
  | .number => "a number"
  | .string => "a string"
  | .array => "an array"
  | .object => "an object"

theorem sizeOf_lt_of_mem {key : String} {value : Json} {members : List (String × Json)}
    (h : (key, value) ∈ members) : sizeOf value < sizeOf members := by
  have := List.sizeOf_lt_of_mem h
  simp only [Prod.mk.sizeOf_spec] at this
  omega

theorem sizeOf_lt_of_member?_eq_some {key : String} {value : Json}
    {members : List (String × Json)} (h : member? key members = some value) :
    sizeOf value < sizeOf members := by
  unfold member? at h
  split at h
  · cases h
  · cases h
  · next found =>
    cases h
    exact sizeOf_lt_of_mem (Dictionary.mem_of_lookup_eq_some found)

end Json

end ToolChat
