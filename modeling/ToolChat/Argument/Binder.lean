import ToolChat.Argument.Arguments
import ToolChat.Argument.Violation
import ToolChat.Json.Reader
import ToolChat.Shape.Index
import ToolChat.Text.Blank

/-!
Binding JSON arguments to declared parameters.

Parameters are taken in declaration order, fields likewise, items by position and map entries in the
order of the document; the first violation ends the binding. Members that are not declared are not
looked at. The recursion is on the JSON value, so a shape may refer to itself.
-/

set_option autoImplicit false

namespace ToolChat

/-- The integer that a JSON number is, if it is one and below `2 ^ 64` in magnitude. -/
def Json.Number.exactInt? : Json.Number → Option Int
  | .integer n _ => some n
  | .float x => if x.magnitudeBelow 18446744073709551616 then x.toInt? else none

def bindInteger (kind : IntegerKind) (path : Path) : Json → Except Violation Value
  | .number n =>
    match n.exactInt? with
    | none => .error ⟨path, .notInteger n⟩
    | some exact =>
      if kind.contains exact then .ok (.integer exact)
      else .error ⟨path, .integerOutOfRange exact kind⟩
  | found => .error ⟨path, .mismatch .integer found.kind⟩

def bindNumber (kind : FloatKind) (path : Path) : Json → Except Violation Value
  | .number n =>
    if kind.contains n.toDouble then .ok (.number n.toDouble)
    else .error ⟨path, .numberOutOfRange n.toDouble kind⟩
  | found => .error ⟨path, .mismatch .number found.kind⟩

def bindConstant (shape : EnumShape) (path : Path) : Json → Except Violation Value
  | .string s =>
    if shape.contains s then .ok (.constant s) else .error ⟨path, .notConstant s shape.name⟩
  | found => .error ⟨path, .mismatch .constant found.kind⟩

def bindBoolean (path : Path) : Json → Except Violation Value
  | .boolean b => .ok (.boolean b)
  | found => .error ⟨path, .mismatch .boolean found.kind⟩

def bindString (path : Path) : Json → Except Violation Value
  | .string s => .ok (.string s)
  | found => .error ⟨path, .mismatch .string found.kind⟩

mutual

def bindValue (index : ShapeIndex) (shape : Shape) (path : Path) (json : Json) :
    Except Violation Value :=
  match shape with
  | .integer kind => bindInteger kind path json
  | .number kind => bindNumber kind path json
  | .boolean => bindBoolean path json
  | .string => bindString path json
  | .enumeration e => bindConstant e path json
  | .object o =>
    match json with
    | .object members => (bindFields index o.fields path members).map .object
    | found => .error ⟨path, .mismatch .object found.kind⟩
  | .ref name =>
    match index.resolve? name with
    | none => .error ⟨path, .undeclaredType name⟩
    | some o =>
      match json with
      | .object members => (bindFields index o.fields path members).map .object
      | found => .error ⟨path, .mismatch .object found.kind⟩
  | .list item =>
    match json with
    | .array items => (bindItems index item path 0 items).map .list
    | found => .error ⟨path, .mismatch .array found.kind⟩
  | .set item =>
    match json with
    | .array items => (bindItems index item path 0 items).map fun values =>
        .set (Value.distinct values)
    | found => .error ⟨path, .mismatch .array found.kind⟩
  | .map value =>
    match json with
    | .object members => (bindEntries index value path members).map fun entries =>
        .map (Dictionary.ofList entries)
    | found => .error ⟨path, .mismatch .object found.kind⟩
  | .undescribed name => .error ⟨path, .undescribedType name⟩
termination_by (sizeOf json, 0)

def bindField (index : ShapeIndex) (field : Field) (path : Path)
    (members : List (String × Json)) : Except Violation Value :=
  match _found : Json.member? field.name members with
  | some json => bindValue index field.shape (.field path field.name) json
  | none => if field.nullable then .ok .null else .error ⟨.field path field.name, .missing⟩
termination_by (sizeOf members, 0)
decreasing_by exact Prod.Lex.left _ _ (Json.sizeOf_lt_of_member?_eq_some _found)

def bindFields (index : ShapeIndex) (fields : List Field) (path : Path)
    (members : List (String × Json)) : Except Violation (List (String × Value)) :=
  match fields with
  | [] => .ok []
  | field :: fields =>
    match bindField index field path members with
    | .error v => .error v
    | .ok value => (bindFields index fields path members).map ((field.name, value) :: ·)
termination_by (sizeOf members, fields.length + 1)

/-- Binds items to a shape, from a position on. -/
def bindItems (index : ShapeIndex) (item : Shape) (path : Path) (position : Nat)
    (items : List Json) : Except Violation (List Value) :=
  match items with
  | [] => .ok []
  | json :: items =>
    match bindValue index item (.item path position) json with
    | .error v => .error v
    | .ok value => (bindItems index item path (position + 1) items).map (value :: ·)
termination_by (sizeOf items, 0)

/-- Binds a member of an object to the shape of map values; null stays null. -/
def bindEntry (index : ShapeIndex) (shape : Shape) (path : Path) (json : Json) :
    Except Violation Value :=
  match json with
  | .null => .ok .null
  | json => bindValue index shape path json
termination_by (sizeOf json, 1)

def bindEntries (index : ShapeIndex) (shape : Shape) (path : Path)
    (members : List (String × Json)) : Except Violation (List (String × Value)) :=
  match members with
  | [] => .ok []
  | (key, json) :: members =>
    match bindEntry index shape (.entry path key) json with
    | .error v => .error v
    | .ok value => (bindEntries index shape path members).map ((key, value) :: ·)
termination_by (sizeOf members, 0)

end

def bindParameter (index : ShapeIndex) (members : List (String × Json)) (name : String)
    (parameter : Parameter) : Except Violation Value :=
  match Json.member? name members with
  | some json => bindValue index parameter.shape (.argument name) json
  | none => if parameter.optional then .ok .null else .error ⟨.argument name, .missing⟩

def bindParameters (index : ShapeIndex) (members : List (String × Json)) :
    List (String × Parameter) → Except Violation (List (String × Value))
  | [] => .ok []
  | (name, parameter) :: rest =>
    match bindParameter index members name parameter with
    | .error v => .error v
    | .ok value => (bindParameters index members rest).map ((name, value) :: ·)

def readJson (text : String) : Except ToolError Json :=
  match Json.read text.toList with
  | .ok json => .ok json
  | .error fault =>
    .error (.invalidArguments ("invalid JSON arguments: " ++ fault.report text.toList))

/-- Reads the arguments of a call: blank text and `null` stand for an object without members. -/
def readArguments (text : String) : Except ToolError (List (String × Json)) :=
  if isBlank text then .ok []
  else match readJson text with
    | .error e => .error e
    | .ok (.object members) => .ok members
    | .ok .null => .ok []
    | .ok _ => .error (.invalidArguments "expected JSON object arguments")

def bindArguments (parameters : List Parameter) (index : ShapeIndex) (text : String) :
    Except ToolError Arguments :=
  match readArguments text with
  | .error e => .error e
  | .ok members =>
    match bindParameters index members (nameParameters parameters) with
    | .error v => .error v.toToolError
    | .ok values => .ok ⟨values⟩

end ToolChat
