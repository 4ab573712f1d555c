import QueryClient.Error

/-!
# Encoding variables

A value of a program is described by `Serial`: units, scalars, sequences, maps, records and the
variants of enumerations, nested to any depth. `Serial.toJson?` is its JSON image or the reason why
a part of it has none; `encodeVariables` accepts an image that is an object, and takes null for the
object without members.

* `Serial.toJson?`: the JSON image.
* `Serial.key?`: the text of a map's key.
* `encodeVariables`: the variables of an operation.
-/

namespace QueryClient

/-- The value of a program, as an encoder sees it. -/
inductive Serial where
  | unit
  | absent
  | present (value : Serial)
  | bool (value : Bool)
  | int (value : Int)
  /-- None for the numbers that are not finite. -/
  | float (value : Option Binary64)
  | char (value : Char)
  | str (value : String)
  | list (items : List Serial)
  | map (entries : List (Serial × Serial))
  | record (fields : List (String × Serial))
  | newtype (value : Serial)
  | unitVariant (name : String)
  | newtypeVariant (name : String) (value : Serial)
  | tupleVariant (name : String) (items : List Serial)
  | recordVariant (name : String) (fields : List (String × Serial))
  /-- A part whose own encoder fails. -/
  | failing (reason : String)
  deriving Inhabited

namespace Serial

/-- The reason why a number has no JSON image. -/
def outOfRange : String := "number out of range"

/-- The reason why a map has no JSON image. -/
def keyNotText : String := "key must be a string"

/-- An integer that JSON values can hold. -/
def intInRange (n : Int) : Bool := -Int.pow 2 63 ≤ n && n < Int.pow 2 64

/-- The text of a map's key: strings, characters, unit variants, integers, booleans and finite
numbers have one, bare or inside newtypes. -/
def key? : Serial → Except String String
  | .str s => .ok s
  | .char c => .ok (String.singleton c)
  | .unitVariant name => .ok name
  | .int n => .ok (String.ofList (Json.writeInt n))
  | .bool true => .ok "true"
  | .bool false => .ok "false"
  | .float (some x) => .ok (String.ofList (FloatText.json.write x))
  | .float none => .error "float key must be finite (got NaN or +/-inf)"
  | .newtype value => key? value
  | .failing reason => .error reason
  | _ => .error keyNotText

mutual

/-- The JSON image of a value, or the reason why its first part without one has none. -/
def toJson? : Serial → Except String Json
  | .unit => .ok .null
  | .absent => .ok .null
  | .present value => value.toJson?
  | .bool b => .ok (.bool b)
  | .int n => if intInRange n then .ok (.int n) else .error outOfRange
  | .float (some x) => .ok (.float x)
  | .float none => .ok .null
  | .char c => .ok (.str (String.singleton c))
  | .str s => .ok (.str s)
  | .list items => do return .arr (← itemsToJson? items)
  | .map entries => do return .obj (← entriesToJson? [] entries)
  | .record fields => do return .obj (← fieldsToJson? [] fields)
  | .newtype value => value.toJson?
  | .unitVariant name => .ok (.str name)
  | .newtypeVariant name value => do return .obj [(name, ← value.toJson?)]
  | .tupleVariant name items => do return .obj [(name, .arr (← itemsToJson? items))]
  | .recordVariant name fields => do return .obj [(name, .obj (← fieldsToJson? [] fields))]
  | .failing reason => .error reason

def itemsToJson? : List Serial → Except String (List Json)
  | [] => .ok []
  | item :: rest => do
    let value ← item.toJson?
    return value :: (← itemsToJson? rest)

/-- The members made of a map's entries, put among those made before. -/
def entriesToJson? (sofar : Struct) : List (Serial × Serial) → Except String Struct
  | [] => .ok sofar
  | (key, value) :: rest => do
    let name ← key.key?
    let value ← value.toJson?
    entriesToJson? (sofar.insert name value) rest

/-- The members made of a record's fields, put among those made before. -/
def fieldsToJson? (sofar : Struct) : List (String × Serial) → Except String Struct
  | [] => .ok sofar
  | (name, value) :: rest => do
    let value ← value.toJson?
    fieldsToJson? (sofar.insert name value) rest

end

mutual

/-- A JSON value as a value of a program. -/
def ofJson : Json → Serial
  | .null => .unit
  | .bool b => .bool b
  | .int n => .int n
  | .float x => .float (some x)
  | .str s => .str s
  | .arr items => .list (ofItems items)
  | .obj members => .record (ofMembers members)

def ofItems : List Json → List Serial
  | [] => []
  | item :: rest => ofJson item :: ofItems rest

def ofMembers : List (String × Json) → List (String × Serial)
  | [] => []
  | (name, value) :: rest => (name, ofJson value) :: ofMembers rest

end

end Serial

/-- What a JSON value is, in words. -/
def Json.kind : Json → String
  | .null => "null"
  | .bool _ => "a boolean"
  | .int _ | .float _ => "a number"
  | .str _ => "a string"
  | .arr _ => "a list"
  | .obj _ => "a struct"

/-- **The variables of an operation.** A value whose image is null stands for no variables; any
other image that is no object is refused. -/
def encodeVariables (typeName : String) (value : Serial) : Except Error Struct :=
  match value.toJson? with
  | .error reason => .error (.unencodable typeName reason)
  | .ok .null => .ok []
  | .ok (.obj members) => .ok members
  | .ok other => .error (.notAStruct typeName other.kind)

end QueryClient
