import QueryClient.Error
import QueryClient.Text.Quoted

/-!
# Decoding response data

A `Decoder` reads a value of a type from JSON or says what is wrong with the JSON. Decoders are
built from a few basic ones: scalars, lists, maps, options, pairs, enumerations and records.

A record is read from an object or from the list of its fields. In an object unknown members are
ignored, members are read in the order of their names, the first wrong one is reported, and after
that the first missing field in the order of declaration. In a list only fields with a default may
be missing, at the end.

* `Fault`: what can be wrong, and `Fault.message`.
* `Decoder`: reading a value of a type.
* `Fields`: the fields of a record, and `Decoder.record`.
* `decodeData`: the decoded data of a response, or a failure that names the type.
-/

namespace QueryClient

/-- What is wrong with a JSON value that was to be read as a value of some type. -/
inductive Fault where
  /-- The value is of another kind than expected. -/
  | wrongKind (found : Json) (expected : String)
  /-- An integer that does not fit. -/
  | tooLarge (found : Int) (expected : String)
  | missing (field : String)
  | wrongLength (length : Nat) (expected : String)
  | unknownVariant (name : String) (known : List String)
  | severalMembers
  deriving Repr

namespace Fault

/-- A value as messages name it. -/
def describe : Json → String
  | .null => "null"
  | .bool true => "boolean `true`"
  | .bool false => "boolean `false`"
  | .int n => "integer `" ++ String.ofList (Json.writeInt n) ++ "`"
  | .float x => "floating point `" ++ String.ofList (FloatText.json.write x) ++ "`"
  | .str s => "string " ++ Text.quoted s
  | .arr _ => "sequence"
  | .obj _ => "map"

/-- A list of names as messages give it: two are joined by "or", more follow "one of". -/
def alternatives (names : List String) : String :=
  let ticked := names.map fun n => "`" ++ n ++ "`"
  match ticked with
  | [a] => a
  | [a, b] => a ++ " or " ++ b
  | many => "one of " ++ ", ".intercalate many

/-- The text of a fault. -/
def message : Fault → String
  | wrongKind found expected => "invalid type: " ++ describe found ++ ", expected " ++ expected
  | tooLarge found expected =>
    "invalid value: " ++ describe (.int found) ++ ", expected " ++ expected
  | missing field => "missing field `" ++ field ++ "`"
  | wrongLength length expected =>
    "invalid length " ++ String.ofList (Nat.toDigits 10 length) ++ ", expected " ++ expected
  | unknownVariant name known =>
    "unknown variant `" ++ name ++ "`, expected " ++ alternatives known
  | severalMembers => "invalid value: map, expected map with a single key"

end Fault

/-- Reads a value of a type from JSON. -/
structure Decoder (α : Type) where
  run : Json → Except Fault α

namespace Decoder

variable {α β : Type}

/-- Any value. -/
def json : Decoder Json := ⟨.ok⟩

/-- The value read, changed. -/
def map (d : Decoder α) (f : α → β) : Decoder β := ⟨fun j => (d.run j).map f⟩

/-- `true` or `false`. -/
def bool : Decoder Bool :=
  ⟨fun | .bool b => .ok b
       | other => .error (.wrongKind other "a boolean")⟩

/-- A string. -/
def string : Decoder String :=
  ⟨fun | .str s => .ok s
       | other => .error (.wrongKind other "a string")⟩

/-- An integer from `least` to `greatest`; a floating-point number is none. -/
def int (expected : String) (least greatest : Int) : Decoder Int :=
  ⟨fun | .int n => if least ≤ n ∧ n ≤ greatest then .ok n else .error (.tooLarge n expected)
       | other => .error (.wrongKind other expected)⟩

/-- A signed integer of 64 bits. -/
def int64 : Decoder Int := int "i64" (-Int.pow 2 63) (Int.pow 2 63 - 1)

/-- A signed integer of 32 bits. -/
def int32 : Decoder Int := int "i32" (-Int.pow 2 31) (Int.pow 2 31 - 1)

/-- An unsigned integer of 8 bits. -/
def uint8 : Decoder Int := int "u8" 0 255

/-- An unsigned integer of 16 bits. -/
def uint16 : Decoder UInt16 := (int "u16" 0 65535).map fun n => UInt16.ofNat n.toNat

/-- A floating-point number; an integer is taken as the nearest one. -/
def float : Decoder Binary64 :=
  ⟨fun | .float x => .ok x
       | .int n =>
         match Binary64.ofInt? n with
         | some x => .ok x
         | none => .error (.tooLarge n "f64")
       | other => .error (.wrongKind other "f64")⟩

/-- Null. -/
def unit : Decoder Unit :=
  ⟨fun | .null => .ok ()
       | other => .error (.wrongKind other "unit")⟩

/-- A value, or null for none. -/
def option (d : Decoder α) : Decoder (Option α) :=
  ⟨fun | .null => .ok none
       | other => (d.run other).map some⟩

/-- The items in order, up to the first wrong one. -/
def runAll (d : Decoder α) : List Json → Except Fault (List α)
  | [] => .ok []
  | item :: rest => do
    let value ← d.run item
    return value :: (← runAll d rest)

/-- A list. -/
def list (d : Decoder α) : Decoder (List α) :=
  ⟨fun | .arr items => d.runAll items
       | other => .error (.wrongKind other "a sequence")⟩

/-- An object whose members all hold values of one type. -/
def members (d : Decoder α) : Decoder (List (String × α)) :=
  ⟨fun | .obj members => do
         let values ← d.runAll (members.map (·.2))
         return (members.map (·.1)).zip values
       | other => .error (.wrongKind other "a map")⟩

/-- What is expected of more items than a list may hold. -/
def fewer : String := "fewer elements in array"

/-- A list of two. -/
def pair (first : Decoder α) (second : Decoder β) : Decoder (α × β) :=
  let expected := "a tuple of size 2"
  ⟨fun | .arr [] => .error (.wrongLength 0 expected)
       | .arr [a] => do
         let _ ← first.run a
         .error (.wrongLength 1 expected)
       | .arr (a :: b :: rest) => do
         let x ← first.run a
         let y ← second.run b
         if rest.isEmpty then return (x, y)
         else .error (.wrongLength (rest.length + 2) fewer)
       | other => .error (.wrongKind other expected)⟩

/-- One of several names: a string, or an object with the name as its one member and null. -/
def variant (known : List (String × α)) : Decoder α :=
  let named (name : String) : Except Fault α :=
    match known.find? fun v => v.1 = name with
    | some v => .ok v.2
    | none => .error (.unknownVariant name (known.map (·.1)))
  ⟨fun | .str name => named name
       | .obj [(name, value)] => do
         let chosen ← named name
         let _ ← unit.run value
         return chosen
       | .obj _ => .error .severalMembers
       | other => .error (.wrongKind other "string or map")⟩

/-- The fault of a value, if it has one. -/
def fault? (d : Decoder α) (j : Json) : Option Fault :=
  match d.run j with
  | .ok _ => none
  | .error f => some f

end Decoder

/-- A field of a record. -/
structure Field where
  name : String
  /-- The fault of a value as value of the field. -/
  fault? : Json → Option Fault
  /-- May be missing at the end of a list. -/
  hasDefault : Bool

/-- The fields of a record in the order of declaration, and its value when the fields that are
there are right. -/
structure Fields (α : Type) where
  fields : List Field
  build : (String → Option Json) → Except Fault α

namespace Fields

variable {α β : Type}

/-- A record without fields. -/
def pure (value : α) : Fields α := ⟨[], fun _ => .ok value⟩

/-- One more field: a missing one is `absent`, or a fault when there is no such value. -/
def add (fs : Fields (α → β)) (name : String) (d : Decoder α) (absent : Option α)
    (hasDefault : Bool) : Fields β :=
  { fields := fs.fields ++ [⟨name, d.fault?, hasDefault⟩]
    build := fun value? => do
      let f ← fs.build value?
      match value? name with
      | some j => return f (← d.run j)
      | none =>
        match absent with
        | some a => return f a
        | none => .error (.missing name) }

/-- A field that must be there. -/
def required (fs : Fields (α → β)) (name : String) (d : Decoder α) : Fields β :=
  fs.add name d none false

/-- A field that is none when it is missing from an object; a list must hold it. -/
def optional (fs : Fields (Option α → β)) (name : String) (d : Decoder α) : Fields β :=
  fs.add name d.option (some none) false

/-- A field with a default. -/
def withDefault (fs : Fields (α → β)) (name : String) (d : Decoder α) (default : α) : Fields β :=
  fs.add name d (some default) true

/-- The first wrong member of an object; unknown members are ignored. -/
def memberFault? (fields : List Field) : Struct → Option Fault
  | [] => none
  | (name, value) :: rest =>
    match (fields.find? fun f => f.name = name).bind fun f => f.fault? value with
    | some fault => some fault
    | none => memberFault? fields rest

/-- The first wrong item of a list of fields, or the first missing field that has no default. The
number of items read so far is `count`. -/
def itemFault? (expected : String) (count : Nat) : List Field → List Json → Option Fault
  | [], [] => none
  | [], extra => some (.wrongLength (count + extra.length) Decoder.fewer)
  | field :: fields, item :: items =>
    match field.fault? item with
    | some fault => some fault
    | none => itemFault? expected (count + 1) fields items
  | field :: fields, [] =>
    if field.hasDefault then itemFault? expected count fields []
    else some (.wrongLength count expected)

end Fields

/-- A record of the given name, read from an object or from the list of its fields. -/
def Decoder.record {α : Type} (name : String) (fs : Fields α) : Decoder α :=
  let expected := "struct " ++ name
  let size := String.ofList (Nat.toDigits 10 fs.fields.length)
  let counted := expected ++ " with " ++ size ++ " elements"
  ⟨fun | .obj members =>
         match Fields.memberFault? fs.fields members with
         | some fault => .error fault
         | none => fs.build (Struct.get? members)
       | .arr items =>
         match Fields.itemFault? counted 0 fs.fields items with
         | some fault => .error fault
         | none => fs.build (Struct.get? ((fs.fields.map (·.name)).zip items))
       | other => .error (.wrongKind other expected)⟩

/-- A type that response data can be decoded into. -/
structure Target (α : Type) where
  /-- The type, as messages name it. -/
  typeName : String
  decoder : Decoder α

/-- **The decoded data of a response,** or a failure that names the type. -/
def decodeData {α : Type} (target : Target α) (data : Json) : Except Error α :=
  match target.decoder.run data with
  | .ok value => .ok value
  | .error fault => .error (.undecodable target.typeName fault.message)

end QueryClient
