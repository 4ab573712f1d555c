import QueryClient.Number.Binary64

/-!
# JSON values

Integers and floating-point numbers are different values: `1` is not `1.0`. An object is a list of
members; the order of the list carries no meaning, and a value is *well formed* when no object in
it has two members of one name.

* `Json`: the values, and `Struct`: the members of an object.
* `Struct.insert`: puts a member in its place by name, replacing one of that name.
* `Struct.normalize`, `Json.normalize`: members sorted by name at every level, the last of several
  of one name kept.
* `Json.WellFormed`: no object names a member twice.
* `Json.agrees`: equality in which the two floating-point zeros are one value.
-/

namespace QueryClient

/-- A JSON value. -/
inductive Json where
  | null
  | bool (value : Bool)
  | int (value : Int)
  | float (value : Binary64)
  | str (text : String)
  | arr (items : List Json)
  | obj (members : List (String × Json))
  deriving Inhabited, Repr

/-- The members of an object. -/
abbrev Struct := List (String × Json)

namespace Struct

/-- Puts a member in its place by name, replacing one of that name. -/
def insert (name : String) (value : Json) : Struct → Struct
  | [] => [(name, value)]
  | (other, old) :: rest =>
    if name = other then (name, value) :: rest
    else if name < other then (name, value) :: (other, old) :: rest
    else (other, old) :: insert name value rest

/-- Sorted by name, the last of several members of one name kept. -/
def sort (members : Struct) : Struct :=
  members.foldl (fun sorted m => insert m.1 m.2 sorted) []

/-- The value of the member with the given name. -/
def get? (members : Struct) (name : String) : Option Json :=
  (members.find? fun m => m.1 = name).map (·.2)

/-- The names of the members. -/
def names (members : Struct) : List String := members.map (·.1)

end Struct

namespace Json

mutual

/-- Members sorted by name at every level, the last of several of one name kept. -/
def normalize : Json → Json
  | .arr items => .arr (normalizeItems items)
  | .obj members => .obj (Struct.sort (normalizeMembers members))
  | scalar => scalar

def normalizeItems : List Json → List Json
  | [] => []
  | item :: rest => item.normalize :: normalizeItems rest

def normalizeMembers : List (String × Json) → List (String × Json)
  | [] => []
  | (name, value) :: rest => (name, value.normalize) :: normalizeMembers rest

end

mutual

/-- No object in the value names a member twice. -/
def WellFormed : Json → Prop
  | .arr items => WellFormedItems items
  | .obj members => (members.map (·.1)).Nodup ∧ WellFormedMembers members
  | _ => True

def WellFormedItems : List Json → Prop
  | [] => True
  | item :: rest => item.WellFormed ∧ WellFormedItems rest

def WellFormedMembers : List (String × Json) → Prop
  | [] => True
  | (_, value) :: rest => value.WellFormed ∧ WellFormedMembers rest

end

mutual

/-- Equality of values whose members are in the same order; the two floating-point zeros are one
value. -/
def agrees : Json → Json → Bool
  | .null, .null => true
  | .bool a, .bool b => a == b
  | .int a, .int b => a == b
  | .float a, .float b => a.sameNumber b
  | .str a, .str b => a == b
  | .arr a, .arr b => agreesItems a b
  | .obj a, .obj b => agreesMembers a b
  | _, _ => false

def agreesItems : List Json → List Json → Bool
  | [], [] => true
  | a :: as, b :: bs => a.agrees b && agreesItems as bs
  | _, _ => false

def agreesMembers : List (String × Json) → List (String × Json) → Bool
  | [], [] => true
  | (x, a) :: as, (y, b) :: bs => x == y && a.agrees b && agreesMembers as bs
  | _, _ => false

end

/-- An optional value, `null` when there is none. -/
def ofOption {α : Type} (write : α → Json) : Option α → Json
  | none => .null
  | some a => write a

/-- The member of an object with the given name. -/
def get? (j : Json) (name : String) : Option Json :=
  match j with
  | .obj members => Struct.get? members name
  | _ => none

end Json

/-- The members of an object, normalized. -/
def Struct.normalize (members : Struct) : Struct := Struct.sort (Json.normalizeMembers members)

end QueryClient
