import QueryClient.Json.Basic
import QueryClient.Number.Shortest

/-!
# The canonical text of a JSON value

No blanks, members sorted by name (by code point, which is the order of their UTF-8 bytes) at every
level, strings with the fewest escapes, floating-point numbers with the fewest digits.

* `Json.escape`: the written form of one character of a string.
* `Json.canonical`: the text of a value.
* `Struct.canonical`: the text of an object with the given members.
-/

namespace QueryClient

namespace Json

/-- A digit of base sixteen, in lower case. -/
def hexDigit (n : Nat) : Char := Nat.digitChar (n % 16)

/-- The written form of one character of a string: only the quote, the backslash and the
characters below U+0020 are escaped. -/
def escape (c : Char) : List Char :=
  match c with
  | '"' => ['\\', '"']
  | '\\' => ['\\', '\\']
  | '\n' => ['\\', 'n']
  | '\r' => ['\\', 'r']
  | '\t' => ['\\', 't']
  | '\x08' => ['\\', 'b']
  | '\x0c' => ['\\', 'f']
  | c =>
    if c.toNat < 0x20 then ['\\', 'u', '0', '0', hexDigit (c.toNat / 16), hexDigit c.toNat]
    else [c]

/-- A string between quotes. -/
def writeString (s : String) : List Char := '"' :: (s.toList.flatMap escape ++ ['"'])

/-- An integer in base ten. -/
def writeInt (n : Int) : List Char :=
  if n < 0 then '-' :: Nat.toDigits 10 n.natAbs else Nat.toDigits 10 n.natAbs

mutual

/-- The text of a value whose members are sorted. -/
def write : Json → List Char
  | .null => ['n', 'u', 'l', 'l']
  | .bool true => ['t', 'r', 'u', 'e']
  | .bool false => ['f', 'a', 'l', 's', 'e']
  | .int n => writeInt n
  | .float x => FloatText.json.write x
  | .str s => writeString s
  | .arr items => '[' :: (writeItems items ++ [']'])
  | .obj members => '\x7b' :: (writeMembers members ++ ['\x7d'])

def writeItems : List Json → List Char
  | [] => []
  | [item] => item.write
  | item :: rest => item.write ++ ',' :: writeItems rest

def writeMembers : List (String × Json) → List Char
  | [] => []
  | [(name, value)] => writeString name ++ ':' :: value.write
  | (name, value) :: rest => writeString name ++ ':' :: (value.write ++ ',' :: writeMembers rest)

end

/-- The canonical text of a value. -/
def canonical (j : Json) : String := String.ofList j.normalize.write

end Json

/-- The canonical text of an object. -/
def Struct.canonical (members : Struct) : String := (Json.obj members).canonical

end QueryClient
