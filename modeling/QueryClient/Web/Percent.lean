import QueryClient.Text.Utf8

/-!
# Percent encoding

A part of an address writes the bytes that it may not contain as a percent sign and two digits of
base sixteen. Which ASCII characters those are depends on the part; characters above ASCII are
always written so.

* `percentEncode`: the written form of a text.
* `percentDecode`: the bytes that a text stands for.
* `formEncode`: the written form of a name or a value of a query.
-/

namespace QueryClient.Web

/-- A digit of base sixteen, in upper case. -/
def upperHex (n : Nat) : Char := "0123456789ABCDEF".toList.getD (n % 16) '0'

/-- A byte as a percent sign and two digits. -/
def escapeByte (b : UInt8) : List Char := ['%', upperHex (b.toNat / 16), upperHex b.toNat]

/-- Control characters. -/
def isControl (c : Char) : Bool := c.toNat < 0x20 || c.toNat == 0x7f

/-- Characters escaped in a fragment. -/
def escapedInFragment (c : Char) : Bool := isControl c || " \"<>`".toList.contains c

/-- Characters escaped in a path. -/
def escapedInPath (c : Char) : Bool := escapedInFragment c || "#?\x7b\x7d".toList.contains c

/-- Characters escaped in a user's name or password. -/
def escapedInUser (c : Char) : Bool := escapedInPath c || "/:;=@[\\]^|".toList.contains c

/-- Characters escaped in a query. -/
def escapedInQuery (c : Char) : Bool := isControl c || " \"#<>'".toList.contains c

/-- The written form of a text. -/
def percentEncode (escaped : Char → Bool) (cs : List Char) : List Char :=
  cs.flatMap fun c =>
    if c.toNat < 0x80 && !escaped c then [c] else (Utf8.encodeChar c).flatMap escapeByte

/-- The value of a digit of base sixteen. -/
def hexDigit? (b : UInt8) : Option Nat :=
  let n := b.toNat
  if 0x30 ≤ n && n ≤ 0x39 then some (n - 0x30)
  else if 0x41 ≤ n && n ≤ 0x46 then some (n - 0x41 + 10)
  else if 0x61 ≤ n && n ≤ 0x66 then some (n - 0x61 + 10)
  else none

/-- The bytes that bytes stand for. A percent sign without two digits after it stands for itself. -/
def percentDecode : List UInt8 → List UInt8
  | 37 :: a :: b :: rest =>
    match hexDigit? a, hexDigit? b with
    | some high, some low => UInt8.ofNat (16 * high + low) :: percentDecode rest
    | _, _ => 37 :: percentDecode (a :: b :: rest)
  | b :: rest => b :: percentDecode rest
  | [] => []

/-- The written form of a name or a value of a query: letters, digits and `*-._` stand for
themselves, a space is a plus sign. -/
def formEncode (cs : List Char) : List Char :=
  cs.flatMap fun c =>
    if c.isAlphanum || "*-._".toList.contains c then [c]
    else if c = ' ' then ['+']
    else (Utf8.encodeChar c).flatMap escapeByte

end QueryClient.Web
