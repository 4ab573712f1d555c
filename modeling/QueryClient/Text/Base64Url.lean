/-!
# Base 64 for addresses

Six bits a character, `-` and `_` for the last two values, no padding at the end.
-/

namespace QueryClient.Base64Url

/-- The characters of the values 0 to 63. -/
def alphabet : List Char :=
  "ABCDEFGHIJKLMNOPQRSTUVWXYZabcdefghijklmnopqrstuvwxyz0123456789-_".toList

/-- The character of a value below 64. -/
def digit (n : Nat) : Char := alphabet.getD n 'A'

/-- Three bytes are four characters; one or two bytes at the end are two or three. -/
def encode : List UInt8 → List Char
  | a :: b :: c :: rest =>
    let n := (a.toNat * 256 + b.toNat) * 256 + c.toNat
    digit (n / Nat.pow 64 3) :: digit (n / Nat.pow 64 2 % 64) :: digit (n / 64 % 64) :: digit (n % 64)
      :: encode rest
  | [a, b] =>
    let n := (a.toNat * 256 + b.toNat) * 4
    [digit (n / Nat.pow 64 2), digit (n / 64 % 64), digit (n % 64)]
  | [a] =>
    let n := a.toNat * 16
    [digit (n / 64), digit (n % 64)]
  | [] => []

end QueryClient.Base64Url
