/-!
# UTF-8

* `encode`: the bytes of a text.
* `decodeChar?`: the first character of a sequence of bytes and what follows it; overlong forms,
  surrogates and numbers past U+10FFFF are refused.
* `decode?`: the text of a sequence of bytes.
-/

namespace QueryClient.Utf8

/-- The bytes of one character. -/
def encodeChar (c : Char) : List UInt8 :=
  let n := c.toNat
  let tail (shift : Nat) : UInt8 := UInt8.ofNat (0x80 + n / Nat.pow 2 shift % 64)
  if n < 0x80 then [UInt8.ofNat n]
  else if n < 0x800 then [UInt8.ofNat (0xC0 + n / Nat.pow 2 6), tail 0]
  else if n < 0x10000 then [UInt8.ofNat (0xE0 + n / Nat.pow 2 12), tail 6, tail 0]
  else [UInt8.ofNat (0xF0 + n / Nat.pow 2 18), tail 12, tail 6, tail 0]

/-- The bytes of a text. -/
def encode (cs : List Char) : List UInt8 := cs.flatMap encodeChar

/-- The bytes of a string. -/
def bytes (s : String) : List UInt8 := encode s.toList

/-- The six bits of a continuation byte. -/
def tail? (b : UInt8) : Option Nat :=
  let n := b.toNat
  if 0x80 ≤ n ∧ n < 0xC0 then some (n - 0x80) else none

/-- A code point, if it is one and needs at least `least`. -/
def scalar? (least n : Nat) : Option Char :=
  if least ≤ n ∧ (n < 0xD800 ∨ 0xE000 ≤ n) ∧ n < 0x110000 then some (Char.ofNat n) else none

/-- The first character of a sequence of bytes and what follows it. -/
def decodeChar? : List UInt8 → Option (Char × List UInt8)
  | [] => none
  | b :: rest =>
    let n := b.toNat
    if n < 0x80 then some (Char.ofNat n, rest)
    else if n < 0xC0 then none
    else if n < 0xE0 then
      match rest with
      | b₁ :: rest => do
        let t₁ ← tail? b₁
        return (← scalar? 0x80 ((n - 0xC0) * 64 + t₁), rest)
      | _ => none
    else if n < 0xF0 then
      match rest with
      | b₁ :: b₂ :: rest => do
        let t₁ ← tail? b₁
        let t₂ ← tail? b₂
        return (← scalar? 0x800 (((n - 0xE0) * 64 + t₁) * 64 + t₂), rest)
      | _ => none
    else if n < 0xF8 then
      match rest with
      | b₁ :: b₂ :: b₃ :: rest => do
        let t₁ ← tail? b₁
        let t₂ ← tail? b₂
        let t₃ ← tail? b₃
        return (← scalar? 0x10000 ((((n - 0xF0) * 64 + t₁) * 64 + t₂) * 64 + t₃), rest)
      | _ => none
    else none

/-- Decodes at most `fuel` characters. -/
def decodeUpTo : Nat → List UInt8 → Option (List Char)
  | _, [] => some []
  | 0, _ :: _ => none
  | fuel + 1, bytes => do
    let (c, rest) ← decodeChar? bytes
    return c :: (← decodeUpTo fuel rest)

/-- The text of a sequence of bytes, if they are UTF-8. -/
def decode? (bytes : List UInt8) : Option (List Char) := decodeUpTo bytes.length bytes

end QueryClient.Utf8
