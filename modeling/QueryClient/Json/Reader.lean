import QueryClient.Json.Basic
import QueryClient.Text.Utf8

/-!
# Reading JSON

Reading has two parts. The first follows the grammar alone and yields a `Document`, in which a
number is still a decimal, a string may turn out not to be text, and an object may name a member
twice. The second, `Document.value?`, makes a value of a document or of a part of it: there every
string must be text, every number must fit, and containers may be nested only so deep. A reader that
skips a member never takes the second step for it.

* `Document.read?`: the document in a sequence of bytes.
* `Document.value?`: the value of a document.
* `Json.read?`: both, for a whole value.
-/

namespace QueryClient

/-- A decimal as it stands in a document. -/
structure Decimal where
  negative : Bool
  digits : Nat
  exponent : Int
  /-- Written without a fraction or an exponent. -/
  integral : Bool
  deriving Repr

/-- What a JSON text says, before its parts are made into values. -/
inductive Document where
  | null
  | bool (value : Bool)
  | number (decimal : Decimal)
  /-- None when an escape or a byte of the string stands for no character. -/
  | string (text : Option String)
  | list (items : List Document)
  | record (members : List (Option String × Document))
  deriving Inhabited, Repr

namespace Document

/-- The blanks of the grammar: space, line feed, carriage return and tab. -/
def isSpace (b : UInt8) : Bool := b == 32 || b == 10 || b == 13 || b == 9

/-- Skips blanks. -/
def skipSpace (bs : List UInt8) : List UInt8 := bs.dropWhile isSpace

/-- The byte is a digit of base ten. -/
def isDigit (b : UInt8) : Bool := 48 ≤ b && b ≤ 57

/-- The number that the leading digits stand for, continued from `n`, how many there are, and what
follows. -/
def digits (n count : Nat) : List UInt8 → Nat × Nat × List UInt8
  | [] => (n, count, [])
  | b :: rest =>
    if isDigit b then digits (10 * n + (b.toNat - 48)) (count + 1) rest else (n, count, b :: rest)

/-- An optional fraction: the digits so far continued, how many were added, and what follows. -/
def fraction? (n : Nat) (bs : List UInt8) : Option (Nat × Nat × List UInt8) :=
  match bs with
  | 46 :: rest =>
    match digits n 0 rest with
    | (_, 0, _) => none
    | found => some found
  | _ => some (n, 0, bs)

/-- An optional exponent and what follows. -/
def exponent? (bs : List UInt8) : Option (Option Int × List UInt8) :=
  let signed (negative : Bool) (rest : List UInt8) :=
    match digits 0 0 rest with
    | (_, 0, _) => none
    | (n, _, rest) => some (some (if negative then -(n : Int) else n), rest)
  match bs with
  | b :: rest =>
    if b = 101 ∨ b = 69 then
      match rest with
      | 43 :: rest => signed false rest
      | 45 :: rest => signed true rest
      | _ => signed false rest
    else some (none, bs)
  | [] => some (none, bs)

/-- A number and what follows. A first zero stands alone. -/
def number? (bs : List UInt8) : Option (Decimal × List UInt8) := do
  let (negative, bs) := match bs with
    | 45 :: rest => (true, rest)
    | _ => (false, bs)
  let (whole, count, rest) := digits 0 0 bs
  if count = 0 ∨ (1 < count ∧ bs.head? = some 48) then none
  let (n, places, rest) ← fraction? whole rest
  let (exponent, rest) ← exponent? rest
  return (⟨negative, n, exponent.getD 0 - places, places = 0 ∧ exponent.isNone⟩, rest)

/-- The value of a digit of base sixteen. -/
def hexValue? (b : UInt8) : Option Nat :=
  if 48 ≤ b ∧ b ≤ 57 then some (b.toNat - 48)
  else if 97 ≤ b ∧ b ≤ 102 then some (b.toNat - 87)
  else if 65 ≤ b ∧ b ≤ 70 then some (b.toNat - 55)
  else none

/-- Four digits of base sixteen and what follows. -/
def hexUnit? : List UInt8 → Option (Nat × List UInt8)
  | a :: b :: c :: d :: rest => do
    return (((← hexValue? a) * 16 + (← hexValue? b)) * 256 + (← hexValue? c) * 16 + (← hexValue? d),
      rest)
  | _ => none

/-- The character after a backslash that stands for itself or for a control character. -/
def simpleEscape? (b : UInt8) : Option Char :=
  match b.toNat with
  | 34 => some '"'
  | 92 => some '\\'
  | 47 => some '/'
  | 98 => some '\x08'
  | 102 => some '\x0c'
  | 110 => some '\n'
  | 114 => some '\r'
  | 116 => some '\t'
  | _ => none

/-- The escape after `\u`: the character, none when the number is half of a pair without its other
half, and what follows. -/
def unicodeEscape? (bs : List UInt8) : Option (Option Char × List UInt8) := do
  let (high, rest) ← hexUnit? bs
  if 0xD800 ≤ high ∧ high < 0xDC00 then
    match rest with
    | 92 :: 117 :: low =>
      let (unit, after) ← hexUnit? low
      if 0xDC00 ≤ unit ∧ unit < 0xE000 then
        return (some (Char.ofNat (0x10000 + (high - 0xD800) * 0x400 + (unit - 0xDC00))), after)
      else return (none, rest)
    | _ => return (none, rest)
  else if 0xDC00 ≤ high ∧ high < 0xE000 then return (none, rest)
  else return (some (Char.ofNat high), rest)

/-- The rest of a string after its opening quote. `sofar` holds the characters read, last first,
and is none once one of them could not be made. -/
def string? : Nat → Option (List Char) → List UInt8 → Option (Option String × List UInt8)
  | 0, _, _ => none
  | _ + 1, _, [] => none
  | fuel + 1, sofar, b :: rest =>
    if b = 34 then some (sofar.map fun cs => String.ofList cs.reverse, rest)
    else if b < 32 then none
    else if b = 92 then
      match rest with
      | [] => none
      | e :: after =>
        if e = 117 then
          match unicodeEscape? after with
          | none => none
          | some (c, after) =>
            string? fuel (sofar.bind fun cs => c.map (· :: cs)) after
        else
          match simpleEscape? e with
          | none => none
          | some c => string? fuel (sofar.map (c :: ·)) after
    else
      match Utf8.decodeChar? (b :: rest) with
      | some (c, after) => string? fuel (sofar.map (c :: ·)) after
      | none => string? fuel none rest

/-- What follows a keyword. -/
def keyword? (word : List UInt8) (bs : List UInt8) : Option (List UInt8) :=
  if word.isPrefixOf bs then some (bs.drop word.length) else none

mutual

/-- One document and what follows it. -/
def document? : Nat → List UInt8 → Option (Document × List UInt8)
  | 0, _ => none
  | fuel + 1, bs =>
    match skipSpace bs with
    | [] => none
    | b :: rest =>
      match b.toNat with
      | 110 => (keyword? [117, 108, 108] rest).map (.null, ·)
      | 116 => (keyword? [114, 117, 101] rest).map (.bool true, ·)
      | 102 => (keyword? [97, 108, 115, 101] rest).map (.bool false, ·)
      | 34 => (string? (rest.length + 1) (some []) rest).map fun (s, rest) => (.string s, rest)
      | 91 =>
        match skipSpace rest with
        | 93 :: rest => some (.list [], rest)
        | rest => (items? fuel rest).map fun (items, rest) => (.list items, rest)
      | 123 =>
        match skipSpace rest with
        | 125 :: rest => some (.record [], rest)
        | rest => (members? fuel rest).map fun (members, rest) => (.record members, rest)
      | _ => (number? (b :: rest)).map fun (n, rest) => (.number n, rest)

/-- The items of a list up to its closing bracket, at least one. -/
def items? : Nat → List UInt8 → Option (List Document × List UInt8)
  | 0, _ => none
  | fuel + 1, bs => do
    let (item, rest) ← document? fuel bs
    match skipSpace rest with
    | 44 :: rest =>
      let (items, rest) ← items? fuel rest
      return (item :: items, rest)
    | 93 :: rest => return ([item], rest)
    | _ => none

/-- The members of an object up to its closing brace, at least one. -/
def members? : Nat → List UInt8 → Option (List (Option String × Document) × List UInt8)
  | 0, _ => none
  | fuel + 1, bs => do
    let 34 :: rest := skipSpace bs | none
    let (name, rest) ← string? (rest.length + 1) (some []) rest
    let 58 :: rest := skipSpace rest | none
    let (value, rest) ← document? fuel rest
    match skipSpace rest with
    | 44 :: rest =>
      let (members, rest) ← members? fuel rest
      return ((name, value) :: members, rest)
    | 125 :: rest => return ([(name, value)], rest)
    | _ => none

end

/-- The document in a sequence of bytes, with nothing but blanks around it. -/
def read? (bs : List UInt8) : Option Document := do
  let (document, rest) ← document? (2 * bs.length + 2) bs
  if (skipSpace rest).isEmpty then some document else none

/-- How deep containers may be nested in a value. -/
def maxDepth : Nat := 127

/-- The value of a decimal: an integer when it is written as one and is at least `-2 ^ 63` and
below `2 ^ 64`, but `-0` is a floating-point zero. None when it is too large for a double. -/
def decimalValue? (d : Decimal) : Option Json :=
  let n : Int := if d.negative then -(d.digits : Int) else d.digits
  if d.integral ∧ -Int.pow 2 63 ≤ n ∧ n < Int.pow 2 64 ∧ ¬(d.negative ∧ d.digits = 0) then some (.int n)
  else (Binary64.ofDecimal? d.negative d.digits d.exponent).map .float

mutual

/-- The value of a document whose containers are nested at most `depth` deep. Of several members
of one name the last counts. -/
def value? (depth : Nat) : Document → Option Json
  | .null => some .null
  | .bool b => some (.bool b)
  | .number d => decimalValue? d
  | .string s => s.map .str
  | .list items =>
    match depth with
    | 0 => none
    | depth + 1 => (values? depth items).map .arr
  | .record members =>
    match depth with
    | 0 => none
    | depth + 1 => (memberValues? depth members).map fun m => .obj (Struct.sort m)

def values? (depth : Nat) : List Document → Option (List Json)
  | [] => some []
  | item :: rest =>
    match value? depth item, values? depth rest with
    | some v, some vs => some (v :: vs)
    | _, _ => none

def memberValues? (depth : Nat) : List (Option String × Document) → Option Struct
  | [] => some []
  | (name, document) :: rest =>
    match name, value? depth document, memberValues? depth rest with
    | some n, some v, some vs => some ((n, v) :: vs)
    | _, _, _ => none

end

end Document

/-- The value in a sequence of bytes. -/
def Json.read? (bs : List UInt8) : Option Json :=
  (Document.read? bs).bind (Document.value? Document.maxDepth)

end QueryClient
