/-!
# Host names in ASCII

A label with characters above ASCII is written with those characters left out, followed by a list of
numbers that say which they are and where they stand. The numbers are written with digits of base 36
whose thresholds adapt to what was written before.

* `Punycode.encode`, `Punycode.decode?`: the two directions.
-/

namespace QueryClient.Web.Punycode

/-- A digit: letters stand for 0 to 25, numerals for 26 to 35. -/
def digit (n : Nat) : Char := Char.ofNat (if n < 26 then 0x61 + n else 0x30 + (n - 26))

/-- The value of a digit. -/
def digit? (c : Char) : Option Nat :=
  let n := c.toNat
  if 0x61 ≤ n && n ≤ 0x7a then some (n - 0x61)
  else if 0x41 ≤ n && n ≤ 0x5a then some (n - 0x41)
  else if 0x30 ≤ n && n ≤ 0x39 then some (n - 0x30 + 26)
  else none

/-- The threshold of the digit with weight `k`. -/
def threshold (k bias : Nat) : Nat := min 26 (max 1 (k - bias))

theorem one_le_threshold (k bias : Nat) : 1 ≤ threshold k bias := by
  unfold threshold; omega

/-- The digits of a number from the one with weight `k` on. -/
def number (bias k q : Nat) : List Char :=
  let t := threshold k bias
  if q < t then [digit q]
  else digit (t + (q - t) % (36 - t)) :: number bias (k + 36) ((q - t) / (36 - t))
termination_by q
decreasing_by
  have h := one_le_threshold k bias
  exact Nat.lt_of_le_of_lt (Nat.div_le_self _ _) (by omega)

/-- A number below 456, and 36 for every time it had to be divided by 35 to get there. -/
def shrink (delta k : Nat) : Nat × Nat :=
  if 455 < delta then shrink (delta / 35) (k + 36) else (delta, k)
termination_by delta
decreasing_by exact Nat.div_lt_self (by omega) (by omega)

/-- The bias after a number was written as the `count`-th. -/
def adapt (delta count : Nat) (first : Bool) : Nat :=
  let delta := if first then delta / 700 else delta / 2
  let (delta, k) := shrink (delta + delta / count) 0
  k + 36 * delta / (delta + 38)

/-- What was written so far, and what is needed to go on. -/
structure Writer where
  text : List Char := []
  delta : Nat := 0
  bias : Nat := 72
  /-- The number of characters that are accounted for. -/
  done : Nat

/-- A character is passed on the way to the characters with code `code`. -/
def Writer.pass (basic code : Nat) (w : Writer) (c : Char) : Writer :=
  if c.toNat < code then { w with delta := w.delta + 1 }
  else if c.toNat = code then
    { text := w.text ++ number w.bias 36 w.delta
      delta := 0
      bias := adapt w.delta (w.done + 1) (w.done == basic)
      done := w.done + 1 }
  else w

/-- The characters are accounted for in the order of their codes; those below `least` have been. -/
def Writer.run (basic : Nat) (label : List Char) : List Nat → Nat → Writer → Writer
  | [], _, w => w
  | code :: rest, least, w =>
    let w := { w with delta := w.delta + (code - least) * (w.done + 1) }
    let w := label.foldl (Writer.pass basic code) w
    Writer.run basic label rest (code + 1) { w with delta := w.delta + 1 }

/-- The codes above ASCII, in order and without repetition. -/
def codes (label : List Char) : List Nat :=
  ((label.filter fun c => 0x80 ≤ c.toNat).map Char.toNat).mergeSort.eraseDups

/-- A label in ASCII, without its mark. -/
def encode (label : List Char) : List Char :=
  let basic := label.filter fun c => c.toNat < 0x80
  let start := if basic.isEmpty then [] else basic ++ ['-']
  start ++ (Writer.run basic.length label (codes label) 0x80 { done := basic.length }).text

/-- Reads a number: the value, and what follows. -/
def readNumber? (bias : Nat) : List Char → Nat → Nat → Nat → Option (Nat × List Char)
  | [], _, _, _ => none
  | c :: rest, k, weight, value => do
    let d ← digit? c
    let value := value + d * weight
    let t := threshold k bias
    if d < t then return (value, rest)
    else readNumber? bias rest (k + 36) (weight * (36 - t)) value

/-- Puts the characters in their places. -/
def insertAll? : Nat → List Char → Nat → Nat → Nat → List Char → Option (List Char)
  | 0, _, _, _, _, _ => none
  | _ + 1, [], _, _, _, label => some label
  | fuel + 1, cs, code, place, bias, label => do
    let (delta, rest) ← readNumber? bias cs 36 1 0
    let size := label.length + 1
    let bias := adapt delta size (place == 0 && code == 0x80)
    let code := code + (place + delta) / size
    let place := (place + delta) % size
    if code < 0xd800 || (0xdfff < code && code < 0x110000) then
      insertAll? fuel rest code (place + 1) bias (label.insertIdx place (Char.ofNat code))
    else none

/-- The label that a text without its mark stands for. -/
def decode? (cs : List Char) : Option (List Char) :=
  let extra := (cs.reverse.takeWhile (· ≠ '-')).reverse
  let basic := cs.take (cs.length - extra.length - 1)
  if cs.any (0x80 ≤ ·.toNat) then none
  else insertAll? (extra.length + 1) extra 0x80 0 72 basic

end QueryClient.Web.Punycode
