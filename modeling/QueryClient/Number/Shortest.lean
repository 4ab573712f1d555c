import QueryClient.Number.Binary64

/-!
# The fewest digits that read back

A double stands for every real that rounds to it. `shortest` picks, of the decimals in that
interval, one with the fewest digits, and of those the one nearest to the double.

* `Interval.contains`: membership in the interval, in exact natural arithmetic.
* `onGrid`: the neighbours of the value among the decimals with a given number of digits.
* `shortest`: digits and exponent, the value being `0.d₁d₂… · 10 ^ exponent`.
* `FloatText`: how the digits are laid out; `FloatText.json` is the layout of JSON numbers.
-/

namespace QueryClient

/-- The reals that round to a double `m · 2 ^ q`, in units of `2 ^ (q - 2)`. -/
structure Interval where
  low : Nat
  value : Nat
  high : Nat
  /-- The ends round to the double, too. -/
  closed : Bool
  /-- Numerator of the unit. -/
  unitNum : Nat
  /-- Denominator of the unit. -/
  unitDen : Nat

namespace Interval

/-- The interval of a double other than zero. -/
def ofBinary64 (x : Binary64) : Interval :=
  let (m, q) := x.magnitude
  let atBinade := m = Nat.pow 2 52 ∧ Binary64.leastExponent < q
  let unit := q - 2
  { low := 4 * m - (if atBinade then 1 else 2)
    value := 4 * m
    high := 4 * m + 2
    closed := m % 2 = 0
    unitNum := if 0 ≤ unit then Nat.pow 2 unit.toNat else 1
    unitDen := if 0 ≤ unit then 1 else Nat.pow 2 (-unit).toNat }

/-- `num / den` lies in the interval. -/
def contains (i : Interval) (num den : Nat) : Bool :=
  let point := num * i.unitDen
  let low := i.low * i.unitNum * den
  let high := i.high * i.unitNum * den
  if i.closed then low ≤ point && point ≤ high else low < point && point < high

/-- Numerator and denominator of the value. -/
def ratio (i : Interval) : Nat × Nat := (i.value * i.unitNum, i.unitDen)

end Interval

/-- The number of decimal digits of `n`, none for zero. -/
def digitCount (n : Nat) : Nat := if n = 0 then 0 else (Nat.toDigits 10 n).length

/-- For `num / den < 1`, how many zeros follow the point before the first digit. -/
def leadingZeros : Nat → Nat → Nat → Nat
  | 0, _, _ => 0
  | fuel + 1, num, den => if den ≤ num * 10 then 0 else leadingZeros fuel (num * 10) den + 1

/-- The `k` with `10 ^ (k - 1) ≤ num / den < 10 ^ k`. -/
def decimalExponent (num den : Nat) : Int :=
  if den ≤ num then digitCount (num / den) else -(leadingZeros 400 num den : Nat)

/-- Numerator and denominator of `digits · 10 ^ exponent`. -/
def decimalRatio (digits : Nat) (exponent : Int) : Nat × Nat :=
  if 0 ≤ exponent then (digits * Nat.pow 10 exponent.toNat, 1)
  else (digits, Nat.pow 10 (-exponent).toNat)

/-- The decimal with `n` digits that reads back as the double and is nearest to it, if there is
one: the multiple of `10 ^ (k - n)` just below the value, or the one just above. -/
def onGrid (i : Interval) (k : Int) (n : Nat) : Option (Nat × Int) :=
  let step := k - n
  let (num, den) := i.ratio
  let (n', d') := if 0 ≤ step then (num, den * Nat.pow 10 step.toNat)
    else (num * Nat.pow 10 (-step).toNat, den)
  let below := n' / d'
  let above := below + 1
  let twice := 2 * (n' % d')
  let holds (digits : Nat) : Bool :=
    let (a, b) := decimalRatio digits step
    i.contains a b
  let nearerBelow := twice < d' || (twice == d' && below % 2 == 0)
  match holds below, holds above with
  | true, true => some (if nearerBelow then below else above, step)
  | true, false => some (below, step)
  | false, true => some (above, step)
  | false, false => none

/-- The first of the grids with `n`, `n + 1`, … digits that has a hit. -/
def firstGrid (i : Interval) (k : Int) : Nat → Nat → Option (Nat × Int)
  | 0, _ => none
  | fuel + 1, n =>
    match onGrid i k n with
    | some hit => some hit
    | none => firstGrid i k fuel (n + 1)

/-- `digits` without the zeros at its end. -/
def stripZeros : List Char → List Char := fun cs => (cs.reverse.dropWhile (· = '0')).reverse

/-- The digits of a double other than zero and the exponent `k`, the absolute value being
`0.d₁d₂… · 10 ^ k`. Seventeen digits always suffice. -/
def shortest (x : Binary64) : List Char × Int :=
  let i := Interval.ofBinary64 x
  let k := decimalExponent i.ratio.1 i.ratio.2
  let (digits, step) := (firstGrid i k 17 1).getD (0, 0)
  let text := Nat.toDigits 10 digits
  (stripZeros text, step + text.length)

/-- How the digits of a floating-point number are laid out. -/
structure FloatText where
  /-- Exponents above this one and up to `positionalTo` are written without a power of ten. -/
  positionalFrom : Int
  positionalTo : Int
  /-- Between the digits and the power of ten. -/
  mark : Char
  /-- A positive power is written with its sign. -/
  plus : Bool

namespace FloatText

/-- **JSON numbers.** Positional from `0.00001` to below `10 ^ 16`, always with a point;
otherwise one digit before the point, an `e` and a signed exponent. -/
def json : FloatText := ⟨-5, 16, 'e', true⟩

/-- The digits with the point after the first `k`. -/
def positional (digits : List Char) (k : Int) : List Char :=
  if k ≤ 0 then '0' :: '.' :: (List.replicate (-k).toNat '0' ++ digits)
  else
    let whole := digits.take k.toNat ++ List.replicate (k.toNat - digits.length) '0'
    let rest := digits.drop k.toNat
    whole ++ '.' :: (if rest.isEmpty then ['0'] else rest)

/-- The digits with the point after the first and a power of ten. -/
def scientific (f : FloatText) (digits : List Char) (k : Int) : List Char :=
  let power := k - 1
  let sign := if power < 0 then ['-'] else if f.plus then ['+'] else []
  let fraction := match digits.drop 1 with
    | [] => []
    | rest => '.' :: rest
  digits.take 1 ++ fraction ++ f.mark :: (sign ++ Nat.toDigits 10 power.natAbs)

/-- The text of a double. -/
def write (f : FloatText) (x : Binary64) : List Char :=
  let body :=
    if x.isZero then ['0', '.', '0']
    else
      let (digits, k) := shortest x
      if f.positionalFrom < k ∧ k ≤ f.positionalTo then positional digits k
      else f.scientific digits k
  if x.isNegative then '-' :: body else body

end FloatText

end QueryClient
