/-!
# Binary floating point, 64 bits

A finite double is kept as its bit pattern, so that two values are equal exactly when every bit
is: `0.0` and `-0.0` differ. All arithmetic is exact, in natural numbers.

* `Binary64.magnitude`: significand and power of two of the absolute value.
* `Binary64.ofRatio?`: the double nearest to a quotient, ties to the even neighbour; none when
  the quotient rounds past the largest double.
* `Binary64.ofDecimal?`: the same for `digits · 10 ^ exponent`.
-/

namespace QueryClient

/-- A double, as its 64 bits. -/
structure Binary64 where
  /-- Sign, eleven bits of exponent and fifty-two of fraction, from the top. -/
  bits : UInt64
  deriving DecidableEq, Inhabited, Repr

namespace Binary64

/-- The bits without the sign. -/
def unsignedBits (x : Binary64) : Nat := x.bits.toNat % Nat.pow 2 63

/-- The sign bit is set. -/
def isNegative (x : Binary64) : Bool := Nat.pow 2 63 ≤ x.bits.toNat

/-- Either zero. -/
def isZero (x : Binary64) : Bool := x.unsignedBits == 0

/-- Exponent of the least subnormal double. -/
def leastExponent : Int := -1074

/-- The absolute value is `m · 2 ^ q` for `(m, q) = x.magnitude`. -/
def magnitude (x : Binary64) : Nat × Int :=
  let exponent := x.unsignedBits / Nat.pow 2 52
  let fraction := x.unsignedBits % Nat.pow 2 52
  if exponent = 0 then (fraction, leastExponent)
  else (Nat.pow 2 52 + fraction, leastExponent + (exponent - 1 : Nat))

/-- A double from its sign and the bits without it. -/
def ofParts (negative : Bool) (unsigned : Nat) : Binary64 :=
  ⟨UInt64.ofNat ((if negative then Nat.pow 2 63 else 0) + unsigned)⟩

/-- The first bit pattern that is no finite double. -/
def infinityBits : Nat := 2047 * Nat.pow 2 52

/-- `num / den` to the nearest natural number, ties to the even one. -/
def roundHalfEven (num den : Nat) : Nat :=
  let quotient := num / den
  let twice := 2 * (num % den)
  if twice < den ∨ (twice = den ∧ quotient % 2 = 0) then quotient else quotient + 1

/-- The quotient of `num / den` by `2 ^ q`, as numerator and denominator. -/
def scale (num den : Nat) (q : Int) : Nat × Nat :=
  if 0 ≤ q then (num, den * Nat.pow 2 q.toNat) else (num * Nat.pow 2 (-q).toNat, den)

/-- The power of two that leaves `num / den` between `2 ^ 52` and `2 ^ 53`, no less than that of
the subnormal doubles. -/
def exponentFor (num den : Nat) : Int :=
  let guess : Int := (Nat.log2 num : Int) - Nat.log2 den - 52
  let scaled := scale num den guess
  let exact := if scaled.1 < scaled.2 * Nat.pow 2 52 then guess - 1 else guess
  max exact leastExponent

/-- The double nearest to `num / den` with the given sign. -/
def ofRatio? (negative : Bool) (num den : Nat) : Option Binary64 :=
  if num = 0 then some (ofParts negative 0)
  else
    let q := exponentFor num den
    let scaled := scale num den q
    let unsigned := (q - leastExponent).toNat * Nat.pow 2 52 + roundHalfEven scaled.1 scaled.2
    if unsigned < infinityBits then some (ofParts negative unsigned) else none

/-- The double nearest to `digits · 10 ^ exponent` with the given sign. Exponents far outside the
range of doubles are settled by the count of digits, without raising ten to them. -/
def ofDecimal? (negative : Bool) (digits : Nat) (exponent : Int) : Option Binary64 :=
  if digits = 0 then some (ofParts negative 0)
  else
    let leading : Int := exponent + Nat.log2 digits / 3 + 1
    if 700 < exponent then none
    else if leading < -400 then some (ofParts negative 0)
    else if 0 ≤ exponent then ofRatio? negative (digits * Nat.pow 10 exponent.toNat) 1
    else ofRatio? negative digits (Nat.pow 10 (-exponent).toNat)

/-- The double nearest to an integer. -/
def ofInt? (n : Int) : Option Binary64 := ofRatio? (n < 0) n.natAbs 1

/-- Equality of the numbers: the two zeros are one number. -/
def sameNumber (x y : Binary64) : Bool := x == y || (x.isZero && y.isZero)

end Binary64

end QueryClient
