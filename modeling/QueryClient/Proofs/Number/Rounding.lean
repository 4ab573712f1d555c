import Mathlib.Algebra.Order.Field.Power
import Mathlib.Data.List.TakeWhile
import Mathlib.Data.Rat.Cast.Order
import Mathlib.Order.Monotone.Basic
import Mathlib.Tactic.FieldSimp
import Mathlib.Tactic.Linarith
import Mathlib.Tactic.NormNum
import Mathlib.Tactic.Positivity
import Mathlib.Tactic.Ring
import QueryClient.Number.Shortest

/-!
# The shortest decimal of a double

A double stands for an interval of rationals. The intervals of two doubles of one sign have no
point in common, and the decimal that is chosen for a double lies in its interval; it tells the
double from all others.

* `Interval.Inside`, `Interval.contains_iff`: points of the interval.
* `Binary64.upper_eq_lower`: the interval of a double ends where that of the next begins.
* `eq_of_inside`: **the intervals are disjoint.**
* `shortest_inside`: **the decimal is in the interval;** seventeen digits suffice.
-/

namespace QueryClient

/-! ## Intervals -/

namespace Interval

/-- The unit of the bounds. -/
def unit (i : Interval) : ℚ := i.unitNum / i.unitDen

/-- The point rounds to the double. -/
def Inside (i : Interval) (p : ℚ) : Prop :=
  if i.closed then i.low * i.unit ≤ p ∧ p ≤ i.high * i.unit
  else i.low * i.unit < p ∧ p < i.high * i.unit

variable {i : Interval} {p : ℚ}

theorem Inside.bounds (h : i.Inside p) : i.low * i.unit ≤ p ∧ p ≤ i.high * i.unit := by
  unfold Inside at h
  split at h
  · exact h
  · exact ⟨h.1.le, h.2.le⟩

theorem Inside.of_lt (hlow : i.low * i.unit < p) (hhigh : p < i.high * i.unit) : i.Inside p := by
  unfold Inside
  split
  · exact ⟨hlow.le, hhigh.le⟩
  · exact ⟨hlow, hhigh⟩

/-- Membership is decided in natural numbers. -/
theorem contains_iff (hi : 0 < i.unitDen) {num den : ℕ} (hden : 0 < den) :
    i.contains num den ↔ i.Inside (num / den) := by
  have hi' : (0 : ℚ) < i.unitDen := by exact_mod_cast hi
  have hden' : (0 : ℚ) < den := by exact_mod_cast hden
  have hle : ∀ a : ℕ, a * i.unitNum * den ≤ num * i.unitDen ↔ a * i.unit ≤ (num / den : ℚ) := by
    intro a
    unfold unit
    rw [le_div_iff₀ hden', mul_div_assoc', div_mul_eq_mul_div, div_le_iff₀ hi']
    exact_mod_cast Iff.rfl
  have hge : ∀ a : ℕ, num * i.unitDen ≤ a * i.unitNum * den ↔ (num / den : ℚ) ≤ a * i.unit := by
    intro a
    unfold unit
    rw [div_le_iff₀ hden', mul_div_assoc', div_mul_eq_mul_div, le_div_iff₀ hi']
    exact_mod_cast Iff.rfl
  unfold contains Inside
  simp only
  split
  · rw [Bool.and_eq_true, decide_eq_true_iff, decide_eq_true_iff, hle, hge]
  · rw [Bool.and_eq_true, decide_eq_true_iff, decide_eq_true_iff, ← not_le, ← not_le, hge, hle,
      not_le, not_le]

end Interval

/-! ## The interval of a double -/

namespace Binary64

/-- The significand of a double, by its bits without the sign. -/
def significand (u : ℕ) : ℕ := if u / 2 ^ 52 = 0 then u % 2 ^ 52 else 2 ^ 52 + u % 2 ^ 52

/-- The power of two that goes with it. -/
def binaryExponent (u : ℕ) : ℤ := if u / 2 ^ 52 = 0 then -1074 else -1074 + (u / 2 ^ 52 - 1 : ℕ)

/-- Below the least significand the doubles are closer to each other. -/
def atBinade (u : ℕ) : Prop := significand u = 2 ^ 52 ∧ -1074 < binaryExponent u

instance (u : ℕ) : Decidable (atBinade u) := inferInstanceAs (Decidable (_ ∧ _))

/-- The lower end of the interval. -/
def lower (u : ℕ) : ℚ :=
  (4 * significand u - (if atBinade u then 1 else 2) : ℚ) * 2 ^ (binaryExponent u - 2)

/-- The upper end of the interval. -/
def upper (u : ℕ) : ℚ := (4 * significand u + 2 : ℚ) * 2 ^ (binaryExponent u - 2)

variable {x y : Binary64} {u : ℕ} {p : ℚ}

theorem magnitude_eq (x : Binary64) :
    x.magnitude = (significand x.unsignedBits, binaryExponent x.unsignedBits) := by
  unfold magnitude significand binaryExponent leastExponent
  simp only [show Nat.pow 2 52 = 2 ^ 52 from rfl]
  split <;> rfl

theorem significand_lt (u : ℕ) : significand u < 2 ^ 53 := by
  unfold significand
  have := Nat.mod_lt u (show 0 < 2 ^ 52 by decide)
  split <;> omega

theorem significand_pos (hu : u ≠ 0) : 0 < significand u := by
  unfold significand
  split
  · have := Nat.div_add_mod u (2 ^ 52)
    omega
  · omega

theorem binaryExponent_ge (u : ℕ) : -1074 ≤ binaryExponent u := by
  unfold binaryExponent
  split <;> omega

/-- The significand is even when the bits are. -/
theorem significand_even (u : ℕ) : significand u % 2 = u % 2 := by
  unfold significand
  split <;> omega

/-- **The interval of a double ends where that of the next begins.** -/
theorem upper_eq_lower (u : ℕ) : upper u = lower (u + 1) := by
  have hdouble : ∀ q : ℤ, (2 : ℚ) ^ (q + 1 - 2) = 2 * 2 ^ (q - 2) := by
    intro q
    rw [show q + 1 - 2 = (q - 2) + 1 by ring, zpow_add_one₀ (by norm_num), mul_comm]
  by_cases hcarry : u % 2 ^ 52 + 1 = 2 ^ 52
  · -- the next double is the first with its exponent
    have hdiv : (u + 1) / 2 ^ 52 = u / 2 ^ 52 + 1 := by omega
    have hmod : (u + 1) % 2 ^ 52 = 0 := by omega
    have hsig : significand (u + 1) = 2 ^ 52 := by
      unfold significand
      rw [hdiv, hmod, if_neg (Nat.succ_ne_zero _), Nat.add_zero]
    by_cases hzero : u / 2 ^ 52 = 0
    · have hexp : binaryExponent (u + 1) = -1074 := by
        unfold binaryExponent
        rw [hdiv, hzero]
        rfl
      have hsame : binaryExponent u = -1074 := if_pos hzero
      have hsig' : significand u = 2 ^ 52 - 1 := by
        unfold significand
        rw [if_pos hzero]
        omega
      have hnot : ¬ atBinade (u + 1) := fun h => by have := h.2; omega
      unfold upper lower
      rw [hsig, hexp, hsame, hsig', if_neg hnot]
      norm_num
    · have hexp : binaryExponent (u + 1) = binaryExponent u + 1 := by
        unfold binaryExponent
        rw [hdiv, if_neg hzero, if_neg (by omega)]
        omega
      have hsig' : significand u = 2 ^ 53 - 1 := by
        unfold significand
        rw [if_neg hzero]
        omega
      have hat : atBinade (u + 1) :=
        ⟨hsig, by have := binaryExponent_ge u; omega⟩
      unfold upper lower
      rw [hsig, hexp, hsig', if_pos hat, hdouble]
      norm_num
      ring
  · have hdiv : (u + 1) / 2 ^ 52 = u / 2 ^ 52 := by omega
    have hmod : (u + 1) % 2 ^ 52 = u % 2 ^ 52 + 1 := by omega
    have hexp : binaryExponent (u + 1) = binaryExponent u := by simp only [binaryExponent, hdiv]
    have hsig : significand (u + 1) = significand u + 1 := by
      unfold significand
      rw [hdiv, hmod]
      split <;> omega
    have hnot : ¬ atBinade (u + 1) := by
      rintro ⟨h, hlt⟩
      unfold significand at h
      rw [hexp] at hlt
      unfold binaryExponent at hlt
      split at h
      · omega
      · omega
    unfold upper lower
    rw [hsig, hexp, if_neg hnot]
    push_cast
    ring

theorem lower_lt_upper (u : ℕ) : lower u < upper u := by
  have hpos : (0 : ℚ) < 2 ^ (binaryExponent u - 2) := by positivity
  unfold lower upper
  refine mul_lt_mul_of_pos_right ?_ hpos
  split <;> linarith

theorem lower_strictMono : StrictMono lower :=
  strictMono_nat_of_lt_succ fun u => (lower_lt_upper u).trans_eq (upper_eq_lower u)

end Binary64

/-! ## The model's intervals -/

open Binary64

namespace Interval

theorem unit_ofBinary64 (x : Binary64) :
    (ofBinary64 x).unit = 2 ^ (binaryExponent x.unsignedBits - 2) := by
  unfold ofBinary64 unit
  rw [magnitude_eq]
  simp only
  split
  · rename_i h
    obtain ⟨n, hn⟩ := Int.eq_ofNat_of_zero_le h
    rw [hn]
    simp
  · rename_i h
    obtain ⟨n, hn⟩ := Int.eq_ofNat_of_zero_le (show 0 ≤ -(binaryExponent x.unsignedBits - 2) by omega)
    rw [hn, show binaryExponent x.unsignedBits - 2 = -(n : ℤ) by omega]
    simp

theorem unitDen_pos (x : Binary64) : 0 < (ofBinary64 x).unitDen := by
  unfold ofBinary64
  simp only
  split
  · exact Nat.one_pos
  · exact Nat.pow_pos (by decide)

theorem low_ofBinary64 (hx : x.unsignedBits ≠ 0) :
    (ofBinary64 x).low * (ofBinary64 x).unit = lower x.unsignedBits := by
  have hpos := significand_pos hx
  rw [unit_ofBinary64]
  have hlow : (ofBinary64 x).low =
      4 * significand x.unsignedBits - (if atBinade x.unsignedBits then 1 else 2) := by
    unfold ofBinary64
    rw [magnitude_eq]
    rfl
  unfold lower
  rw [hlow]
  congr 1
  split
  · rw [Nat.cast_sub (by omega)]
    push_cast
    rfl
  · rw [Nat.cast_sub (by omega)]
    push_cast
    rfl

theorem high_ofBinary64 (x : Binary64) :
    (ofBinary64 x).high * (ofBinary64 x).unit = upper x.unsignedBits := by
  rw [unit_ofBinary64]
  unfold ofBinary64 upper
  rw [magnitude_eq]
  push_cast
  rfl

theorem closed_ofBinary64 (x : Binary64) :
    (ofBinary64 x).closed = decide (x.unsignedBits % 2 = 0) := by
  unfold ofBinary64
  rw [magnitude_eq]
  simp only [significand_even]

theorem value_ofBinary64 (x : Binary64) : (ofBinary64 x).value = 4 * significand x.unsignedBits := by
  unfold ofBinary64
  rw [magnitude_eq]

end Interval

/-- **The intervals of two doubles have no point in common.** -/
theorem eq_of_inside (hx : x.unsignedBits ≠ 0) (hy : y.unsignedBits ≠ 0)
    (hpx : (Interval.ofBinary64 x).Inside p) (hpy : (Interval.ofBinary64 y).Inside p) :
    x.unsignedBits = y.unsignedBits := by
  -- of two different intervals with a common point, both would contain their common end
  have key : ∀ {x y : Binary64}, x.unsignedBits ≠ 0 → y.unsignedBits ≠ 0 →
      (Interval.ofBinary64 x).Inside p → (Interval.ofBinary64 y).Inside p →
      ¬ x.unsignedBits < y.unsignedBits := by
    intro x y hx hy hpx hpy hlt
    have hupper := hpx.bounds.2
    have hlower := hpy.bounds.1
    rw [Interval.high_ofBinary64, upper_eq_lower] at hupper
    rw [Interval.low_ofBinary64 hy] at hlower
    have hnext : x.unsignedBits + 1 = y.unsignedBits := by
      refine Nat.le_antisymm hlt (lower_strictMono.le_iff_le.1 (hlower.trans hupper))
    have heq : p = lower y.unsignedBits := le_antisymm (hnext ▸ hupper) hlower
    unfold Interval.Inside at hpx hpy
    rw [Interval.closed_ofBinary64, Interval.high_ofBinary64, upper_eq_lower, hnext, heq] at hpx
    rw [Interval.closed_ofBinary64, Interval.low_ofBinary64 hy, heq] at hpy
    have heven : ∀ {u : ℕ}, u % 2 ≠ 0 → (decide (u % 2 = 0) : Bool) = false := by
      intro u hu
      simpa using hu
    by_cases hxe : x.unsignedBits % 2 = 0
    · rw [heven (show y.unsignedBits % 2 ≠ 0 by omega)] at hpy
      exact absurd hpy.1 (lt_irrefl _)
    · rw [heven hxe] at hpx
      exact absurd hpx.2 (lt_irrefl _)
  exact Nat.le_antisymm (Nat.not_lt.1 (key hy hx hpy hpx)) (Nat.not_lt.1 (key hx hy hpx hpy))

/-! ## The grid of decimals -/

variable {i : Interval} {k : ℤ} {n fuel : ℕ} {hit : ℕ × ℤ}

/-- The value of digits with a power of ten. -/
def decimalValue (digits : ℕ) (exponent : ℤ) : ℚ := digits * 10 ^ exponent

theorem decimalRatio_value (digits : ℕ) (exponent : ℤ) : 0 < (decimalRatio digits exponent).2 ∧
    ((decimalRatio digits exponent).1 / (decimalRatio digits exponent).2 : ℚ) =
      decimalValue digits exponent := by
  unfold decimalRatio decimalValue
  split
  · rename_i h
    obtain ⟨m, rfl⟩ := Int.eq_ofNat_of_zero_le h
    simp
  · rename_i h
    obtain ⟨m, hm⟩ := Int.eq_ofNat_of_zero_le (show 0 ≤ -exponent by omega)
    rw [show exponent = -(m : ℤ) by omega]
    simp [div_eq_mul_inv]

theorem contains_decimal (hi : 0 < i.unitDen) (digits : ℕ) (exponent : ℤ) :
    i.contains (decimalRatio digits exponent).1 (decimalRatio digits exponent).2 ↔
      i.Inside (decimalValue digits exponent) := by
  obtain ⟨hpos, hvalue⟩ := decimalRatio_value digits exponent
  rw [Interval.contains_iff hi hpos, hvalue]

/-- What is found on a grid is in the interval. -/
theorem onGrid_inside (hi : 0 < i.unitDen) (h : onGrid i k n = some hit) :
    i.Inside (decimalValue hit.1 hit.2) := by
  have hholds : ∀ digits, i.contains (decimalRatio digits (k - n)).1 (decimalRatio digits (k - n)).2 =
      true → i.Inside (decimalValue digits (k - n)) := fun digits => (contains_decimal hi digits _).1
  obtain ⟨num, den, heq⟩ : ∃ num den : ℕ,
      (if 0 ≤ k - n then (i.ratio.1, i.ratio.2 * Nat.pow 10 (k - n).toNat)
        else (i.ratio.1 * Nat.pow 10 (-(k - n)).toNat, i.ratio.2)) = (num, den) := ⟨_, _, rfl⟩
  unfold onGrid at h
  simp only [heq] at h
  split at h
  · rename_i hbelow habove
    obtain rfl := Option.some.inj h
    dsimp only
    split
    · exact hholds _ hbelow
    · exact hholds _ habove
  · rename_i hbelow _
    obtain rfl := Option.some.inj h
    exact hholds _ hbelow
  · rename_i _ habove
    obtain rfl := Option.some.inj h
    exact hholds _ habove
  · simp at h

/-- The value of the double is between its neighbours on the grid. -/
theorem grid_neighbours (hi : 0 < i.unitDen) (step : ℤ) : ∃ num den : ℕ,
    (if 0 ≤ step then (i.ratio.1, i.ratio.2 * Nat.pow 10 step.toNat)
      else (i.ratio.1 * Nat.pow 10 (-step).toNat, i.ratio.2)) = (num, den) ∧
    decimalValue (num / den) step ≤ i.value * i.unit ∧
    i.value * i.unit < decimalValue (num / den + 1) step := by
  have hi' : (0 : ℚ) < i.unitDen := by exact_mod_cast hi
  have hstep : (0 : ℚ) < 10 ^ step := by positivity
  -- the quotient is the value in steps of the grid
  have key : ∀ num den : ℕ, 0 < den → (num / den : ℚ) * 10 ^ step = i.value * i.unit →
      decimalValue (num / den) step ≤ i.value * i.unit ∧
        i.value * i.unit < decimalValue (num / den + 1) step := by
    intro num den hden hvalue
    have hden' : (0 : ℚ) < den := by exact_mod_cast hden
    unfold decimalValue
    rw [← hvalue]
    constructor
    · refine mul_le_mul_of_nonneg_right ?_ hstep.le
      rw [le_div_iff₀ hden']
      exact_mod_cast Nat.div_mul_le_self num den
    · refine mul_lt_mul_of_pos_right ?_ hstep
      rw [div_lt_iff₀ hden']
      exact_mod_cast Nat.lt_mul_of_div_lt (Nat.lt_succ_self _) hden
  unfold Interval.ratio Interval.unit at *
  split
  · rename_i h
    obtain ⟨m, rfl⟩ := Int.eq_ofNat_of_zero_le h
    refine ⟨_, _, rfl, key _ _ (Nat.mul_pos hi (Nat.pow_pos (by decide))) ?_⟩
    have hten : (10 : ℚ) ^ m ≠ 0 := by positivity
    push_cast
    simp only [Int.toNat_natCast, zpow_natCast, Nat.pow_eq]
    push_cast
    field_simp
  · rename_i h
    obtain ⟨m, hm⟩ := Int.eq_ofNat_of_zero_le (show 0 ≤ -step by omega)
    refine ⟨_, _, rfl, key _ _ hi ?_⟩
    have hten : (10 : ℚ) ^ m ≠ 0 := by positivity
    rw [show step = -(m : ℤ) by omega]
    simp only [neg_neg, Int.toNat_natCast, zpow_neg, zpow_natCast, Nat.pow_eq]
    push_cast
    field_simp

/-- **A grid that is finer than the interval has a point in it.** -/
theorem onGrid_isSome (hi : 0 < i.unitDen) (hlow : i.low * i.unit < i.value * i.unit)
    (hhigh : i.value * i.unit < i.high * i.unit)
    (hfine : (10 : ℚ) ^ (k - n) < i.high * i.unit - i.low * i.unit) : (onGrid i k n).isSome := by
  obtain ⟨num, den, heq, hbelow, habove⟩ := grid_neighbours hi (k - n)
  have hholds : ∀ digits, i.Inside (decimalValue digits (k - n)) →
      i.contains (decimalRatio digits (k - n)).1 (decimalRatio digits (k - n)).2 = true :=
    fun digits => (contains_decimal hi digits _).2
  have hnext : decimalValue (num / den + 1) (k - n) = decimalValue (num / den) (k - n) + 10 ^ (k - n) := by
    unfold decimalValue
    push_cast
    ring
  have hone : i.Inside (decimalValue (num / den) (k - n)) ∨
      i.Inside (decimalValue (num / den + 1) (k - n)) := by
    rcases le_or_gt (decimalValue (num / den) (k - n)) (i.low * i.unit) with hle | hgt
    · refine .inr (.of_lt (hlow.trans habove) ?_)
      linarith
    · exact .inl (.of_lt hgt (hbelow.trans_lt hhigh))
  unfold onGrid
  simp only [heq]
  rcases hone with h | h
  · rw [hholds _ h]
    split <;> simp_all
  · rw [hholds _ h]
    split <;> simp_all

theorem firstGrid_inside (hi : 0 < i.unitDen) : ∀ {n : ℕ}, firstGrid i k fuel n = some hit →
    i.Inside (decimalValue hit.1 hit.2) := by
  induction fuel with
  | zero => simp [firstGrid]
  | succ fuel ih =>
    intro n h
    unfold firstGrid at h
    split at h
    · rename_i hit' hgrid
      obtain rfl := Option.some.inj h
      exact onGrid_inside hi hgrid
    · exact ih h

theorem firstGrid_isSome {j : ℕ} (hj : (onGrid i k j).isSome) :
    ∀ {n : ℕ}, n ≤ j → j < n + fuel → (firstGrid i k fuel n).isSome := by
  induction fuel with
  | zero => intro n hn hlt; omega
  | succ fuel ih =>
    intro n hn hlt
    unfold firstGrid
    split
    · rfl
    · rename_i hnone
      have hne : n ≠ j := by
        rintro rfl
        rw [hnone] at hj
        simp at hj
      exact ih (by omega) (by omega)

/-! ## How many digits are needed -/

theorem leadingZeros_spec {num den : ℕ} (h : den ≤ num * 10 ^ fuel) :
    den ≤ num * 10 ^ (leadingZeros fuel num den + 1) := by
  induction fuel generalizing num with
  | zero =>
    simp only [leadingZeros]
    omega
  | succ fuel ih =>
    unfold leadingZeros
    split
    · simpa using ‹den ≤ num * 10›
    · have hten : den ≤ num * 10 * 10 ^ (leadingZeros fuel (num * 10) den + 1) :=
        ih (by rw [pow_succ] at h; linarith)
      rw [pow_succ, ← mul_assoc]
      rw [mul_right_comm] at hten
      exact hten

/-- The value has no more digits before the point than the exponent says. -/
theorem decimalExponent_spec {num den : ℕ} (hden : 0 < den) (h : den ≤ num * 10 ^ 400) :
    (10 : ℚ) ^ (decimalExponent num den - 1) ≤ num / den := by
  have hden' : (0 : ℚ) < den := by exact_mod_cast hden
  rw [le_div_iff₀ hden']
  unfold decimalExponent
  split
  · rename_i hle
    have hpos : 0 < num / den := Nat.div_pos hle hden
    have hlength : 0 < (Nat.toDigits 10 (num / den)).length := Nat.length_toDigits_pos
    -- the quotient has so many digits, and no fewer
    have hge : 10 ^ ((Nat.toDigits 10 (num / den)).length - 1) ≤ num / den := by
      by_contra hlt
      rcases Nat.eq_zero_or_pos ((Nat.toDigits 10 (num / den)).length - 1) with h0 | hp
      · rw [h0, pow_zero] at hlt
        omega
      · have := (Nat.length_toDigits_le_iff (b := 10) (by decide) hp).2 (Nat.lt_of_not_le hlt)
        omega
    have hmul := (Nat.le_div_iff_mul_le hden).1 hge
    unfold digitCount
    rw [if_neg hpos.ne', show ((Nat.toDigits 10 (num / den)).length : ℤ) - 1 =
      ((Nat.toDigits 10 (num / den)).length - 1 : ℕ) by omega, zpow_natCast]
    exact_mod_cast hmul
  · have hlz := leadingZeros_spec h
    have hten : (0 : ℚ) < 10 ^ (leadingZeros 400 num den + 1) := by positivity
    rw [show -(leadingZeros 400 num den : ℤ) - 1 = -((leadingZeros 400 num den + 1 : ℕ) : ℤ) by
      push_cast; ring, zpow_neg, zpow_natCast, inv_mul_le_iff₀ hten, mul_comm]
    exact_mod_cast hlz

/-! ## The decimal of a double -/

theorem value_between (x : Binary64) :
    lower x.unsignedBits < (Interval.ofBinary64 x).value * (Interval.ofBinary64 x).unit ∧
      (Interval.ofBinary64 x).value * (Interval.ofBinary64 x).unit < upper x.unsignedBits := by
  have hpos : (0 : ℚ) < 2 ^ (binaryExponent x.unsignedBits - 2) := by positivity
  rw [Interval.value_ofBinary64, Interval.unit_ofBinary64]
  unfold lower upper
  push_cast
  constructor
  · refine mul_lt_mul_of_pos_right ?_ hpos
    split <;> linarith
  · refine mul_lt_mul_of_pos_right ?_ hpos
    linarith

/-- **Seventeen digits are finer than any interval.** -/
theorem width_gt (x : Binary64) :
    (Interval.ofBinary64 x).value * (Interval.ofBinary64 x).unit * 10 ^ (-16 : ℤ) <
      upper x.unsignedBits - lower x.unsignedBits := by
  have hpos : (0 : ℚ) < 2 ^ (binaryExponent x.unsignedBits - 2) := by positivity
  have hlt : (significand x.unsignedBits : ℚ) < 2 ^ 53 := by exact_mod_cast significand_lt _
  rw [Interval.value_ofBinary64, Interval.unit_ofBinary64]
  unfold lower upper
  rw [← sub_mul, mul_right_comm]
  refine mul_lt_mul_of_pos_right ?_ hpos
  push_cast
  split
  · -- the interval is narrower where the exponent changes, but the value is small there
    rename_i hat
    rw [hat.1]
    norm_num
  · norm_num
    linarith

theorem two_pow_le_ten_pow {m n : ℕ} (h : n ≤ 3 * m) : 2 ^ n ≤ 10 ^ m :=
  calc 2 ^ n ≤ 2 ^ (3 * m) := Nat.pow_le_pow_right Nat.two_pos h
    _ = (2 ^ 3) ^ m := pow_mul ..
    _ ≤ 10 ^ m := Nat.pow_le_pow_left (by decide) _

theorem ratio_le (hx : x.unsignedBits ≠ 0) : 0 < (Interval.ofBinary64 x).ratio.2 ∧
    (Interval.ofBinary64 x).ratio.2 ≤ (Interval.ofBinary64 x).ratio.1 * 10 ^ 400 := by
  have hden := Interval.unitDen_pos x
  have hge := binaryExponent_ge x.unsignedBits
  have hsig := significand_pos hx
  have hvalue := Interval.value_ofBinary64 x
  have hnum : 0 < (Interval.ofBinary64 x).ratio.1 := by
    refine Nat.mul_pos (by omega) ?_
    unfold Interval.ofBinary64
    dsimp only
    split
    · exact Nat.pow_pos (by decide)
    · exact Nat.one_pos
  obtain ⟨n, hn, hdenom⟩ : ∃ n ≤ 1076, (Interval.ofBinary64 x).unitDen = 2 ^ n := by
    unfold Interval.ofBinary64
    rw [magnitude_eq]
    dsimp only
    split
    · exact ⟨0, by decide, rfl⟩
    · exact ⟨_, by omega, rfl⟩
  refine ⟨hden, ?_⟩
  calc (Interval.ofBinary64 x).unitDen = 2 ^ n := hdenom
    _ ≤ 10 ^ 400 := two_pow_le_ten_pow (hn.trans (by decide))
    _ = 1 * 10 ^ 400 := (Nat.one_mul _).symm
    _ ≤ (Interval.ofBinary64 x).ratio.1 * 10 ^ 400 := Nat.mul_le_mul_right _ hnum

/-- **A decimal is found, and it is in the interval of the double.** -/
theorem firstGrid_ofBinary64 (hx : x.unsignedBits ≠ 0) {k : ℤ}
    (hk : k = decimalExponent (Interval.ofBinary64 x).ratio.1 (Interval.ofBinary64 x).ratio.2) :
    ∃ hit, firstGrid (Interval.ofBinary64 x) k 17 1 = some hit ∧
      (Interval.ofBinary64 x).Inside (decimalValue hit.1 hit.2) := by
  have hden := Interval.unitDen_pos x
  obtain ⟨hlow, hhigh⟩ := value_between x
  obtain ⟨hpos, hle⟩ := ratio_le hx
  have hgrid : (onGrid (Interval.ofBinary64 x) k 17).isSome := by
    refine onGrid_isSome hden ?_ ?_ ?_
    · rw [Interval.low_ofBinary64 hx]; exact hlow
    · rw [Interval.high_ofBinary64]; exact hhigh
    · rw [Interval.high_ofBinary64, Interval.low_ofBinary64 hx]
      refine lt_of_le_of_lt ?_ (width_gt x)
      have hvalue := decimalExponent_spec hpos hle
      rw [← hk, show (((Interval.ofBinary64 x).ratio.1 : ℕ) : ℚ) / ((Interval.ofBinary64 x).ratio.2 : ℕ) =
        (Interval.ofBinary64 x).value * (Interval.ofBinary64 x).unit by
          unfold Interval.ratio Interval.unit
          push_cast
          rw [mul_div_assoc]] at hvalue
      calc (10 : ℚ) ^ (k - (17 : ℕ)) = 10 ^ (k - 1) * 10 ^ (-16 : ℤ) := by
            rw [← zpow_add₀ (by norm_num)]
            congr 1
            push_cast
            ring
        _ ≤ _ := mul_le_mul_of_nonneg_right hvalue (by positivity)
  have hsome : (firstGrid (Interval.ofBinary64 x) k 17 1).isSome :=
    firstGrid_isSome hgrid (by decide) (by decide)
  obtain ⟨hit, hhit⟩ := Option.isSome_iff_exists.1 hsome
  exact ⟨hit, hhit, firstGrid_inside hden hhit⟩

/-- The value of `0.d₁d₂… · 10 ^ exponent`. -/
def fractionValue (digits : List Char) (exponent : ℤ) : ℚ :=
  decimalValue (Nat.ofDigitChars 10 digits 0) (exponent - digits.length)

theorem stripZeros_append (cs : List Char) : ∃ n, cs = stripZeros cs ++ List.replicate n '0' := by
  have hsplit := List.takeWhile_append_dropWhile (p := fun c : Char => decide (c = '0')) (l := cs.reverse)
  have hzeros : ∀ c ∈ cs.reverse.takeWhile (fun c : Char => decide (c = '0')), c = '0' := by
    intro c hc
    simpa using List.mem_takeWhile_imp hc
  refine ⟨(cs.reverse.takeWhile fun c : Char => decide (c = '0')).length, ?_⟩
  rw [← List.eq_replicate_of_mem hzeros]
  have hcs := congrArg List.reverse hsplit
  rw [List.reverse_append, List.reverse_reverse] at hcs
  conv_lhs => rw [← hcs]
  unfold stripZeros
  congr 1
  rw [List.eq_replicate_of_mem hzeros, List.reverse_replicate]

/-- Zeros at the end do not change the value. -/
theorem fractionValue_stripZeros (digits : ℕ) (step : ℤ) :
    fractionValue (stripZeros (Nat.toDigits 10 digits)) (step + (Nat.toDigits 10 digits).length) =
      decimalValue digits step := by
  obtain ⟨n, hn⟩ := stripZeros_append (Nat.toDigits 10 digits)
  have hdigits : digits = 10 ^ n * Nat.ofDigitChars 10 (stripZeros (Nat.toDigits 10 digits)) 0 := by
    have h := Nat.ofDigitChars_ten_toDigits (n := digits)
    rw [hn, Nat.ofDigitChars_append, Nat.ofDigitChars_replicate_zero] at h
    exact h.symm
  have hlength := congrArg List.length hn
  rw [List.length_append, List.length_replicate] at hlength
  generalize stripZeros (Nat.toDigits 10 digits) = cs at hdigits hlength ⊢
  unfold fractionValue decimalValue
  rw [hlength]
  conv_rhs => rw [hdigits]
  push_cast
  rw [show step + ((cs.length : ℤ) + n) - cs.length = n + step by ring,
    zpow_add₀ (by norm_num), zpow_natCast]
  ring

/-- **The shortest decimal of a double is in its interval.** -/
theorem shortest_inside (hx : x.unsignedBits ≠ 0) :
    (Interval.ofBinary64 x).Inside (fractionValue (shortest x).1 (shortest x).2) := by
  obtain ⟨⟨digits, step⟩, hhit, hinside⟩ := firstGrid_ofBinary64 hx rfl
  unfold shortest
  simp only [hhit, Option.getD_some]
  rw [fractionValue_stripZeros]
  exact hinside

end QueryClient
