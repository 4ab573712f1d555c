import QueryClient.Json.Writer
import QueryClient.Proofs.Number.Rounding

/-!
# Numerals tell numbers apart

The text of a number is read by its digits, its point and its power of ten. The text of a double is
a decimal in its interval, so that different doubles have different texts; and the text of a double
has a point or a power of ten, which that of an integer has not.

* `numeral`: the value of a text.
* `FloatText.numeral_magnitude`: the text of a double is read as a decimal in its interval.
* `FloatText.write_injective`: **different doubles have different texts.**
* `Json.writeInt_injective`, `Json.writeInt_ne_write`: so have different integers, and no integer
  has the text of a double.
-/

namespace QueryClient

/-- The value of a power of ten that is written with its sign. -/
def signedPower : List Char → ℤ
  | '-' :: ds => -(Nat.ofDigitChars 10 ds 0)
  | '+' :: ds => Nat.ofDigitChars 10 ds 0
  | ds => Nat.ofDigitChars 10 ds 0

/-- The text up to a mark. -/
def before (mark : Char) (cs : List Char) : List Char := cs.takeWhile fun c => c ≠ mark

/-- The text after a mark. -/
def after (mark : Char) (cs : List Char) : List Char := (cs.dropWhile fun c => c ≠ mark).drop 1

/-- **The value of a text:** digits with a point, and a power of ten after an `e`. -/
def numeral (cs : List Char) : ℚ :=
  decimalValue
    (Nat.ofDigitChars 10 (before '.' (before 'e' cs) ++ after '.' (before 'e' cs)) 0)
    (signedPower (after 'e' cs) - (after '.' (before 'e' cs)).length)

variable {mark : Char} {xs ys cs : List Char} {x y : Binary64} {k : ℤ}

theorem before_mark_append (h : mark ∉ xs) : before mark (xs ++ mark :: ys) = xs := by
  unfold before
  rw [List.takeWhile_append_of_pos fun c hc => by
    simp only [ne_eq, decide_not, Bool.not_eq_true', decide_eq_false_iff_not]
    rintro rfl
    exact h hc]
  simp

theorem after_mark_append (h : mark ∉ xs) : after mark (xs ++ mark :: ys) = ys := by
  unfold after
  rw [List.dropWhile_append_of_pos fun c hc => by
    simp only [ne_eq, decide_not, Bool.not_eq_true', decide_eq_false_iff_not]
    rintro rfl
    exact h hc]
  simp

theorem before_of_notMem (h : mark ∉ xs) : before mark xs = xs := by
  unfold before
  refine List.takeWhile_eq_self_iff.2 fun c hc => ?_
  simp only [ne_eq, decide_not, Bool.not_eq_true', decide_eq_false_iff_not]
  rintro rfl
  exact h hc

theorem after_of_notMem (h : mark ∉ xs) : after mark xs = [] := by
  unfold after
  have : xs.dropWhile (fun c => decide (c ≠ mark)) = [] := by
    refine List.dropWhile_eq_nil_iff.2 fun c hc => ?_
    simp only [ne_eq, decide_not, Bool.not_eq_true', decide_eq_false_iff_not]
    rintro rfl
    exact h hc
  rw [this]
  rfl

/-! ## Reading the two layouts -/

/-- All characters are digits. -/
def Digits (cs : List Char) : Prop := ∀ c ∈ cs, c.isDigit = true

namespace Digits

theorem notMem (h : Digits cs) {c : Char} (hc : c.isDigit = false) : c ∉ cs := by
  intro hmem
  rw [h c hmem] at hc
  simp at hc

theorem append (hx : Digits xs) (hy : Digits ys) : Digits (xs ++ ys) := by
  intro c hc
  exact (List.mem_append.1 hc).elim (hx c) (hy c)

theorem take (h : Digits cs) (n : ℕ) : Digits (cs.take n) := fun c hc => h c (List.mem_of_mem_take hc)

theorem drop (h : Digits cs) (n : ℕ) : Digits (cs.drop n) := fun c hc => h c (List.mem_of_mem_drop hc)

theorem zeros (n : ℕ) : Digits (List.replicate n '0') := by
  intro c hc
  rw [List.eq_of_mem_replicate hc]
  rfl

theorem toDigits (n : ℕ) : Digits (Nat.toDigits 10 n) := fun c hc =>
  Nat.isDigit_of_mem_toDigits (by decide) (Nat.le_refl _) hc

end Digits

theorem stripZeros_subset (cs : List Char) : stripZeros cs ⊆ cs := by
  intro c hc
  obtain ⟨n, hn⟩ := stripZeros_append cs
  rw [hn]
  exact List.mem_append_left _ hc

theorem digits_shortest (x : Binary64) : Digits (shortest x).1 := fun c hc =>
  Digits.toDigits _ c (stripZeros_subset _ hc)

/-- A text with a point and no power of ten. -/
theorem numeral_point (hx : Digits xs) (hy : Digits ys) :
    numeral (xs ++ '.' :: ys) = decimalValue (Nat.ofDigitChars 10 (xs ++ ys) 0) (-ys.length) := by
  have he : 'e' ∉ xs ++ '.' :: ys := by
    simp [hx.notMem (c := 'e') rfl, hy.notMem (c := 'e') rfl]
  unfold numeral
  rw [before_of_notMem he, after_of_notMem he, before_mark_append (hx.notMem rfl),
    after_mark_append (hx.notMem rfl)]
  simp [signedPower, Nat.ofDigitChars_nil]

theorem FloatText.numeral_positional (hcs : Digits cs) (k : ℤ) :
    numeral (positional cs k) = fractionValue cs k := by
  unfold positional fractionValue
  split
  · -- all digits come after the point
    obtain ⟨n, hn⟩ := Int.eq_ofNat_of_zero_le (show 0 ≤ -k by omega)
    have hzero : Digits ['0'] := Digits.zeros 1
    have h := numeral_point hzero ((Digits.zeros n).append hcs)
    rw [hn, Int.toNat_natCast]
    refine h.trans ?_
    rw [Nat.ofDigitChars_append, Nat.ofDigitChars_append, Nat.ofDigitChars_replicate_zero]
    unfold decimalValue
    congr 2
    rw [List.length_append, List.length_replicate]
    push_cast
    omega
  · obtain ⟨n, rfl⟩ := Int.eq_ofNat_of_zero_le (show 0 ≤ k by omega)
    have hwhole : Digits (cs.take n ++ List.replicate (n - cs.length) '0') :=
      (hcs.take _).append (Digits.zeros _)
    simp only [Int.toNat_natCast]
    by_cases hlen : cs.length ≤ n
    · -- no digit comes after the point
      rw [List.drop_eq_nil_of_le hlen, List.isEmpty_nil, if_pos rfl]
      refine (numeral_point hwhole (Digits.zeros 1)).trans ?_
      rw [List.take_of_length_le hlen, Nat.ofDigitChars_append, Nat.ofDigitChars_append,
        Nat.ofDigitChars_replicate_zero, Nat.ofDigitChars_replicate_zero]
      unfold decimalValue
      rw [show ((n : ℤ) - cs.length) = ((n - cs.length : ℕ) : ℤ) by omega, zpow_natCast,
        List.length_replicate, zpow_neg]
      push_cast
      norm_num
      ring
    · have hne : (cs.drop n).isEmpty = false := by
        rw [List.isEmpty_eq_false_iff, Ne, List.drop_eq_nil_iff]
        omega
      rw [if_neg (by simp [hne]), numeral_point hwhole (hcs.drop n),
        show n - cs.length = 0 by omega, List.replicate_zero, List.append_nil, List.take_append_drop,
        List.length_drop]
      congr 1
      omega

theorem signedPower_digits (h : Digits cs) : signedPower cs = Nat.ofDigitChars 10 cs 0 := by
  unfold signedPower
  split
  · exact absurd List.mem_cons_self (h.notMem (c := '-') rfl)
  · exact absurd List.mem_cons_self (h.notMem (c := '+') rfl)
  · rfl

theorem signedPower_write (power : ℤ) : signedPower
    ((if power < 0 then ['-'] else if FloatText.json.plus then ['+'] else []) ++
      Nat.toDigits 10 power.natAbs) = power := by
  split
  · show -((Nat.ofDigitChars 10 (Nat.toDigits 10 power.natAbs) 0 : ℕ) : ℤ) = power
    rw [Nat.ofDigitChars_ten_toDigits]
    omega
  · show ((Nat.ofDigitChars 10 (Nat.toDigits 10 power.natAbs) 0 : ℕ) : ℤ) = power
    rw [Nat.ofDigitChars_ten_toDigits]
    omega

theorem FloatText.numeral_scientific (hcs : Digits cs) (hne : cs ≠ []) (k : ℤ) :
    numeral (json.scientific cs k) = fractionValue cs k := by
  obtain ⟨c, ds, rfl⟩ := List.exists_cons_of_ne_nil hne
  have hc : Digits [c] := fun d hd => hcs d (by rw [List.mem_singleton.1 hd]; exact List.mem_cons_self)
  have hds : Digits ds := fun d hd => hcs d (List.mem_cons_of_mem _ hd)
  -- one digit before the point, the others after it
  have hmantissa : ∃ fraction : List Char, before '.' (c :: fraction) = [c] ∧
      after '.' (c :: fraction) = ds ∧ 'e' ∉ c :: fraction ∧
      json.scientific (c :: ds) k = (c :: fraction) ++ 'e' ::
        ((if k - 1 < 0 then ['-'] else if json.plus then ['+'] else []) ++
          Nat.toDigits 10 (k - 1).natAbs) := by
    cases ds with
    | nil =>
      exact ⟨[], before_of_notMem (hc.notMem rfl), after_of_notMem (hc.notMem rfl), hc.notMem rfl, rfl⟩
    | cons d ds =>
      refine ⟨'.' :: d :: ds, before_mark_append (hc.notMem rfl), after_mark_append (hc.notMem rfl), ?_, rfl⟩
      have h1 := hc.notMem (c := 'e') rfl
      have h2 := hds.notMem (c := 'e') rfl
      simp_all
  obtain ⟨fraction, hbefore, hafter, he, htext⟩ := hmantissa
  unfold numeral
  rw [htext, before_mark_append he, after_mark_append he, hbefore, hafter, signedPower_write]
  unfold fractionValue
  rw [List.singleton_append, List.length_cons]
  congr 1
  push_cast
  ring

/-! ## Doubles -/

/-- The text of a double without its sign. -/
def FloatText.magnitude (x : Binary64) : List Char :=
  if x.isZero then ['0', '.', '0']
  else if json.positionalFrom < (shortest x).2 ∧ (shortest x).2 ≤ json.positionalTo then
    positional (shortest x).1 (shortest x).2
  else json.scientific (shortest x).1 (shortest x).2

namespace FloatText

theorem write_eq (x : Binary64) :
    json.write x = if x.isNegative then '-' :: magnitude x else magnitude x := rfl

theorem isZero_iff (x : Binary64) : x.isZero ↔ x.unsignedBits = 0 := by
  unfold Binary64.isZero
  exact beq_iff_eq

theorem fractionValue_pos (hx : x.unsignedBits ≠ 0) :
    0 < fractionValue (shortest x).1 (shortest x).2 := by
  have h := (shortest_inside hx).bounds.1
  rw [Interval.low_ofBinary64 hx] at h
  have hlow : 0 < Binary64.lower x.unsignedBits := by
    have hsig := Binary64.significand_pos hx
    have hsig' : (1 : ℚ) ≤ Binary64.significand x.unsignedBits := by exact_mod_cast hsig
    unfold Binary64.lower
    refine mul_pos ?_ (by positivity)
    split <;> linarith
  exact hlow.trans_le h

theorem shortest_ne_nil (hx : x.unsignedBits ≠ 0) : (shortest x).1 ≠ [] := by
  intro hnil
  have h := fractionValue_pos hx
  rw [hnil] at h
  simp [fractionValue, decimalValue, Nat.ofDigitChars_nil] at h

/-- **The text of a double is read as a decimal in its interval.** -/
theorem numeral_magnitude (hx : x.unsignedBits ≠ 0) :
    numeral (magnitude x) = fractionValue (shortest x).1 (shortest x).2 := by
  unfold magnitude
  rw [if_neg (by rwa [isZero_iff])]
  split
  · exact numeral_positional (digits_shortest x) _
  · exact numeral_scientific (digits_shortest x) (shortest_ne_nil hx) _

theorem numeral_zero (hx : x.unsignedBits = 0) : numeral (magnitude x) = 0 := by
  unfold magnitude
  rw [if_pos ((isZero_iff x).2 hx)]
  have hzero : Digits ['0'] := Digits.zeros 1
  have h := numeral_point hzero hzero
  refine h.trans ?_
  simp [decimalValue, Nat.ofDigitChars_cons, Nat.ofDigitChars_nil]

/-- Doubles of one text have the same bits, but for the sign. -/
theorem unsignedBits_eq (h : magnitude x = magnitude y) : x.unsignedBits = y.unsignedBits := by
  have hvalue := congrArg numeral h
  by_cases hx : x.unsignedBits = 0
  · by_cases hy : y.unsignedBits = 0
    · rw [hx, hy]
    · rw [numeral_zero hx, numeral_magnitude hy] at hvalue
      exact absurd hvalue (fractionValue_pos hy).ne
  · by_cases hy : y.unsignedBits = 0
    · rw [numeral_zero hy, numeral_magnitude hx] at hvalue
      exact absurd hvalue (fractionValue_pos hx).ne'
    · rw [numeral_magnitude hx, numeral_magnitude hy] at hvalue
      have hyin := shortest_inside hy
      rw [← hvalue] at hyin
      exact eq_of_inside hx hy (shortest_inside hx) hyin

end FloatText

/-! ## The characters of a number -/

/-- A digit, a sign, a point or an `e`. -/
def isNumeric (c : Char) : Bool := c.isDigit || c == '-' || c == '+' || c == '.' || c == 'e'

theorem Digits.numeric (h : Digits cs) : ∀ c ∈ cs, isNumeric c = true := by
  intro c hc
  simp [isNumeric, h c hc]

namespace FloatText

theorem numeric_magnitude (x : Binary64) : ∀ c ∈ magnitude x, isNumeric c = true := by
  have hcs := digits_shortest x
  generalize hs : (shortest x).1 = cs at hcs
  intro c hc
  unfold magnitude at hc
  rw [hs] at hc
  split at hc
  · simp only [List.mem_cons, List.not_mem_nil, or_false] at hc
    rcases hc with rfl | rfl | rfl <;> rfl
  split at hc
  · unfold positional at hc
    split at hc
    · simp only [List.mem_cons, List.mem_append] at hc
      rcases hc with rfl | rfl | hc | hc
      · rfl
      · rfl
      · exact (Digits.zeros _).numeric c hc
      · exact hcs.numeric c hc
    · simp only [List.mem_append, List.mem_cons] at hc
      rcases hc with (hc | hc) | rfl | hc
      · exact (hcs.take _).numeric c hc
      · exact (Digits.zeros _).numeric c hc
      · rfl
      · split at hc
        · exact (Digits.zeros 1).numeric c hc
        · exact (hcs.drop _).numeric c hc
  · unfold scientific at hc
    simp only [List.mem_append, List.mem_cons] at hc
    rcases hc with (hc | hc) | rfl | hc | hc
    · exact (hcs.take 1).numeric c hc
    · split at hc
      · simp at hc
      · rcases List.mem_cons.1 hc with rfl | hc
        · rfl
        · exact (hcs.drop 1).numeric c hc
    · rfl
    · split at hc
      · obtain rfl := List.mem_singleton.1 hc
        rfl
      · obtain ⟨-, rfl⟩ : json.plus = true ∧ c = '+' := by simpa using hc
        rfl
    · exact (Digits.toDigits _).numeric c hc

/-- The text has a point or a power of ten. -/
theorem marked_magnitude (x : Binary64) : '.' ∈ magnitude x ∨ 'e' ∈ magnitude x := by
  unfold magnitude
  split
  · exact .inl (by decide)
  split
  · refine .inl ?_
    unfold positional
    split
    · simp
    · simp
  · refine .inr ?_
    unfold scientific
    simp [json]

/-- The text begins with a digit. -/
theorem digit_magnitude (x : Binary64) : ∃ c rest, magnitude x = c :: rest ∧ c.isDigit = true := by
  unfold magnitude
  split
  · exact ⟨_, _, rfl, rfl⟩
  rename_i hx
  have hcs := digits_shortest x
  have hne := shortest_ne_nil (x := x) fun hzero => hx ((isZero_iff x).2 hzero)
  obtain ⟨c, cs, hc⟩ := List.exists_cons_of_ne_nil hne
  rw [hc] at hcs ⊢
  have hdigit := hcs c List.mem_cons_self
  split
  · unfold positional
    split
    · exact ⟨_, _, rfl, rfl⟩
    · obtain ⟨n, hn⟩ : ∃ n, (shortest x).2.toNat = n + 1 := ⟨(shortest x).2.toNat - 1, by omega⟩
      rw [hn]
      exact ⟨_, _, rfl, hdigit⟩
  · exact ⟨_, _, rfl, hdigit⟩

theorem numeric_write (x : Binary64) : ∀ c ∈ json.write x, isNumeric c = true := by
  intro c hc
  rw [write_eq] at hc
  split at hc
  · rcases List.mem_cons.1 hc with rfl | hc
    · rfl
    · exact numeric_magnitude x c hc
  · exact numeric_magnitude x c hc

theorem marked_write (x : Binary64) : '.' ∈ json.write x ∨ 'e' ∈ json.write x := by
  rw [write_eq]
  split
  · exact (marked_magnitude x).imp (List.mem_cons_of_mem _) (List.mem_cons_of_mem _)
  · exact marked_magnitude x

/-- The bits of a double are its sign and the others. -/
theorem eq_of_parts (hsign : x.isNegative = y.isNegative) (hbits : x.unsignedBits = y.unsignedBits) :
    x = y := by
  have hx := x.bits.toNat_lt
  have hy := y.bits.toNat_lt
  unfold Binary64.isNegative at hsign
  unfold Binary64.unsignedBits at hbits
  simp only [show Nat.pow 2 63 = 2 ^ 63 from rfl, decide_eq_decide] at hsign hbits
  have hnat : x.bits.toNat = y.bits.toNat := by omega
  obtain ⟨bits⟩ := x
  obtain ⟨bits'⟩ := y
  exact congrArg Binary64.mk (UInt64.toNat_inj.1 hnat)

/-- **Different doubles have different texts,** the two zeros included. -/
theorem write_injective (h : json.write x = json.write y) : x = y := by
  obtain ⟨c, cs, hc, hcd⟩ := digit_magnitude x
  obtain ⟨d, ds, hd, hdd⟩ := digit_magnitude y
  -- a sign is no digit
  have hsign : ∀ {c : Char} {cs ds : List Char}, c.isDigit = true → '-' :: ds ≠ c :: cs := by
    intro c cs ds hc heq
    rw [← (List.cons.inj heq).1] at hc
    simp at hc
  rw [write_eq, write_eq] at h
  by_cases hx : x.isNegative
  · by_cases hy : y.isNegative
    · rw [if_pos hx, if_pos hy] at h
      exact eq_of_parts (hx.trans hy.symm) (unsignedBits_eq (List.cons.inj h).2)
    · rw [if_pos hx, if_neg hy, hd] at h
      exact absurd h (hsign hdd)
  · by_cases hy : y.isNegative
    · rw [if_neg hx, if_pos hy, hc] at h
      exact absurd h.symm (hsign hcd)
    · rw [if_neg hx, if_neg hy] at h
      refine eq_of_parts ?_ (unsignedBits_eq h)
      rw [Bool.not_eq_true] at hx hy
      rw [hx, hy]

end FloatText

/-! ## Integers -/

namespace Json

theorem numeric_writeInt (n : ℤ) : ∀ c ∈ writeInt n, isNumeric c = true := by
  intro c hc
  unfold writeInt at hc
  split at hc
  · rcases List.mem_cons.1 hc with rfl | hc
    · rfl
    · exact (Digits.toDigits _).numeric c hc
  · exact (Digits.toDigits _).numeric c hc

/-- **No integer has the text of a double.** -/
theorem writeInt_ne_write (n : ℤ) (x : Binary64) : writeInt n ≠ FloatText.json.write x := by
  intro h
  have hmarked := FloatText.marked_write x
  rw [← h] at hmarked
  have hdigits := Digits.toDigits n.natAbs
  have hpoint := hdigits.notMem (c := '.') rfl
  have he := hdigits.notMem (c := 'e') rfl
  unfold writeInt at hmarked
  split at hmarked
  · simp [hpoint, he] at hmarked
  · simp [hpoint, he] at hmarked

/-- **Different integers have different texts.** -/
theorem writeInt_injective {m n : ℤ} (h : writeInt m = writeInt n) : m = n := by
  have hvalue : ∀ n : ℤ, signedPower (writeInt n) = n := by
    intro n
    unfold writeInt
    split
    · show -((Nat.ofDigitChars 10 (Nat.toDigits 10 n.natAbs) 0 : ℕ) : ℤ) = n
      rw [Nat.ofDigitChars_ten_toDigits]
      omega
    · rw [signedPower_digits (Digits.toDigits _), Nat.ofDigitChars_ten_toDigits]
      omega
  rw [← hvalue m, h, hvalue n]

end Json

end QueryClient
