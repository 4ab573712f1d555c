import Mathlib.Data.List.Nodup
import QueryClient.Text.Base64Url
import QueryClient.Text.Utf8

/-!
# Bytes and texts tell each other apart

* `Utf8.decodeChar?_encodeChar`: the bytes of a character are read back as this character, whatever
  follows.
* `Utf8.bytes_injective`: different strings have different bytes.
* `Base64Url.encode_injective`: different bytes have different texts in base 64.
-/

namespace QueryClient

namespace Utf8

/-- A continuation byte carries six bits. -/
theorem tail?_ofNat (n : ℕ) : tail? (UInt8.ofNat (0x80 + n % 64)) = some (n % 64) := by
  have hlt : n % 64 < 64 := Nat.mod_lt _ (by decide)
  have hbyte : (UInt8.ofNat (0x80 + n % 64)).toNat = 0x80 + n % 64 := by
    rw [UInt8.toNat_ofNat']
    omega
  unfold tail?
  simp only [hbyte]
  rw [if_pos (by omega)]
  simp

/-- The code points of characters leave out the surrogates. -/
theorem scalar?_toNat (c : Char) {least : ℕ} (h : least ≤ c.toNat) :
    scalar? least c.toNat = some c := by
  have hvalid : c.toNat < 0xD800 ∨ 0xDFFF < c.toNat ∧ c.toNat < 0x110000 := c.valid
  unfold scalar?
  rw [if_pos (by omega), Char.ofNat_toNat]

theorem toNat_ofNat_of_lt {n : ℕ} (h : n < 256) : (UInt8.ofNat n).toNat = n := by
  rw [UInt8.toNat_ofNat']
  omega

/-- **The bytes of a character are read back as this character,** whatever follows. -/
theorem decodeChar?_encodeChar (c : Char) (rest : List UInt8) :
    decodeChar? (encodeChar c ++ rest) = some (c, rest) := by
  have hvalid : c.toNat < 0xD800 ∨ 0xDFFF < c.toNat ∧ c.toNat < 0x110000 := c.valid
  have hpow : Nat.pow 2 0 = 1 ∧ Nat.pow 2 6 = 64 ∧ Nat.pow 2 12 = 4096 ∧ Nat.pow 2 18 = 262144 := by
    decide
  obtain ⟨h0, h6, h12, h18⟩ := hpow
  unfold encodeChar
  simp only [h0, h6, h12, h18, Nat.div_one]
  -- one case for each number of bytes
  split
  · rename_i hn
    unfold decodeChar?
    simp only [List.singleton_append, toNat_ofNat_of_lt (Nat.lt_trans hn (by decide))]
    rw [if_pos hn, Char.ofNat_toNat]
  split
  · have hb := toNat_ofNat_of_lt (n := 0xC0 + c.toNat / 64) (by omega)
    have hsum : (0xC0 + c.toNat / 64 - 0xC0) * 64 + c.toNat % 64 = c.toNat := by omega
    unfold decodeChar?
    simp only [List.cons_append, List.nil_append, hb]
    rw [if_neg (by omega), if_neg (by omega), if_pos (by omega)]
    simp only [tail?_ofNat, Option.bind_eq_bind, Option.bind_some, hsum]
    rw [scalar?_toNat c (by omega)]
    rfl
  split
  · have hb := toNat_ofNat_of_lt (n := 0xE0 + c.toNat / 4096) (by omega)
    have hsum : ((0xE0 + c.toNat / 4096 - 0xE0) * 64 + c.toNat / 64 % 64) * 64 + c.toNat % 64 =
        c.toNat := by omega
    unfold decodeChar?
    simp only [List.cons_append, List.nil_append, hb]
    rw [if_neg (by omega), if_neg (by omega), if_neg (by omega), if_pos (by omega)]
    simp only [tail?_ofNat, Option.bind_eq_bind, Option.bind_some, hsum]
    rw [scalar?_toNat c (by omega)]
    rfl
  · have hb := toNat_ofNat_of_lt (n := 0xF0 + c.toNat / 262144) (by omega)
    have hsum : (((0xF0 + c.toNat / 262144 - 0xF0) * 64 + c.toNat / 4096 % 64) * 64 +
        c.toNat / 64 % 64) * 64 + c.toNat % 64 = c.toNat := by omega
    unfold decodeChar?
    simp only [List.cons_append, List.nil_append, hb]
    rw [if_neg (by omega), if_neg (by omega), if_neg (by omega), if_neg (by omega),
      if_pos (by omega)]
    simp only [tail?_ofNat, Option.bind_eq_bind, Option.bind_some, hsum]
    rw [scalar?_toNat c (by omega)]
    rfl

theorem encode_injective : ∀ {cs ds : List Char}, encode cs = encode ds → cs = ds := by
  have hnil : ∀ c ds, encode (c :: ds) ≠ [] := by
    intro c ds h
    have hread := decodeChar?_encodeChar c (encode ds)
    rw [show encodeChar c ++ encode ds = [] from h] at hread
    simp [decodeChar?] at hread
  intro cs
  induction cs with
  | nil =>
    intro ds h
    cases ds with
    | nil => rfl
    | cons d ds => exact absurd h.symm (hnil d ds)
  | cons c cs ih =>
    intro ds h
    cases ds with
    | nil => exact absurd h (hnil c cs)
    | cons d ds =>
      -- both are read in the same way
      have hc := decodeChar?_encodeChar c (encode cs)
      rw [show encodeChar c ++ encode cs = encodeChar d ++ encode ds from h,
        decodeChar?_encodeChar] at hc
      obtain ⟨rfl, hrest⟩ := Prod.mk.inj (Option.some.inj hc)
      rw [ih hrest.symm]

/-- **Different strings have different bytes.** -/
theorem bytes_injective {s t : String} (h : bytes s = bytes t) : s = t :=
  String.toList_inj.1 (encode_injective h)

end Utf8

namespace Base64Url

theorem digit_injective {m n : ℕ} (hm : m < 64) (hn : n < 64) (h : digit m = digit n) : m = n := by
  have hlength : alphabet.length = 64 := by decide
  have hnodup : alphabet.Nodup := by decide
  have hget : ∀ {n : ℕ} (hn : n < 64), digit n = alphabet.get ⟨n, hlength ▸ hn⟩ := by
    intro n hn
    simp [digit, hlength, hn]
  rw [hget hm, hget hn] at h
  exact Fin.mk.inj (hnodup.injective_get h)

theorem toNat_injective {a b : UInt8} (h : a.toNat = b.toNat) : a = b := UInt8.toNat_inj.1 h

/-- **Different bytes have different texts.** -/
theorem encode_injective : ∀ {as bs : List UInt8}, encode as = encode bs → as = bs
  | a :: b :: c :: as, a' :: b' :: c' :: bs, h => by
    have ha := a.toNat_lt; have hb := b.toNat_lt; have hc := c.toNat_lt
    have ha' := a'.toNat_lt; have hb' := b'.toNat_lt; have hc' := c'.toNat_lt
    simp only [encode, List.cons.injEq] at h
    obtain ⟨h₁, h₂, h₃, h₄, hrest⟩ := h
    have hpow : Nat.pow 64 3 = 262144 ∧ Nat.pow 64 2 = 4096 := by decide
    simp only [hpow.1, hpow.2] at h₁ h₂
    have h₁ := digit_injective (by omega) (by omega) h₁
    have h₂ := digit_injective (by omega) (by omega) h₂
    have h₃ := digit_injective (by omega) (by omega) h₃
    have h₄ := digit_injective (by omega) (by omega) h₄
    rw [encode_injective hrest, toNat_injective (a := a) (b := a') (by omega),
      toNat_injective (a := b) (b := b') (by omega), toNat_injective (a := c) (b := c') (by omega)]
  | [a, b], [a', b'], h => by
    have ha := a.toNat_lt; have hb := b.toNat_lt
    have ha' := a'.toNat_lt; have hb' := b'.toNat_lt
    simp only [encode, List.cons.injEq, and_true] at h
    obtain ⟨h₁, h₂, h₃⟩ := h
    have hpow : Nat.pow 64 2 = 4096 := by decide
    simp only [hpow] at h₁
    have h₁ := digit_injective (by omega) (by omega) h₁
    have h₂ := digit_injective (by omega) (by omega) h₂
    have h₃ := digit_injective (by omega) (by omega) h₃
    rw [toNat_injective (a := a) (b := a') (by omega), toNat_injective (a := b) (b := b') (by omega)]
  | [a], [a'], h => by
    have ha := a.toNat_lt
    have ha' := a'.toNat_lt
    simp only [encode, List.cons.injEq, and_true] at h
    obtain ⟨h₁, h₂⟩ := h
    have h₁ := digit_injective (by omega) (by omega) h₁
    have h₂ := digit_injective (by omega) (by omega) h₂
    rw [toNat_injective (a := a) (b := a') (by omega)]
  | [], [], _ => rfl
  | _ :: _ :: _ :: _, [_, _], h => by simp [encode] at h
  | _ :: _ :: _ :: _, [_], h => by simp [encode] at h
  | _ :: _ :: _ :: _, [], h => by simp [encode] at h
  | [_, _], _ :: _ :: _ :: _, h => by simp [encode] at h
  | [_, _], [_], h => by simp [encode] at h
  | [_, _], [], h => by simp [encode] at h
  | [_], _ :: _ :: _ :: _, h => by simp [encode] at h
  | [_], [_, _], h => by simp [encode] at h
  | [_], [], h => by simp [encode] at h
  | [], _ :: _ :: _ :: _, h => by simp [encode] at h
  | [], [_, _], h => by simp [encode] at h
  | [], [_], h => by simp [encode] at h

end Base64Url

end QueryClient
