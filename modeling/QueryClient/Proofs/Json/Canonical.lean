import QueryClient.Proofs.Json.Same
import QueryClient.Proofs.Number.Numerals

/-!
# Canonical texts are read in one way

The text of a value ends where the value ends: what is written for one value, with whatever follows,
is not written for another with something else behind it. So different values have different
canonical texts.

* `Json.unescape?_escape`: a character of a string is read back.
* `Json.Stops`: what may follow a number.
* `Json.write_append`: **the text of a value is read in one way.**
* `Json.canonical_eq_iff`: one canonical text, one value.
-/

namespace QueryClient.Json

variable {c d : Char} {cs ds u v : List Char}

/-! ## Strings -/

/-- The value of a digit of base sixteen in lower case. -/
def hexValue (c : Char) : ℕ := if c.toNat < 97 then c.toNat - 48 else c.toNat - 87

theorem hexValue_hexDigit (n : ℕ) : hexValue (hexDigit n) = n % 16 := by
  have hall : ∀ n < 16, hexValue (Nat.digitChar n) = n := by decide
  exact hall _ (Nat.mod_lt _ (by decide))

/-- The first character of a string as it is written, and what follows. -/
def unescape? : List Char → Option (Char × List Char)
  | '\\' :: 'u' :: _ :: _ :: high :: low :: rest =>
    some (Char.ofNat (16 * hexValue high + hexValue low), rest)
  | '\\' :: 'n' :: rest => some ('\n', rest)
  | '\\' :: 'r' :: rest => some ('\r', rest)
  | '\\' :: 't' :: rest => some ('\t', rest)
  | '\\' :: 'b' :: rest => some ('\x08', rest)
  | '\\' :: 'f' :: rest => some ('\x0c', rest)
  | '\\' :: c :: rest => some (c, rest)
  | c :: rest => some (c, rest)
  | [] => none

theorem unescape?_plain (h : c ≠ '\\') : unescape? (c :: u) = some (c, u) := by
  unfold unescape?
  split <;> simp_all

/-- **A character of a string is read back,** whatever follows. -/
theorem unescape?_escape (c : Char) (u : List Char) : unescape? (escape c ++ u) = some (c, u) := by
  unfold escape
  split
  · rfl
  · rfl
  · rfl
  · rfl
  · rfl
  · rfl
  · rfl
  · rename_i hslash _ _ _ _ _
    split
    · rename_i hlt
      have hcode : 16 * hexValue (hexDigit (c.toNat / 16)) + hexValue (hexDigit c.toNat) = c.toNat := by
        rw [hexValue_hexDigit, hexValue_hexDigit]
        omega
      show some (Char.ofNat (16 * hexValue (hexDigit (c.toNat / 16)) + hexValue (hexDigit c.toNat)), u) = _
      rw [hcode, Char.ofNat_toNat]
    · exact unescape?_plain hslash

theorem escape_ne_quote (c : Char) (u v : List Char) : escape c ++ u ≠ '"' :: v := by
  unfold escape
  split
  · simp
  · simp
  · simp
  · simp
  · simp
  · simp
  · simp
  · rename_i hquote _ _ _ _ _ _
    split
    · simp
    · intro h
      exact hquote (List.cons.inj h).1

theorem escape_append (h : escape c ++ u = escape d ++ v) : c = d ∧ u = v := by
  have hread := unescape?_escape c u
  rw [h, unescape?_escape] at hread
  obtain ⟨rfl, rfl⟩ := Prod.mk.inj (Option.some.inj hread)
  exact ⟨rfl, rfl⟩

theorem flatMap_escape_append (h : cs.flatMap escape ++ '"' :: u = ds.flatMap escape ++ '"' :: v) :
    cs = ds ∧ u = v := by
  induction cs generalizing ds with
  | nil =>
    cases ds with
    | nil => exact ⟨rfl, (List.cons.inj h).2⟩
    | cons d ds =>
      rw [List.flatMap_cons, List.append_assoc] at h
      exact absurd h.symm (escape_ne_quote _ _ _)
  | cons c cs ih =>
    cases ds with
    | nil =>
      rw [List.flatMap_cons, List.append_assoc] at h
      exact absurd h (escape_ne_quote _ _ _)
    | cons d ds =>
      rw [List.flatMap_cons, List.flatMap_cons, List.append_assoc, List.append_assoc] at h
      obtain ⟨rfl, hrest⟩ := escape_append h
      obtain ⟨rfl, huv⟩ := ih hrest
      exact ⟨rfl, huv⟩

/-- A string ends at its closing quote. -/
theorem writeString_append {s t : String} (h : writeString s ++ u = writeString t ++ v) :
    s = t ∧ u = v := by
  unfold writeString at h
  simp only [List.cons_append, List.append_assoc, List.nil_append, List.cons.injEq, true_and] at h
  obtain ⟨hst, huv⟩ := flatMap_escape_append h
  exact ⟨String.toList_inj.1 hst, huv⟩

/-! ## Numbers -/

/-- What may follow a number: nothing, or a character that is none of a number's. -/
def Stops (u : List Char) : Prop := ∀ c ∈ u.head?, isNumeric c = false

theorem Stops.cons (h : isNumeric c = false) : Stops (c :: u) := by
  intro d hd
  obtain rfl : c = d := by simpa using hd
  exact h

theorem Stops.nil : Stops [] := by
  intro c hc
  simp at hc

theorem Stops.takeWhile (hu : Stops u) (hcs : ∀ c ∈ cs, isNumeric c = true) :
    (cs ++ u).takeWhile isNumeric = cs := by
  rw [List.takeWhile_append_of_pos hcs]
  cases u with
  | nil => simp
  | cons c u => simp [hu c (by simp)]

/-- A number ends where the characters of numbers end. -/
theorem Stops.append (hu : Stops u) (hv : Stops v) (hcs : ∀ c ∈ cs, isNumeric c = true)
    (hds : ∀ c ∈ ds, isNumeric c = true) (h : cs ++ u = ds ++ v) : cs = ds ∧ u = v := by
  have hread := hu.takeWhile hcs
  rw [h, hv.takeWhile hds] at hread
  subst hread
  exact ⟨rfl, List.append_cancel_left h⟩

/-! ## Values -/

/-- The forms of values, which are told by their first character. -/
inductive Form where
  | null
  | true
  | false
  | number
  | str
  | arr
  | obj
  deriving DecidableEq

/-- The form of a value. -/
def form : Json → Form
  | .null => .null
  | .bool true => .true
  | .bool false => .false
  | .int _ | .float _ => .number
  | .str _ => .str
  | .arr _ => .arr
  | .obj _ => .obj

/-- The form of the values that begin with a character. -/
def formOf? (c : Char) : Option Form :=
  if isNumeric c then some .number
  else if c = 'n' then some .null
  else if c = 't' then some .true
  else if c = 'f' then some .false
  else if c = '"' then some .str
  else if c = '[' then some .arr
  else if c = '\x7b' then some .obj
  else none

theorem head_write (a : Json) : ∃ c rest, a.write = c :: rest ∧ formOf? c = some a.form := by
  have hnumber : ∀ cs : List Char, cs ≠ [] → (∀ c ∈ cs, isNumeric c = true) →
      ∃ c rest, cs = c :: rest ∧ formOf? c = some .number := by
    intro cs hne hcs
    obtain ⟨c, rest, rfl⟩ := List.exists_cons_of_ne_nil hne
    refine ⟨c, rest, rfl, ?_⟩
    unfold formOf?
    rw [if_pos (hcs c List.mem_cons_self)]
  cases a with
  | null => exact ⟨_, _, rfl, rfl⟩
  | bool b => cases b <;> exact ⟨_, _, rfl, rfl⟩
  | int n =>
    refine hnumber _ ?_ (numeric_writeInt n)
    unfold write writeInt
    split
    · simp
    · exact Nat.toDigits_ne_nil
  | float x =>
    refine hnumber _ (fun hnil => ?_) (FloatText.numeric_write x)
    have hmarked := FloatText.marked_write x
    rw [write] at hnil
    rw [hnil] at hmarked
    simp at hmarked
  | str s => exact ⟨_, _, rfl, rfl⟩
  | arr as => exact ⟨_, _, rfl, rfl⟩
  | obj as => exact ⟨_, _, rfl, rfl⟩

theorem form_eq {a b : Json} (h : a.write ++ u = b.write ++ v) : a.form = b.form := by
  obtain ⟨c, cs, hc, hck⟩ := head_write a
  obtain ⟨d, ds, hd, hdk⟩ := head_write b
  rw [hc, hd] at h
  rw [(List.cons.inj h).1, hdk] at hck
  exact (Option.some.inj hck).symm

/-- No value begins with a mark that closes or separates. -/
theorem write_ne_mark (a : Json) (hc : formOf? c = none) : a.write ++ u ≠ c :: v := by
  intro h
  obtain ⟨d, ds, hd, hdk⟩ := head_write a
  rw [hd] at h
  rw [(List.cons.inj h).1, hc] at hdk
  simp at hdk

/-- What follows the first item of a list. -/
def writeMore (as : List Json) : List Char := if as.isEmpty then [] else ',' :: writeItems as

theorem writeItems_cons (a : Json) (as : List Json) :
    writeItems (a :: as) = a.write ++ writeMore as := by
  cases as with
  | nil => simp [writeItems, writeMore]
  | cons b bs => simp [writeItems, writeMore]

/-- What follows the first member of an object. -/
def writeMoreMembers (as : Struct) : List Char := if as.isEmpty then [] else ',' :: writeMembers as

theorem writeMembers_cons (m : String × Json) (as : Struct) :
    writeMembers (m :: as) = writeString m.1 ++ ':' :: (m.2.write ++ writeMoreMembers as) := by
  cases as with
  | nil => simp [writeMembers, writeMoreMembers]
  | cons b bs => simp [writeMembers, writeMoreMembers]

mutual

/-- **The text of a value is read in one way,** if no number goes on behind it. -/
theorem write_append : ∀ (a b : Json) {u v : List Char}, Stops u → Stops v →
    a.write ++ u = b.write ++ v → a = b ∧ u = v
  | .null, b, u, v, hu, hv, h => by
    have hk := form_eq h
    cases b with
    | null => exact ⟨rfl, List.append_cancel_left h⟩
    | bool y => cases y <;> simp [form] at hk
    | _ => simp [form] at hk
  | .bool x, b, u, v, hu, hv, h => by
    have hk := form_eq h
    cases b with
    | bool y =>
      obtain rfl : x = y := by cases x <;> cases y <;> simp_all [form]
      exact ⟨rfl, List.append_cancel_left h⟩
    | _ => cases x <;> simp [form] at hk
  | .int m, b, u, v, hu, hv, h => by
    have hk := form_eq h
    cases b with
    | int n =>
      obtain ⟨hmn, huv⟩ := hu.append hv (numeric_writeInt m) (numeric_writeInt n) h
      exact ⟨congrArg _ (writeInt_injective hmn), huv⟩
    | float x =>
      obtain ⟨hmx, -⟩ := hu.append hv (numeric_writeInt m) (FloatText.numeric_write x) h
      exact absurd hmx (writeInt_ne_write m x)
    | bool y => cases y <;> simp [form] at hk
    | _ => simp [form] at hk
  | .float x, b, u, v, hu, hv, h => by
    have hk := form_eq h
    cases b with
    | float y =>
      obtain ⟨hxy, huv⟩ := hu.append hv (FloatText.numeric_write x) (FloatText.numeric_write y) h
      exact ⟨congrArg _ (FloatText.write_injective hxy), huv⟩
    | int n =>
      obtain ⟨hxn, -⟩ := hu.append hv (FloatText.numeric_write x) (numeric_writeInt n) h
      exact absurd hxn.symm (writeInt_ne_write n x)
    | bool y => cases y <;> simp [form] at hk
    | _ => simp [form] at hk
  | .str s, b, u, v, hu, hv, h => by
    have hk := form_eq h
    cases b with
    | str t =>
      obtain ⟨rfl, huv⟩ := writeString_append h
      exact ⟨rfl, huv⟩
    | bool y => cases y <;> simp [form] at hk
    | _ => simp [form] at hk
  | .arr as, b, u, v, hu, hv, h => by
    have hk := form_eq h
    cases b with
    | arr bs =>
      simp only [write, List.cons_append, List.append_assoc, List.nil_append, List.cons.injEq,
        true_and] at h
      obtain ⟨rfl, huv⟩ := writeItems_append as bs h
      exact ⟨rfl, huv⟩
    | bool y => cases y <;> simp [form] at hk
    | _ => simp [form] at hk
  | .obj as, b, u, v, hu, hv, h => by
    have hk := form_eq h
    cases b with
    | obj bs =>
      simp only [write, List.cons_append, List.append_assoc, List.nil_append, List.cons.injEq,
        true_and] at h
      obtain ⟨rfl, huv⟩ := writeMembers_append as bs h
      exact ⟨rfl, huv⟩
    | bool y => cases y <;> simp [form] at hk
    | _ => simp [form] at hk

theorem writeItems_append : ∀ (as bs : List Json) {u v : List Char},
    writeItems as ++ ']' :: u = writeItems bs ++ ']' :: v → as = bs ∧ u = v
  | [], bs, u, v, h => by
    cases bs with
    | nil => exact ⟨rfl, (List.cons.inj h).2⟩
    | cons b bs =>
      rw [writeItems_cons, List.append_assoc] at h
      exact absurd h.symm (write_ne_mark b rfl)
  | a :: as, bs, u, v, h => by
    cases bs with
    | nil =>
      rw [writeItems_cons, List.append_assoc] at h
      exact absurd h (write_ne_mark a rfl)
    | cons b bs =>
      rw [writeItems_cons, writeItems_cons, List.append_assoc, List.append_assoc] at h
      have hstops : ∀ (as : List Json) (u : List Char), Stops (writeMore as ++ ']' :: u) := by
        intro as u
        unfold writeMore
        split <;> exact .cons rfl
      obtain ⟨rfl, hmore⟩ := write_append a b (hstops as u) (hstops bs v) h
      cases as with
      | nil =>
        cases bs with
        | nil => exact ⟨rfl, (List.cons.inj hmore).2⟩
        | cons b bs => simp [writeMore] at hmore
      | cons a as =>
        cases bs with
        | nil => simp [writeMore] at hmore
        | cons b bs =>
          obtain ⟨hrest, huv⟩ := writeItems_append (a :: as) (b :: bs) (List.cons.inj hmore).2
          exact ⟨congrArg _ hrest, huv⟩

theorem writeMembers_append : ∀ (as bs : Struct) {u v : List Char},
    writeMembers as ++ '\x7d' :: u = writeMembers bs ++ '\x7d' :: v → as = bs ∧ u = v
  | [], bs, u, v, h => by
    cases bs with
    | nil => exact ⟨rfl, (List.cons.inj h).2⟩
    | cons b bs =>
      rw [writeMembers_cons] at h
      simp [writeMembers, writeString] at h
  | (name, a) :: as, bs, u, v, h => by
    cases bs with
    | nil =>
      rw [writeMembers_cons] at h
      simp [writeMembers, writeString] at h
    | cons b bs =>
      obtain ⟨other, b⟩ := b
      rw [writeMembers_cons, writeMembers_cons] at h
      simp only [List.append_assoc, List.cons_append] at h
      obtain ⟨rfl, hvalue⟩ := writeString_append h
      have hstops : ∀ (as : Struct) (u : List Char), Stops (writeMoreMembers as ++ '\x7d' :: u) := by
        intro as u
        unfold writeMoreMembers
        split <;> exact .cons rfl
      obtain ⟨rfl, hmore⟩ := write_append a b (hstops as u) (hstops bs v) (List.cons.inj hvalue).2
      cases as with
      | nil =>
        cases bs with
        | nil => exact ⟨rfl, (List.cons.inj hmore).2⟩
        | cons b bs => simp [writeMoreMembers] at hmore
      | cons a as =>
        cases bs with
        | nil => simp [writeMoreMembers] at hmore
        | cons b bs =>
          obtain ⟨hrest, huv⟩ := writeMembers_append (a :: as) (b :: bs) (List.cons.inj hmore).2
          exact ⟨congrArg _ hrest, huv⟩

end

/-- **One canonical text, one value.** -/
theorem canonical_eq_iff {a b : Json} : a.canonical = b.canonical ↔ Same a b := by
  rw [same_iff]
  constructor
  · intro h
    have hwrite : a.normalize.write ++ [] = b.normalize.write ++ [] := by
      rw [List.append_nil, List.append_nil]
      exact String.ofList_injective h
    exact (write_append _ _ .nil .nil hwrite).1
  · intro h
    unfold canonical
    rw [h]

end QueryClient.Json
