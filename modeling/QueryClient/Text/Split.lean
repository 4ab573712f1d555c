/-!
# Splitting text at a separator

* `splitOnce? sep cs`: the text before and after the first occurrence of `sep`.
* `splitOnce?_eq_some`: the two parts with the separator between them are the text.
* `joinWith sep parts`: the parts with `sep` between neighbours.
-/

namespace QueryClient.Text

/-- What follows `sep` when the text starts with it. -/
def after? : List Char → List Char → Option (List Char)
  | [], cs => some cs
  | _ :: _, [] => none
  | s :: sep, c :: cs => if s = c then after? sep cs else none

/-- The text before and after the first occurrence of `sep`. -/
def splitOnce? (sep : List Char) : List Char → Option (List Char × List Char)
  | [] => (after? sep []).map fun rest => ([], rest)
  | c :: cs =>
    match after? sep (c :: cs) with
    | some rest => some ([], rest)
    | none => (splitOnce? sep cs).map fun parts => (c :: parts.1, parts.2)

/-- The parts with `sep` between neighbours. -/
def joinWith (sep : String) : List String → String
  | [] => ""
  | [part] => part
  | part :: rest => part ++ sep ++ joinWith sep rest

theorem eq_append_of_after? {sep cs rest : List Char} (h : after? sep cs = some rest) :
    cs = sep ++ rest := by
  induction sep generalizing cs with
  | nil => simpa [after?] using h
  | cons s sep ih =>
    cases cs with
    | nil => simp [after?] at h
    | cons c cs =>
      simp only [after?] at h
      split at h
      · next hsc => subst hsc; simp [ih h]
      · simp at h

/-- The two parts with the separator between them are the text. -/
theorem splitOnce?_eq_some {sep cs before rest : List Char}
    (h : splitOnce? sep cs = some (before, rest)) : cs = before ++ sep ++ rest := by
  induction cs generalizing before with
  | nil =>
    simp only [splitOnce?, Option.map_eq_some_iff] at h
    obtain ⟨r, hr, heq⟩ := h
    have := eq_append_of_after? hr
    simp only [Prod.mk.injEq] at heq
    obtain ⟨rfl, rfl⟩ := heq
    simpa using this
  | cons c cs ih =>
    simp only [splitOnce?] at h
    split at h
    · next r hr =>
      simp only [Option.some.injEq, Prod.mk.injEq] at h
      obtain ⟨rfl, rfl⟩ := h
      simpa using eq_append_of_after? hr
    · obtain ⟨⟨b, r⟩, hp, heq⟩ := Option.map_eq_some_iff.1 h
      simp only [Prod.mk.injEq] at heq
      obtain ⟨rfl, rfl⟩ := heq
      simp [ih hp]

end QueryClient.Text
