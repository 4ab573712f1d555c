import QueryClient.Config.EmulatorHost
import QueryClient.Proofs.Number.Numerals

/-!
# Declarations of the emulator's host

A declaration is a protocol, which may be missing, a host without a colon, and a port, which may be
missing too and may be written with a plus sign or with zeros in front. It is read back from its parts,
although the separators are only looked for from the left: neither the host nor the port can hold one.

* `Text.splitOnce?_append`, `Text.splitOnce?_eq_none_iff`: where the first separator is.
* `parsePort?_eq_some_iff`: the spellings of a port.
* `Declares`: **the spellings of settings.**
* `parseEmulatorHost_eq_ok_iff`: a declaration is accepted if and only if it spells settings.
* `emulator_declarations`: reading declarations and writing addresses are inverse to each other.
-/

namespace QueryClient

/-! ## The first separator -/

namespace Text

variable {s : Char} {sep cs before rest : List Char}

/-- A separator does not begin where its first character does not stand. -/
theorem splitOnce?_append (h : s ∉ before) (sep cs : List Char) :
    splitOnce? (s :: sep) (before ++ cs) =
      (splitOnce? (s :: sep) cs).map fun parts => (before ++ parts.1, parts.2) := by
  induction before with
  | nil => simp
  | cons c before ih =>
    obtain ⟨hc, hbefore⟩ : s ≠ c ∧ s ∉ before := by simpa using h
    have hafter : after? (s :: sep) (c :: (before ++ cs)) = none := by simp [after?, hc]
    rw [List.cons_append, splitOnce?, hafter]
    simp only [ih hbefore, Option.map_map]
    rfl

/-- A text that starts with the separator is split there. -/
theorem after?_append (sep rest : List Char) : after? sep (sep ++ rest) = some rest := by
  induction sep with
  | nil => rfl
  | cons c sep ih => simp [after?, ih]

/-- **The first separator** is the one before which its first character does not stand. -/
theorem splitOnce?_append_sep (h : s ∉ before) (sep rest : List Char) :
    splitOnce? (s :: sep) (before ++ (s :: sep ++ rest)) = some (before, rest) := by
  have hhere : splitOnce? (s :: sep) (s :: sep ++ rest) = some ([], rest) := by
    rw [List.cons_append, splitOnce?, ← List.cons_append, after?_append]
  rw [splitOnce?_append h, hhere]
  simp

/-- A text is not split where the first character of the separator does not stand. -/
theorem splitOnce?_eq_none (h : s ∉ cs) (sep : List Char) : splitOnce? (s :: sep) cs = none := by
  have := splitOnce?_append h sep []
  rwa [List.append_nil, show splitOnce? (s :: sep) [] = none from rfl, Option.map_none] at this

/-- What stands before a separator of one character is free of it. -/
theorem notMem_of_splitOnce? (h : splitOnce? [s] cs = some (before, rest)) : s ∉ before := by
  induction cs generalizing before with
  | nil => simp [splitOnce?, after?] at h
  | cons c cs ih =>
    by_cases hc : s = c
    · obtain rfl := hc
      simp only [splitOnce?, after?, if_true, Option.some.injEq, Prod.mk.injEq] at h
      simp [← h.1]
    · simp only [splitOnce?, after?, if_neg hc, Option.map_eq_some_iff] at h
      obtain ⟨parts, hparts, heq⟩ := h
      obtain ⟨rfl, rfl⟩ := Prod.mk.inj heq
      simpa using ⟨hc, ih hparts⟩

/-- A text that is not split at a character does not have it. -/
theorem splitOnce?_eq_none_iff : splitOnce? [s] cs = none ↔ s ∉ cs := by
  constructor
  · intro h hmem
    obtain ⟨before, rest, rfl, hbefore⟩ := List.eq_append_cons_of_mem hmem
    have hsplit := splitOnce?_append_sep hbefore [] rest
    rw [List.cons_append, List.nil_append, h] at hsplit
    simp at hsplit
  · intro h
    exact splitOnce?_eq_none h []

end Text

/-! ## Ports -/

/-- Digits stand for their number, and nothing else does. -/
theorem digitsValue?_eq_some_iff {n m : ℕ} {cs : List Char} :
    digitsValue? n cs = some m ↔ Digits cs ∧ Nat.ofDigitChars 10 cs n = m := by
  induction cs generalizing n with
  | nil => simp [digitsValue?, Digits, Nat.ofDigitChars]
  | cons c cs ih =>
    unfold digitsValue?
    by_cases hc : c.isDigit
    · rw [if_pos hc, ih, Nat.ofDigitChars_cons]
      simp [Digits, hc]
    · rw [if_neg hc]
      simp [Digits, hc]

/-- **The spellings of a port:** decimal digits of its number, which may have a plus sign, and zeros, in
front. -/
inductive SpellsPort (port : UInt16) : List Char → Prop
  | digits {cs : List Char} (hne : cs ≠ []) (hcs : Digits cs)
      (hvalue : Nat.ofDigitChars 10 cs 0 = port.toNat) : SpellsPort port cs
  | plus {cs : List Char} (hne : cs ≠ []) (hcs : Digits cs)
      (hvalue : Nat.ofDigitChars 10 cs 0 = port.toNat) : SpellsPort port ('+' :: cs)

section

variable {port : UInt16} {cs : List Char}

/-- The number of a port fits into 16 bits. -/
theorem portNumber_iff {n : ℕ} :
    (if n < 65536 then some (UInt16.ofNat n) else none) = some port ↔ n = port.toNat := by
  have hport : port.toNat < 65536 := port.toNat_lt
  constructor
  · intro h
    split at h
    · rename_i hn
      rw [← Option.some.inj h, UInt16.toNat_ofNat_of_lt' hn]
    · simp at h
  · rintro rfl
    rw [if_pos hport, UInt16.ofNat_toNat]

/-- The digits of a port after its sign. -/
theorem parseDigits_iff :
    ((digitsValue? 0 cs).bind fun n => if n < 65536 then some (UInt16.ofNat n) else none) = some port ↔
      Digits cs ∧ Nat.ofDigitChars 10 cs 0 = port.toNat := by
  rw [Option.bind_eq_some_iff]
  constructor
  · rintro ⟨n, hn, hport⟩
    obtain ⟨hdigits, hvalue⟩ := digitsValue?_eq_some_iff.1 hn
    exact ⟨hdigits, hvalue.trans (portNumber_iff.1 hport)⟩
  · rintro ⟨hdigits, hvalue⟩
    exact ⟨_, digitsValue?_eq_some_iff.2 ⟨hdigits, rfl⟩, portNumber_iff.2 hvalue⟩

theorem parsePort?_eq_some_iff : parsePort? cs = some port ↔ SpellsPort port cs := by
  have hdigits : ∀ ds : List Char, (if ds.isEmpty then none else
      (digitsValue? 0 ds).bind fun n => if n < 65536 then some (UInt16.ofNat n) else none) = some port ↔
        ds ≠ [] ∧ Digits ds ∧ Nat.ofDigitChars 10 ds 0 = port.toNat := by
    intro ds
    cases ds with
    | nil => simp
    | cons d ds => simpa using parseDigits_iff
  constructor
  · intro h
    unfold parsePort? at h
    split at h
    · obtain ⟨hne, hds, hvalue⟩ := (hdigits _).1 h
      exact .plus hne hds hvalue
    · obtain ⟨hne, hds, hvalue⟩ := (hdigits _).1 h
      exact .digits hne hds hvalue
  · rintro (⟨hne, hds, hvalue⟩ | ⟨hne, hds, hvalue⟩)
    · unfold parsePort?
      split
      · -- a plus sign is no digit
        exact absurd List.mem_cons_self (hds.notMem (c := '+') rfl)
      · exact (hdigits _).2 ⟨hne, hds, hvalue⟩
    · exact (hdigits _).2 ⟨hne, hds, hvalue⟩

/-- A port has no colon, and no slash. -/
theorem SpellsPort.notMem (h : SpellsPort port cs) {c : Char} (hc : c.isDigit = false) (hplus : c ≠ '+') :
    c ∉ cs := by
  cases h with
  | digits _ hcs _ => exact hcs.notMem hc
  | plus _ hcs _ => simpa using ⟨hplus, hcs.notMem hc⟩

theorem spellsPort_portText (port : UInt16) : SpellsPort port (Settings.portText port).toList := by
  rw [Settings.portText, String.toList_ofList]
  exact .digits (Nat.toDigits_ne_nil) (Digits.toDigits _) Nat.ofDigitChars_ten_toDigits

end

/-! ## Declarations -/

/-- The spellings of a protocol: plain text need not be mentioned. -/
inductive SpellsProtocol : Bool → List Char → Prop
  | missing : SpellsProtocol false []
  | plain : SpellsProtocol false "http://".toList
  | secure : SpellsProtocol true "https://".toList

/-- The spellings of a port that may be missing. -/
inductive SpellsEnd : Option UInt16 → List Char → Prop
  | missing : SpellsEnd none []
  | port {port : UInt16} {cs : List Char} (h : SpellsPort port cs) : SpellsEnd (some port) (':' :: cs)

/-- The host can be declared: it is not blank and has no colon. -/
structure Settings.Declarable (s : Settings) : Prop where
  noColon : ':' ∉ s.host.toList
  notBlank : Text.allBlank s.host.toList = false

/-- **The spellings of settings:** a protocol, the host as it is, and a port. -/
structure Declares (spec : List Char) (s : Settings) : Prop where
  declarable : s.Declarable
  parts : ∃ protocol port, SpellsProtocol s.sslEnabled protocol ∧ SpellsEnd s.port port ∧
    spec = protocol ++ (s.host.toList ++ port)

section

variable {s : Settings} {ssl : Bool} {cs spec : List Char}

/-- Host and port of settings are read back if and only if the host can be declared. -/
theorem parseAuthority_eq_ok_iff : parseAuthority ssl cs = .ok s ↔
    s.sslEnabled = ssl ∧ s.Declarable ∧ ∃ port, SpellsEnd s.port port ∧ cs = s.host.toList ++ port := by
  constructor
  · intro h
    have hmade : ∀ {host text : List Char} {port : Option UInt16},
        (if Text.allBlank host then .error .emulatorHost else .ok ⟨String.ofList host, port, ssl⟩) =
            (.ok s : Except Error Settings) →
          ':' ∉ host → SpellsEnd port text → cs = host ++ text → s.sslEnabled = ssl ∧ s.Declarable ∧
            ∃ port, SpellsEnd s.port port ∧ cs = s.host.toList ++ port := by
      intro host text port h hcolon htext hcs
      split at h
      · simp at h
      rename_i hblank
      obtain rfl := Except.ok.inj h
      exact ⟨rfl, ⟨by simpa using hcolon, by simpa using hblank⟩, text, htext, by simpa using hcs⟩
    unfold parseAuthority at h
    cases hsplit : Text.splitOnce? [':'] cs with
    | none =>
      simp only [hsplit] at h
      exact hmade h (Text.splitOnce?_eq_none_iff.1 hsplit) .missing (List.append_nil cs).symm
    | some parts =>
      obtain ⟨host, text⟩ := parts
      cases hport : parsePort? text with
      | none => simp [hsplit, hport] at h
      | some port =>
        simp only [hsplit, hport] at h
        refine hmade h (Text.notMem_of_splitOnce? hsplit) (.port (parsePort?_eq_some_iff.1 hport)) ?_
        simpa using Text.splitOnce?_eq_some hsplit
  · rintro ⟨rfl, ⟨hcolon, hblank⟩, text, htext, rfl⟩
    obtain ⟨host, port, ssl⟩ := s
    cases htext with
    | missing =>
      unfold parseAuthority
      rw [List.append_nil, Text.splitOnce?_eq_none hcolon []]
      simp [hblank]
    | @port number text hport =>
      unfold parseAuthority
      have hsplit := Text.splitOnce?_append_sep hcolon [] text
      rw [List.cons_append, List.nil_append] at hsplit
      rw [hsplit]
      simp [parsePort?_eq_some_iff.2 hport, hblank]

/-- Host and port have no separator of a protocol. -/
theorem splitOnce?_authority (h : ':' ∉ cs) {port : Option UInt16} {text : List Char}
    (htext : SpellsEnd port text) : Text.splitOnce? "://".toList (cs ++ text) = none := by
  have hstart : Text.splitOnce? "://".toList text = none := by
    cases htext with
    | missing => rfl
    | port hport =>
      rename_i number text
      -- what follows the colon of a port is no slash
      have hslash : Text.after? "://".toList (':' :: text) = none := by
        cases text with
        | nil => rfl
        | cons c text =>
          have hc : '/' ≠ c := by
            rintro rfl
            exact hport.notMem (c := '/') rfl (by decide) List.mem_cons_self
          simp [Text.after?, hc]
      rw [Text.splitOnce?, hslash]
      simp [Text.splitOnce?_eq_none (hport.notMem (c := ':') rfl (by decide))]
  rw [show "://".toList = [':', '/', '/'] from rfl] at hstart ⊢
  rw [Text.splitOnce?_append h, hstart]
  rfl

/-- **A declaration is accepted if and only if it spells settings,** which are then what it stands
for. -/
theorem parseEmulatorHost_eq_ok_iff {spec : String} :
    parseEmulatorHost spec = .ok s ↔ Declares spec.toList s := by
  constructor
  · intro h
    unfold parseEmulatorHost at h
    cases hsplit : Text.splitOnce? "://".toList spec.toList with
    | none =>
      simp only [hsplit, Option.getD_none, if_true] at h
      obtain ⟨hssl, hdecl, port, hport, hcs⟩ := parseAuthority_eq_ok_iff.1 h
      exact ⟨hdecl, [], port, by rw [hssl]; exact .missing, hport, by simpa using hcs⟩
    | some parts =>
      obtain ⟨protocol, rest⟩ := parts
      simp only [hsplit, Option.getD_some] at h
      have hspec := Text.splitOnce?_eq_some hsplit
      split at h
      · rename_i hprotocol
        obtain ⟨hssl, hdecl, port, hport, hcs⟩ := parseAuthority_eq_ok_iff.1 h
        refine ⟨hdecl, "http://".toList, port, by rw [hssl]; exact .plain, hport, ?_⟩
        rw [hspec, hprotocol, hcs]
        rfl
      split at h
      · rename_i hprotocol
        obtain ⟨hssl, hdecl, port, hport, hcs⟩ := parseAuthority_eq_ok_iff.1 h
        refine ⟨hdecl, "https://".toList, port, by rw [hssl]; exact .secure, hport, ?_⟩
        rw [hspec, hprotocol, hcs]
        rfl
      · simp at h
  · rintro ⟨hdecl, protocol, port, hprotocol, hport, hspec⟩
    have hrest : ∀ ssl, s.sslEnabled = ssl → parseAuthority ssl (s.host.toList ++ port) = .ok s :=
      fun ssl hssl => parseAuthority_eq_ok_iff.2 ⟨hssl, hdecl, port, hport, rfl⟩
    unfold parseEmulatorHost
    rw [hspec]
    generalize hssl : s.sslEnabled = ssl at hprotocol
    cases hprotocol with
    | missing =>
      simp only [List.nil_append, splitOnce?_authority hdecl.noColon hport, Option.getD_none, if_true]
      exact hrest false hssl
    | plain =>
      have hsplit : Text.splitOnce? "://".toList ("http://".toList ++ (s.host.toList ++ port)) =
          some ("http".toList, s.host.toList ++ port) :=
        Text.splitOnce?_append_sep (show ':' ∉ "http".toList by decide) "//".toList _
      simp only [hsplit, Option.getD_some, if_true]
      exact hrest false hssl
    | secure =>
      have hsplit : Text.splitOnce? "://".toList ("https://".toList ++ (s.host.toList ++ port)) =
          some ("https".toList, s.host.toList ++ port) :=
        Text.splitOnce?_append_sep (show ':' ∉ "https".toList by decide) "//".toList _
      simp only [hsplit, Option.getD_some, if_true]
      exact hrest true hssl

/-- The address of settings whose host can be declared is one of their spellings. -/
theorem Settings.Declarable.declares (h : s.Declarable) : Declares s.baseUrl.toList s := by
  obtain ⟨host, port, ssl⟩ := s
  have hprotocol : SpellsProtocol ssl ((if ssl then "https" else "http") ++ "://").toList := by
    cases ssl with
    | false => exact .plain
    | true => exact .secure
  cases port with
  | none =>
    refine ⟨h, _, [], hprotocol, .missing, ?_⟩
    simp [Settings.baseUrl, Settings.scheme, Settings.authority]
  | some port =>
    refine ⟨h, _, ':' :: (Settings.portText port).toList, hprotocol, .port (spellsPort_portText port), ?_⟩
    simp [Settings.baseUrl, Settings.scheme, Settings.authority]

end

/-- Reading declarations and writing addresses are **inverse to each other** where the host can be
declared. -/
structure Settings.Inverse (read : String → Except Error Settings) (write : Settings → String) : Prop where
  /-- What is accepted is what spells settings, in any of their spellings. -/
  spelled : ∀ spec s, read spec = .ok s ↔ Declares spec.toList s
  /-- What is read can be declared, and is read again from its address, whatever the spelling was. -/
  parsed : ∀ spec s, read spec = .ok s → s.Declarable ∧ read (write s) = .ok s
  /-- What can be declared is read from its address. -/
  written : ∀ s : Settings, s.Declarable → read (write s) = .ok s
  /-- Nothing else is read from any declaration. -/
  image : ∀ s : Settings, (∃ spec, read spec = .ok s) ↔ s.Declarable

/-- **Reading declarations and writing addresses are inverse to each other.** -/
theorem emulator_declarations : Settings.Inverse parseEmulatorHost Settings.baseUrl where
  spelled _ _ := parseEmulatorHost_eq_ok_iff
  parsed _ _ h :=
    have hdecl := (parseEmulatorHost_eq_ok_iff.1 h).declarable
    ⟨hdecl, parseEmulatorHost_eq_ok_iff.2 hdecl.declares⟩
  written _ h := parseEmulatorHost_eq_ok_iff.2 h.declares
  image _ := ⟨fun ⟨_, h⟩ => (parseEmulatorHost_eq_ok_iff.1 h).declarable,
    fun h => ⟨_, parseEmulatorHost_eq_ok_iff.2 h.declares⟩⟩

/-- Blanks and slashes stay in the host, while the port loses its plus sign and its zeros. -/
example : parseEmulatorHost "https:// a/b :+00080" = .ok ⟨" a/b ", some 80, true⟩ ∧
    Settings.baseUrl ⟨" a/b ", some 80, true⟩ = "https:// a/b :80" :=
  ⟨by rfl, by decide⟩

end QueryClient
