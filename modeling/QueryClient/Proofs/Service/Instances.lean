import QueryClient.Proofs.Service.Remembered

/-!
# The same service until it is closed

Asking for the service of a project and a connector gives the same service until it is closed. Closing a
service concerns no other, but for those that were made with the tokens of its token manager.

* `directoryAt`: the directory after the first events; `kept`: what is remembered is in order.
* `ObtainsAt`: an event gives a service for a key; `ObtainsAt.eq_iff`.
* `MadeAt`: an event makes a service; `HandedOn`: with the tokens of a manager that was there.
* `AuthRealm.Untouched`: nothing happens to a token manager.
* `Instances`: **asking for services and closing them;** `remembered_instances`.
* `closed_with_handed_on`: why `Instances.spared` has its exception.
-/

namespace QueryClient

/-! ## Runs -/

variable {es : List PremisesEvent} {m n : ℕ} {key : ServiceKey} {i j : ServiceId} {x y : Service}

/-- The directory after the first events. -/
def directoryAt (es : List PremisesEvent) (n : ℕ) : Directory := (premisesAt es n).directory

/-- **An event of a run,** or nothing after its end. -/
theorem directoryAt_stepsTo (hn : n < es.length) : (directoryAt es n).StepsTo (directoryAt es (n + 1)) es[n] := by
  unfold directoryAt
  rw [premisesAt_succ hn]
  exact (premisesAt es n).stepsTo es[n]

theorem directoryAt_of_le (hn : es.length ≤ n) : directoryAt es (n + 1) = directoryAt es n := by
  unfold directoryAt
  rw [premisesAt_of_le hn]

/-- **What is remembered is in order** throughout a run. -/
theorem kept (es : List PremisesEvent) (n : ℕ) : (directoryAt es n).WellFormed := by
  induction n with
  | zero => exact ⟨by simp [directoryAt, premisesAt], by simp [directoryAt, premisesAt],
      by simp [directoryAt, premisesAt]⟩
  | succ n ih =>
    by_cases hn : n < es.length
    · exact ih.stepsTo (directoryAt_stepsTo hn)
    · rw [directoryAt_of_le (Nat.not_lt.1 hn)]
      exact ih

/-- **Services stay** throughout a run. -/
theorem directoryAt_persists (hmn : m ≤ n) (hx : (directoryAt es m).services[j]? = some x) :
    ∃ y, (directoryAt es n).services[j]? = some y ∧ y.options = x.options ∧ y.auth = x.auth ∧
      (x.closed → y.closed) := by
  induction hmn with
  | refl => exact ⟨x, hx, rfl, rfl, fun hc => hc⟩
  | @step n _ ih =>
    obtain ⟨y, hy, hoptions, hauth, hclosed⟩ := ih
    show ∃ y, (directoryAt es (n + 1)).services[j]? = some y ∧ _
    by_cases hn : n < es.length
    · obtain ⟨z, hz, hgoes⟩ := (directoryAt_stepsTo hn).goes hy
      exact ⟨z, hz, hgoes.options.trans hoptions, hgoes.auth.trans hauth,
        fun hc => hgoes.closed.2 (.inl (hclosed hc))⟩
    · rw [directoryAt_of_le (Nat.not_lt.1 hn)]
      exact ⟨y, hy, hoptions, hauth, hclosed⟩

theorem managersAt_mono (hmn : m ≤ n) :
    (directoryAt es m).realm.managers.length ≤ (directoryAt es n).realm.managers.length := by
  induction hmn with
  | refl => exact Nat.le_refl _
  | @step n _ ih =>
    refine Nat.le_trans ih ?_
    show _ ≤ (directoryAt es (n + 1)).realm.managers.length
    by_cases hn : n < es.length
    · exact (directoryAt_stepsTo hn).managers
    · exact Nat.le_of_eq (by rw [directoryAt_of_le (Nat.not_lt.1 hn)])

/-- **Event `n` gives a service for a key.** -/
def ObtainsAt (es : List PremisesEvent) (n : ℕ) (key : ServiceKey) (i : ServiceId) : Prop :=
  ∃ options requested environment d, es[n]? = some (.obtain options requested environment) ∧
    options.serviceKey = key ∧ (directoryAt es n).obtain options requested environment = .ok (d, i)

namespace ObtainsAt

/-- The service is remembered then. -/
theorem mem (h : ObtainsAt es n key i) : (key, i) ∈ (directoryAt es (n + 1)).remembered := by
  obtain ⟨options, requested, environment, d, hev, rfl, hd⟩ := h
  obtain ⟨hn, hev⟩ := List.getElem?_eq_some_iff.1 hev
  have hnext : directoryAt es (n + 1) = d := by
    unfold directoryAt at hd ⊢
    rw [premisesAt_succ hn, hev]
    simp only [Premises.step, hd]
  rw [hnext]
  rcases Directory.obtain_cases hd with ⟨hfind, rfl⟩ | ⟨-, rfl, settings, -, rfl⟩
  · exact Directory.mem_of_find? hfind
  · exact List.mem_append_right _ (List.mem_singleton.2 rfl)

/-- **The service is open,** and is one for the key. -/
theorem exists_open (h : ObtainsAt es n key i) : ∃ x, (directoryAt es (n + 1)).services[i]? = some x ∧
    x.closed = false ∧ x.options.serviceKey = key := (kept es (n + 1)).entries _ h.mem

/-- The service that is remembered, or a new one. -/
theorem find? (h : ObtainsAt es n key i) : (directoryAt es n).find? key = some i ∨
    (directoryAt es n).find? key = none ∧ i = (directoryAt es n).services.length := by
  obtain ⟨options, requested, environment, d, -, rfl, hd⟩ := h
  rcases Directory.obtain_cases hd with ⟨hfind, -⟩ | ⟨hnew, rfl, -⟩
  · exact .inl hfind
  · exact .inr ⟨hnew, rfl⟩

end ObtainsAt

/-- **What is remembered stays remembered** while it is not closed. -/
theorem mem_rememberedAt (hmn : m ≤ n) (he : (key, i) ∈ (directoryAt es m).remembered)
    (hopen : ∀ k, m ≤ k → k < n → es[k]? ≠ some (.at i .close)) : (key, i) ∈ (directoryAt es n).remembered := by
  induction hmn with
  | refl => exact he
  | @step n hle ih =>
    have hmem := ih fun k hk hkn => hopen k hk (Nat.lt_succ_of_lt hkn)
    show (key, i) ∈ (directoryAt es (n + 1)).remembered
    by_cases hn : n < es.length
    · refine (directoryAt_stepsTo hn).mem_remembered (kept es n) hmem fun hev => ?_
      exact hopen n hle (Nat.lt_succ_self n) (by rw [List.getElem?_eq_getElem hn, hev])
    · rw [directoryAt_of_le (Nat.not_lt.1 hn)]
      exact hmem

/-- **Two calls for a key** give the same service exactly if it was not closed between them. -/
theorem ObtainsAt.eq_iff (hmn : m < n) (h : ObtainsAt es m key i) (h' : ObtainsAt es n key j) :
    i = j ↔ ∀ k, m < k → k < n → es[k]? ≠ some (.at i .close) := by
  obtain ⟨x, hx, -⟩ := h.exists_open
  constructor
  · rintro rfl k hmk hkn hev
    obtain ⟨hk, hev⟩ := List.getElem?_eq_some_iff.1 hev
    -- the service is there when it is closed, and stays closed
    obtain ⟨y, hy, -⟩ := directoryAt_persists hmk hx
    obtain ⟨z, hz, hgoes⟩ := (directoryAt_stepsTo hk).goes hy
    obtain ⟨w, hw, -, -, hclosed⟩ := directoryAt_persists (Nat.le_succ_of_le (Nat.succ_le_of_lt hkn)) hz
    obtain ⟨w', hw', hopen, -⟩ := h'.exists_open
    rw [hw] at hw'
    obtain rfl := Option.some.inj hw'
    simp [hclosed (hgoes.closed.2 (.inr hev))] at hopen
  · intro hopen
    have hmem := mem_rememberedAt (Nat.succ_le_of_lt hmn) h.mem fun k hmk hkn => hopen k hmk hkn
    have hfind := (kept es n).find?_eq.2 hmem
    rcases h'.find? with hfind' | ⟨hnone, -⟩
    · rw [hfind] at hfind'
      exact Option.some.inj hfind'
    · rw [hfind] at hnone
      simp at hnone

/-! ## Token managers -/

/-- An event makes a service. -/
def MadeAt (es : List PremisesEvent) (k : ℕ) (j : ServiceId) : Prop :=
  j = (directoryAt es k).services.length ∧ j < (directoryAt es (k + 1)).services.length

/-- A service was made with the tokens of a manager that was there. -/
def HandedOn (es : List PremisesEvent) (n : ℕ) (i : ServiceId) (a : AuthId) : Prop :=
  ∃ k options settings, k < n ∧ es[k]? = some (.web options settings a) ∧ MadeAt es k i

/-- An event that makes a service adds it. -/
theorem MadeAt.adds (h : MadeAt es n j) : ∃ ev x, es[n]? = some ev ∧
    (directoryAt es (n + 1)).services[j]? = some x ∧ (directoryAt es n).Adds ev (directoryAt es (n + 1)) x := by
  obtain ⟨rfl, hlt⟩ := h
  by_cases hn : n < es.length
  · have hy := List.getElem?_eq_getElem hlt
    rcases (directoryAt_stepsTo hn).of_goes hy with ⟨x, hx, -⟩ | ⟨-, hadds⟩
    · exact absurd (List.getElem?_eq_some_iff.1 hx).1 (Nat.lt_irrefl _)
    · exact ⟨_, _, List.getElem?_eq_getElem hn, hy, hadds⟩
  · rw [directoryAt_of_le (Nat.not_lt.1 hn)] at hlt
    exact absurd hlt (Nat.lt_irrefl _)

/-- **Each service was made** by an event. -/
theorem exists_madeAt (hx : j < (directoryAt es n).services.length) : ∃ k < n, MadeAt es k j := by
  induction n with
  | zero => simp [directoryAt, premisesAt] at hx
  | succ n ih =>
    by_cases hj : j < (directoryAt es n).services.length
    · obtain ⟨k, hk, hmade⟩ := ih hj
      exact ⟨k, Nat.lt_succ_of_lt hk, hmade⟩
    · refine ⟨n, Nat.lt_succ_self n, ?_, hx⟩
      by_cases hn : n < es.length
      · rcases (directoryAt_stepsTo hn).of_goes (List.getElem?_eq_getElem hx) with ⟨x, hx, -⟩ | ⟨heq, -⟩
        · exact absurd (List.getElem?_eq_some_iff.1 hx).1 hj
        · exact heq
      · rw [directoryAt_of_le (Nat.not_lt.1 hn)] at hx
        exact absurd hx hj

/-- **What is remembered has a token manager of its own,** made with it. -/
theorem own_of_mem (he : (key, i) ∈ (directoryAt es n).remembered) : ∃ k < n, MadeAt es k i ∧
    ∃ x, (directoryAt es (k + 1)).services[i]? = some x ∧
      x.auth = (directoryAt es k).realm.managers.length := by
  induction n with
  | zero => simp [directoryAt, premisesAt] at he
  | succ n ih =>
    by_cases hn : n < es.length
    · rcases (directoryAt_stepsTo hn).of_mem_remembered (kept es n) he with
        ⟨he, -⟩ | ⟨hid, _, _, _, x, -, hadds, -, -, hown⟩
      · obtain ⟨k, hk, hmade⟩ := ih he
        exact ⟨k, Nat.lt_succ_of_lt hk, hmade⟩
      · obtain rfl : i = (directoryAt es n).services.length := hid
        have hx : (directoryAt es (n + 1)).services[(directoryAt es n).services.length]? = some x := by
          rw [hadds.services, List.getElem?_concat_length]
        exact ⟨n, Nat.lt_succ_self n, ⟨rfl, (List.getElem?_eq_some_iff.1 hx).1⟩, x, hx, hown⟩
    · rw [directoryAt_of_le (Nat.not_lt.1 hn)] at he
      obtain ⟨k, hk, hmade⟩ := ih he
      exact ⟨k, Nat.lt_succ_of_lt hk, hmade⟩

/-- **A service that was obtained shares its token manager** only with those that it was handed on to. -/
theorem ObtainsAt.handedOn (h : ObtainsAt es m key j) (hmn : m < n) (hij : i ≠ j)
    (hx : (directoryAt es n).services[j]? = some x) (hy : (directoryAt es n).services[i]? = some y)
    (hauth : y.auth = x.auth) : HandedOn es n i x.auth := by
  obtain ⟨kj, hkj, hmadej, x₀, hx₀, hown⟩ := own_of_mem h.mem
  obtain ⟨ki, hki, hmadei⟩ := exists_madeAt (List.getElem?_eq_some_iff.1 hy).1
  obtain ⟨ev, y₀, hev, hy₀, hadds⟩ := hmadei.adds
  obtain ⟨x', hx', -, hax, -⟩ := directoryAt_persists (Nat.lt_of_lt_of_le hkj hmn) hx₀
  obtain ⟨y', hy', -, hay, -⟩ := directoryAt_persists (Nat.succ_le_of_lt hki) hy₀
  obtain rfl := Option.some.inj (hx.symm.trans hx')
  obtain rfl := Option.some.inj (hy.symm.trans hy')
  rcases hadds.own with hownI | ⟨options, settings, rfl⟩
  · exfalso
    rcases Nat.lt_trichotomy ki kj with hlt | rfl | hlt
    · -- the other service came first, and its manager was there before
      have hbound := Nat.lt_of_lt_of_le hadds.auth (managersAt_mono (Nat.succ_le_of_lt hlt))
      rw [← hown, ← hax, ← hauth, hay] at hbound
      exact Nat.lt_irrefl _ hbound
    · exact hij (hmadei.1.trans hmadej.1.symm)
    · have hbound : x₀.auth < (directoryAt es ki).realm.managers.length :=
        Nat.lt_of_lt_of_le ((kept es (kj + 1)).auth x₀ (List.mem_of_getElem? hx₀))
          (managersAt_mono (Nat.succ_le_of_lt hlt))
      rw [← hownI, ← hay, hauth, hax] at hbound
      exact Nat.lt_irrefl _ hbound
  · refine ⟨ki, options, settings, hki, ?_, hmadei⟩
    rw [hev, ← hauth, hay]

namespace AuthRealm

/-- **Nothing happens to a token manager:** it is as before, the provider tells it as before, and no fetch and
no call of the provider comes or changes. -/
structure Untouched (r r' : AuthRealm) (a : AuthId) : Prop where
  manager : r'.managers[a]? = r.managers[a]?
  listening : r'.provider.listeners.count a = r.provider.listeners.count a
  uid : r'.uid a = r.uid a
  waiting : r'.waiting = r.waiting
  fetches : r'.fetches = r.fetches
  calls : r'.calls = r.calls

namespace Untouched

variable {r r' r'' : AuthRealm} {a b : AuthId}

theorem refl (r : AuthRealm) : Untouched r r a := ⟨rfl, rfl, rfl, rfl, rfl, rfl⟩

theorem trans (h : Untouched r r' a) (h' : Untouched r' r'' a) : Untouched r r'' a :=
  ⟨h'.manager.trans h.manager, h'.listening.trans h.listening, h'.uid.trans h.uid,
    h'.waiting.trans h.waiting, h'.fetches.trans h.fetches, h'.calls.trans h.calls⟩

theorem wake (r : AuthRealm) : Untouched r r.wake a := by
  have hfold : ∀ (fs : List FetchId) (r : AuthRealm), Untouched r (fs.foldl wakeFetch r) a := by
    intro fs
    induction fs with
    | nil => exact refl
    | cons f fs ih =>
      intro r
      refine .trans ?_ (ih _)
      unfold wakeFetch
      split
      · exact ⟨rfl, rfl, rfl, rfl, rfl, rfl⟩
      · exact refl r
  exact hfold _ r

theorem removeListener (hab : a ≠ b) (r : AuthRealm) : Untouched r (r.removeListener b) a := by
  unfold AuthRealm.removeListener
  split
  · exact ⟨rfl, List.count_erase_of_ne hab, rfl, rfl, rfl, rfl⟩
  simp only
  split
  · exact ⟨rfl, rfl, rfl, rfl, rfl, rfl⟩
  · exact ⟨rfl, rfl, rfl, rfl, rfl, rfl⟩

/-- **Closing another manager.** -/
theorem close (hab : a ≠ b) (r : AuthRealm) : Untouched r (r.close b) a := by
  refine .trans ?_ (wake _)
  have hmodify : ∀ f, Untouched r (r.modifyManager b f) a := fun f => by
    have hsame : (r.modifyManager b f).managers[a]? = r.managers[a]? := by
      rw [r.getElem?_modifyManager, if_neg (Ne.symm hab)]
    exact ⟨hsame, rfl, by unfold AuthRealm.uid; rw [hsame]; rfl, rfl, rfl, rfl⟩
  unfold closeManager
  split
  · exact refl r
  split
  · exact refl r
  have hnoted : ∀ f, Untouched r ((r.modifyManager b f).note (.closed b)) a := fun f =>
    (hmodify f).trans ⟨rfl, rfl, rfl, rfl, rfl, rfl⟩
  simp only
  split
  · exact (hnoted _).trans (removeListener hab _)
  · exact hnoted _

end Untouched

end AuthRealm

/-! ## The law -/

/-- **What closing a service does:** only its own entry is forgotten, the other services go on, and no token
manager but its own is concerned. -/
structure Premises.Closes (p p' : Premises) (i : ServiceId) : Prop where
  remembered : p'.directory.remembered = p.directory.remembered.filter fun e => e.2 ≠ i
  /-- A service that is not remembered is closed without notice. -/
  unremembered : (∀ e ∈ p.directory.remembered, e.2 ≠ i) → p'.directory.remembered = p.directory.remembered
  others : ∀ j ≠ i, p'.directory.services[j]? = p.directory.services[j]? ∧ p'.held j = p.held j ∧
    p'.calls j = p.calls j ∧ p'.sent j = p.sent j
  auth : ∀ x, p.directory.services[i]? = some x → ∀ a ≠ x.auth,
    p.directory.realm.Untouched p'.directory.realm a

/-- **The services of a run.** -/
structure Instances (es : List PremisesEvent) : Prop where
  /-- Whatever is remembered is open, and is remembered by its own key and no other. -/
  cached : ∀ n, (directoryAt es n).WellFormed
  /-- Two calls for a key return the same service exactly if it is not closed between them. -/
  same : ∀ m n key i j, m < n → ObtainsAt es m key i → ObtainsAt es n key j →
    (i = j ↔ ∀ k, m < k → k < n → es[k]? ≠ some (.at i .close))
  /-- A call for a service that is remembered succeeds exactly if it asks for no settings but the current
  ones. -/
  asked : ∀ n options i, (directoryAt es n).find? options.serviceKey = some i →
    ∃ x, (directoryAt es n).services[i]? = some x ∧ ∀ requested environment,
      ((∃ out, (directoryAt es n).obtain options requested environment = .ok out) ↔
        ∀ settings, requested = some settings → settings = x.settings)
  /-- A service keeps its options and tokens, its settings change only when it is sent to an emulator before
  its first operation, and it is closed by its own end only. -/
  goes : ∀ n (hn : n < es.length) j (x : Service), (directoryAt es n).services[j]? = some x →
    ∃ y, (directoryAt es (n + 1)).services[j]? = some y ∧ x.Goes j es[n] y
  /-- No call returns a closed service, or one for another key. -/
  opened : ∀ n key i, ObtainsAt es n key i → ∃ x, (directoryAt es (n + 1)).services[i]? = some x ∧
    x.closed = false ∧ x.options.serviceKey = key
  closes : ∀ n i, es[n]? = some (.at i .close) → (premisesAt es n).Closes (premisesAt es (n + 1)) i
  /-- Another service that was obtained is as before when a service is closed, and so is its token manager,
  unless the service that is closed was made with just this manager. -/
  spared : ∀ m n key i j x, m < n → ObtainsAt es m key j → es[n]? = some (.at i .close) → i ≠ j →
    (directoryAt es n).services[j]? = some x → (directoryAt es (n + 1)).services[j]? = some x ∧
      (HandedOn es n i x.auth ∨ (directoryAt es n).realm.Untouched (directoryAt es (n + 1)).realm x.auth)
  /-- A call that fails changes nothing. -/
  failed : ∀ n options requested environment e, es[n]? = some (.obtain options requested environment) →
    (directoryAt es n).obtain options requested environment = .error e → premisesAt es (n + 1) = premisesAt es n

/-- A call for a service that is remembered. -/
theorem Directory.WellFormed.obtain_iff {d : Directory} (h : d.WellFormed) {options : Options}
    (hfind : d.find? options.serviceKey = some i) : ∃ x, d.services[i]? = some x ∧ ∀ requested environment,
      ((∃ out, d.obtain options requested environment = .ok out) ↔
        ∀ settings, requested = some settings → settings = x.settings) := by
  obtain ⟨x, hx, -⟩ := h.entries _ (Directory.mem_of_find? hfind)
  refine ⟨x, hx, fun requested environment => ?_⟩
  unfold Directory.obtain
  simp only [hfind, hx]
  cases requested with
  | none => simp
  | some settings =>
    by_cases heq : settings = x.settings
    · simp [heq]
    · simp [heq]

/-- **Closing a service.** -/
theorem Premises.closes {p : Premises} (hk : p.directory.WellFormed) (i : ServiceId) :
    p.Closes (p.step (.at i .close)) i := by
  by_cases here : i < p.directory.services.length
  · have hstep : p.step (.at i .close) = p.setStation (p.station i here).close := dif_pos here
    rw [hstep]
    have hremembered := hk.remembered_close i
    refine ⟨hremembered, fun hne => ?_, fun j hj => ⟨?_, if_neg hj, if_neg hj, if_neg hj⟩, fun x hx a ha => ?_⟩
    · refine hremembered.trans (List.filter_eq_self.2 fun e he => ?_)
      simpa using hne e he
    · exact (Directory.getElem?_close p.directory i j).trans (if_neg hj)
    · show p.directory.realm.Untouched (p.directory.close i).realm a
      unfold Directory.close
      simp only [hx]
      split
      · exact .refl _
      · exact .close ha _
  · have hstep : p.step (.at i .close) = p := dif_neg here
    rw [hstep]
    refine ⟨(List.filter_eq_self.2 fun e he => ?_).symm, fun _ => rfl, fun _ _ => ⟨rfl, rfl, rfl, rfl⟩,
      fun _ _ _ _ => .refl _⟩
    obtain ⟨x, hx, -⟩ := hk.entries e he
    have hlt := (List.getElem?_eq_some_iff.1 hx).1
    simpa using fun heq : e.2 = i => here (heq ▸ hlt)

theorem closesAt (hev : es[n]? = some (.at i .close)) : (premisesAt es n).Closes (premisesAt es (n + 1)) i := by
  obtain ⟨hn, hev⟩ := List.getElem?_eq_some_iff.1 hev
  rw [premisesAt_succ hn, hev]
  exact Premises.closes (kept es n) i

/-- **Asking for services and closing them:** the law of every run. -/
theorem remembered_instances (es : List PremisesEvent) : Instances es where
  cached := kept es
  same _ _ _ _ _ hmn h h' := h.eq_iff hmn h'
  asked n _ _ hfind := (kept es n).obtain_iff hfind
  goes _ hn _ _ hx := (directoryAt_stepsTo hn).goes hx
  opened _ _ _ h := h.exists_open
  closes _ _ hev := closesAt hev
  spared m n key i j x hmn h hev hij hx := by
    have hcloses := closesAt hev
    obtain ⟨hn, hev⟩ := List.getElem?_eq_some_iff.1 hev
    refine ⟨(hcloses.others j (Ne.symm hij)).1.trans hx, ?_⟩
    cases hy : (directoryAt es n).services[i]? with
    | none =>
      -- nothing is there to be closed
      refine .inr ?_
      have hnone : (directoryAt es (n + 1)).realm = (directoryAt es n).realm := by
        have hout : ¬ i < (premisesAt es n).directory.services.length :=
          Nat.not_lt.2 (List.getElem?_eq_none_iff.1 hy)
        unfold directoryAt
        rw [premisesAt_succ hn, hev, show (premisesAt es n).step (.at i .close) = premisesAt es n from dif_neg hout]
      rw [hnone]
      exact .refl _
    | some y =>
      by_cases hauth : y.auth = x.auth
      · exact .inl (h.handedOn hmn hij hx hy hauth)
      · exact .inr (hcloses.auth y hy x.auth (Ne.symm hauth))
  failed n options requested environment e hev herr := by
    obtain ⟨hn, hev⟩ := List.getElem?_eq_some_iff.1 hev
    unfold directoryAt at herr
    rw [premisesAt_succ hn, hev]
    simp only [Premises.step, herr]

/-- **A service that was handed the tokens of another takes them with it** when it is closed: the other one is
as before, but its token manager is closed. -/
theorem closed_with_handed_on :
    let options : Options := ⟨⟨"us-east1", "movies", "reviews"⟩, "demo", none, none⟩
    let es : List PremisesEvent := [.obtain options none none, .web options .production 0, .at 1 .close]
    ObtainsAt es 0 options.serviceKey 0 ∧
      (∃ x, (directoryAt es 2).services[0]? = some x ∧ (directoryAt es 3).services[0]? = some x ∧
        x.closed = false ∧ x.auth = 0) ∧
      (directoryAt es 2).realm.isClosed 0 = false ∧ (directoryAt es 3).realm.isClosed 0 ∧
      ¬ (directoryAt es 2).realm.Untouched (directoryAt es 3).realm 0 := by
  intro options es
  refine ⟨⟨options, none, none, _, rfl, rfl, rfl⟩, ⟨_, rfl, rfl, rfl, rfl⟩, ?_, ?_, ?_⟩
  · decide +kernel
  · decide +kernel
  · intro h
    have hmanager := congrArg (Option.any (·.closed)) h.manager
    revert hmanager
    decide +kernel

/-- A look-alike that is not remembered comes and goes; the one that is remembered is closed and asked for
again. -/
example :
    let options : Options := ⟨⟨"us-east1", "movies", "reviews"⟩, "demo", none, none⟩
    let es : List PremisesEvent := [.obtain options none none, .web options .production 0, .at 1 .close,
      .obtain options none none, .at 0 .close, .obtain options none none]
    (List.range 7).map (fun n => (directoryAt es n).remembered.map Prod.snd) =
      [[], [0], [0], [0], [0], [], [2]] := by decide +kernel

end QueryClient
