import QueryClient.Proofs.Executor.Closing

/-!
# A task that dies blocks nobody

An attempt whose task died lies in the slot, and those who ask go on joining it, until one who waits for it
looks: then its failure is made up and stored, the slot is empty, and all others who wait are handed the same
failure.

* `DeskOK.dead_cases`: **nothing but a look of one who waits** moves an attempt whose task died.
* `Fate`: such an attempt lies there, or its failure is stored; `Fate.step`, `Fate.run`.
* `Onward`: what one comes to who asks when the failure has been handed out.
* `DeadAttempt`, `dead_attempt`: the law.
* `second_asker_joins`: of two who ask then, one starts an attempt and the other joins it.
-/

namespace QueryClient

/-- **The failure of an attempt whose task died.** -/
def Executor.dropped (e : Executor) (a : Attempt) : NumberedOutcome := e.outcomeOf a (.error .executionDropped)

/-- Somebody who waited for the attempt with the given number was handed a result. -/
def Desk.IsTold (d : Desk) (n : Int) : Prop :=
  ∃ q ∈ d.inquiries, q.attempt? = some n ∧ ∃ r, q.ending = some (.returned r)

/-- **How an attempt stands whose task died:** it lies there, or one who waits has found this out. -/
inductive Fate (a : Attempt) (o : NumberedOutcome) (e : Executor) : Prop where
  | lies (ha : a ∈ e.attempts) (ho : e.dropped a = o)
  | found (ha : { a with stage := .settled o } ∈ e.attempts)

/-- **What looking comes to** at an executor when the given number is behind: a larger one. -/
inductive Onward (n : Int) (e : Executor) (least : Int) : Entry → Prop where
  /-- The slot is empty, and an attempt is started. -/
  | starts {m : Int} (hslot : e.slot = none) (hlt : n < m) : Onward n e least (.started m)
  /-- Somebody else has started one. -/
  | joins {m : Int} (hslot : e.slot = some m) (hlt : n < m) : Onward n e least (.joined m)
  /-- It has ended already. -/
  | finds {r : NumberedOutcome} (hlast : e.last = some r) (hleast : least < r.number) (hlt : n < r.number) :
      Onward n e least (.found r)

variable {spec : QuerySpec} {a b : Attempt} {o r : NumberedOutcome} {d d₀ : Desk} {e : Executor} {i : ℕ}

/-! ## One event -/

namespace DeskOK

theorem ext_step (h : DeskOK spec d) (ev : DeskEvent) : ExecutorExt d.executor (d.step ev).executor := by
  rcases Desk.step_executor h ev with hs | ⟨n, request, hs⟩
  · exact .step hs
  · rw [hs]; exact .start _ _ _

theorem key_run (h : DeskOK spec d) (es : List DeskEvent) : (d.run es).executor.key = d.executor.key := by
  induction es generalizing d with
  | nil => rfl
  | cons ev es ih => exact (ih (h.step ev)).trans (h.ext_step ev).key

/-- **Nothing but a look of one who waits moves an attempt whose task died.** The look makes up the failure
and stores it. -/
theorem dead_cases (h : DeskOK spec d) (ha : a ∈ d.executor.attempts) (hdead : a.stage = .dead) (ev : DeskEvent) :
    a ∈ (d.step ev).executor.attempts ∨ ∃ i rest, ev = .collect i ∧ d.executor.attempts = a :: rest ∧
      (d.step ev).executor = d.executor.store a rest (d.executor.dropped a) := by
  have hu : a.Unsettled := Attempt.unsettled_of_stage hdead rfl
  obtain ⟨⟨rest, hl⟩, hslot⟩ := h.executor.head_of_unsettled ha hu
  -- the attempt that an event moves is the youngest, which is this one
  have hhead : ∀ {b rest'}, d.executor.attempts = b :: rest' → b = a ∧ rest' = rest := fun hl' => by
    simpa using hl'.symm.trans hl
  cases ev with
  | drawn numbers requests => exact .inl ha
  | ask => exact .inl ha
  | look i =>
    refine .inl ?_
    show a ∈ (d.look i).executor.attempts
    rcases d.look_cases i with hsame | ⟨least, executor, supply, entry, -, hj, hlook⟩
    · rwa [hsame]
    rw [hlook]
    rcases d.executor.join_cases least d.supply with
      ⟨o, hj', -⟩ | ⟨n, hj', -⟩ | ⟨-, hempty, -⟩
    · obtain ⟨rfl, -⟩ := Prod.ext_iff.1 (hj'.symm.trans hj)
      exact ha
    · obtain ⟨rfl, -⟩ := Prod.ext_iff.1 (hj'.symm.trans hj)
      exact ha
    · simp [hslot] at hempty
  | collect i =>
    show a ∈ (d.collect i).executor.attempts ∨ _
    rcases d.collect_cases i with hsame | ⟨least, entry, n, executor, o, madeUp, -, -, hw, hcollect⟩
    · exact .inl (by rwa [hsame])
    rcases h.executor.await?_cases hw with ⟨rfl, -⟩ | ⟨b, rest', hl', -, -, rfl, rfl⟩
    · exact .inl (by rw [hcollect]; exact ha)
    · obtain ⟨rfl, rfl⟩ := hhead hl'
      exact .inr ⟨i, rest', rfl, hl', by show (d.collect i).executor = _; rw [hcollect]; rfl⟩
  | leave i =>
    refine .inl ?_
    show a ∈ (d.leave i).executor.attempts
    rcases d.leave_cases i with hsame | ⟨least, entry, -, hleave⟩
    · rwa [hsame]
    · rw [hleave]; exact ha
  | begin n =>
    refine .inl ?_
    show a ∈ (d.begin n).executor.attempts
    rcases d.begin_cases h.executor n with hsame | ⟨b, rest', hl', -, hst, -⟩
    · rwa [hsame]
    · obtain ⟨rfl, -⟩ := hhead hl'
      simp [hdead] at hst
  | answer n reply =>
    refine .inl ?_
    show a ∈ (d.executor.answer n reply).attempts
    rcases h.executor.answer_cases n reply with hsame | ⟨b, rest', hl', -, hst, -⟩
    · rwa [hsame]
    · obtain ⟨rfl, -⟩ := hhead hl'
      simp [hdead] at hst
  | resume n =>
    refine .inl ?_
    show a ∈ (d.executor.resume n).attempts
    rcases h.executor.resume_cases n with hsame | ⟨b, rest', hl', -, hcalling, -⟩
    · rwa [hsame]
    · obtain ⟨rfl, -⟩ := hhead hl'
      simp [Attempt.isCalling, hdead] at hcalling
  | kill n =>
    refine .inl ?_
    show a ∈ (d.executor.kill n).attempts
    rcases h.executor.kill_cases n with hsame | ⟨b, rest', hl', -, -, hkill⟩
    · rwa [hsame]
    · obtain ⟨rfl, -⟩ := hhead hl'
      rw [hkill, ← hdead]
      exact List.mem_cons_self
  | close => exact .inl ha

end DeskOK

namespace Fate

/-- What is decided about an attempt whose task died, stays decided. -/
theorem step (hf : Fate a o d.executor) (h : DeskOK spec d) (hdead : a.stage = .dead) (ev : DeskEvent) :
    Fate a o (d.step ev).executor := by
  have hx := h.ext_step ev
  cases hf with
  | lies ha ho =>
    rcases h.dead_cases ha hdead ev with hstill | ⟨i, rest, -, -, hstore⟩
    · refine .lies hstill ?_
      unfold Executor.dropped Executor.outcomeOf at ho ⊢
      rw [hx.key, ho]
    · rw [hstore, ho]
      exact .found List.mem_cons_self
  | found ha =>
    obtain ⟨⟨n, request, stage⟩, hb, rfl, rfl, hkeep⟩ := hx.attempts _ ha
    obtain rfl := hkeep o rfl
    exact .found hb

theorem run (hf : Fate a o d.executor) (h : DeskOK spec d) (hdead : a.stage = .dead) (es : List DeskEvent) :
    Fate a o (d.run es).executor := by
  induction es generalizing d with
  | nil => exact hf
  | cons ev es ih => exact ih (hf.step h hdead ev) (h.step ev)

end Fate

/-! ## Those who wait -/

section

variable (h : DeskOK spec d) (hf : Fate a o d.executor) (hdead : a.stage = .dead)
include h hf hdead

/-- **Who waits is handed the failure.** -/
theorem Fate.await? : ∃ e madeUp, d.executor.await? a.number = some (e, o, madeUp) ∧
    (o ∈ d.executor.results ∧ e = d.executor ∨ o ∉ d.executor.results ∧ e.slot = none) := by
  cases hf with
  | lies ha ho =>
    have hu : a.Unsettled := Attempt.unsettled_of_stage hdead rfl
    obtain ⟨⟨rest, hl⟩, -⟩ := h.executor.head_of_unsettled ha hu
    -- the failure is made up now; all that is stored is older
    refine ⟨d.executor.store a rest o, true, ?_, .inr ⟨fun hmem => ?_, rfl⟩⟩
    · unfold Executor.await?
      rw [h.executor.attempt?_eq_some.2 ⟨ha, rfl⟩, ← ho]
      simp only [hdead, h.executor.settle_eq hl hu]
      rfl
    · have hlt := h.executor.results_lt hl hu o hmem
      rw [← ho] at hlt
      exact Int.lt_irrefl _ hlt
  | found ha =>
    exact ⟨_, false, h.executor.await?_settled ha rfl, .inl ⟨ExecutorOK.mem_results.2 ⟨_, ha, rfl⟩, rfl⟩⟩

/-- The first who looks leaves the slot empty, and the others change nothing at the executor. -/
theorem Fate.collect {least : Int} {entry : Entry} (hi : d.inquiries[i]? = some ⟨least, some entry, none⟩)
    (hn : entry.attempt? = some a.number) : ∃ e, d.step (.collect i) =
      { d with executor := e, inquiries := d.inquiries.set i ⟨least, some entry, some (.returned o)⟩ } ∧
    (o ∈ d.executor.results ∧ e = d.executor ∨ o ∉ d.executor.results ∧ e.slot = none) := by
  obtain ⟨e, madeUp, hawait, hcase⟩ := hf.await? h hdead
  refine ⟨e, ?_, hcase⟩
  show d.collect i = _
  unfold Desk.collect
  simp [hi, hn, hawait]

/-- Nothing else is stored under the number of the attempt. -/
theorem Fate.stored (hr : r ∈ d.executor.results) (hn : r.number = a.number) : r = o := by
  obtain ⟨b, hb, hst⟩ := ExecutorOK.mem_results.1 hr
  have hbn : b.number = a.number := (h.executor.outcome b hb r hst).1.symm.trans hn
  cases hf with
  | lies ha ho =>
    obtain rfl := h.executor.eq_of_number hb ha hbn
    simp [hdead] at hst
  | found ha =>
    obtain rfl := h.executor.eq_of_number hb ha hbn
    exact (Stage.settled.inj hst).symm

/-- Who has been handed the result of the attempt was handed the failure, which is stored then. -/
theorem Fate.told {q : Inquiry} (hq : q ∈ d.inquiries) (hn : q.attempt? = some a.number)
    (hr : q.ending = some (.returned r)) : r = o ∧ o ∈ d.executor.results := by
  obtain ⟨b, hb, hst, hrb, -, hhow⟩ := h.returned hq hr
  have hbn : b.number = a.number := by
    rcases hhow with hb' | ⟨hfound, -⟩
    · exact Option.some.inj (hb'.symm.trans hn)
    · simp [Inquiry.attempt?, hfound, Entry.attempt?] at hn
  have hmem : r ∈ d.executor.results := ExecutorOK.mem_results.2 ⟨b, hb, hst⟩
  have heq := hf.stored h hdead hmem (hrb.trans hbn)
  exact ⟨heq, heq ▸ hmem⟩

end

/-! ## Those who ask later -/

/-- Who asks when the failure is stored gets nothing up to it. -/
theorem DeskOK.onward (h : DeskOK spec d) (hstored : o ∈ d.executor.results) (more : List DeskEvent)
    (hi : d.inquiries.length ≤ i) {least : Int} (hq : (d.run more).inquiries[i]? = some ⟨least, none, none⟩) :
    ∃ entry ending, ((d.run more).step (.look i)).inquiries[i]? = some ⟨least, some entry, ending⟩ ∧
      Onward o.number (d.run more).executor least entry := by
  have hd := h.run more
  have hlater : Later d (d.run more) := (Later.refl d).run h more
  have hleast := (hlater.above i _ hi hq).least o hstored
  have hmem := hlater.results hstored
  have hlt := (List.getElem?_eq_some_iff.1 hq).1
  rw [DeskOK.step_look _ hq]
  refine ⟨_, _, List.getElem?_set_self hlt, ?_⟩
  rcases (d.run more).executor.join_cases least (d.run more).supply with
    ⟨r, hj, hlast, hr⟩ | ⟨n, hj, hslot, -⟩ | ⟨hj, hslot, -⟩ <;> rw [hj]
  · exact .finds hlast hr (Int.lt_trans hleast hr)
  · exact .joins hslot (hd.executor.slot_above hslot o hmem)
  · have := hd.executor.results_drawn o hmem
    exact .starts hslot (by omega)

/-- Who asks and looks when the slot is empty starts an attempt, under a number not drawn before. -/
theorem DeskOK.restart (h : DeskOK spec d) (hslot : d.executor.slot = none) :
    ∃ least n, d.supply.number < n ∧
      (d.run [.ask, .look d.inquiries.length]).inquiries[d.inquiries.length]? =
        some ⟨least, some (.started n), none⟩ ∧
      (d.run [.ask, .look d.inquiries.length]).executor.slot = some n := by
  have hask := h.step .ask
  have hi : (d.step .ask).inquiries[d.inquiries.length]? = some ⟨d.supply.number + 1, none, none⟩ := by
    simp [Desk.step, Supply.drawNumber]
  have hnew : (d.step .ask).executor.newerThan? (d.supply.number + 1) = none :=
    hask.newerThan?_eq_none (Int.le_refl _)
  have hempty : (d.step .ask).executor.slot = none := hslot
  refine ⟨d.supply.number + 1, d.supply.number + 1 + 1, by omega, ?_⟩
  show ((d.step .ask).step (.look _)).inquiries[_]? = _ ∧ ((d.step .ask).step (.look _)).executor.slot = _
  rw [DeskOK.step_look _ hi]
  unfold Executor.join
  rw [hnew, hempty]
  exact ⟨List.getElem?_set_self (List.getElem?_eq_some_iff.1 hi).1, rfl⟩

/-! ## The theorem -/

/-- **An attempt whose task died,** at a later state of the desk, and the failure that stands for its outcome. -/
structure DeadAttempt (spec : QuerySpec) (a : Attempt) (o : NumberedOutcome) (d : Desk) : Prop where
  /-- The failure is a cancellation under the number and the request of the attempt. -/
  failure : o = ⟨a.number, ⟨spec.key, a.request, .error .executionDropped⟩⟩ ∧
    Error.executionDropped.code = .cancelled
  /-- Whoever waits for the attempt and looks is handed this failure, -/
  resolves : ∀ i least entry, d.inquiries[i]? = some ⟨least, some entry, none⟩ →
    entry.attempt? = some a.number →
    (d.step (.collect i)).inquiries[i]? = some ⟨least, some entry, some (.returned o)⟩
  /-- as was everybody who has been handed its result. -/
  told : ∀ q ∈ d.inquiries, q.attempt? = some a.number → ∀ r, q.ending = some (.returned r) → r = o
  /-- From the first of them on, the failure is stored and the attempt is not in the slot. -/
  freed : d.IsTold a.number → o ∈ d.executor.results ∧ d.executor.slot ≠ some a.number
  /-- The first leaves the slot empty; the others change nothing at the executor, whoever is in the slot. -/
  collects : ∀ i least entry, d.inquiries[i]? = some ⟨least, some entry, none⟩ →
    entry.attempt? = some a.number →
    o ∉ d.executor.results ∧ (d.step (.collect i)).executor.slot = none ∨
      o ∈ d.executor.results ∧ (d.step (.collect i)).executor = d.executor
  /-- Nothing else is stored under the number of the attempt, and the failure at most once. -/
  once : d.executor.results.Nodup ∧ ∀ r ∈ d.executor.results, r.number = a.number → r = o
  /-- When it is stored, all that is stored is older, and the last success stays. -/
  published : ∀ ev, o ∉ d.executor.results → o ∈ (d.step ev).executor.results →
    d.executor.Publishes (d.step ev).executor o ∧ (∀ r ∈ d.executor.results, r.number < o.number) ∧
      (d.step ev).executor.lastSuccess = d.executor.lastSuccess
  /-- Whoever asks from the first of them on starts an attempt with a larger number when the slot is empty,
  joins one with a larger number, or finds the result of one. -/
  onward : d.IsTold a.number → ∀ more i least, d.inquiries.length ≤ i →
    (d.run more).inquiries[i]? = some ⟨least, none, none⟩ →
    ∃ entry ending, ((d.run more).step (.look i)).inquiries[i]? = some ⟨least, some entry, ending⟩ ∧
      Onward a.number (d.run more).executor least entry
  /-- If the slot is empty, whoever asks and looks starts one. -/
  restarts : d.IsTold a.number → d.executor.slot = none → ∃ least n, a.number < n ∧
    (d.run [.ask, .look d.inquiries.length]).inquiries[d.inquiries.length]? =
      some ⟨least, some (.started n), none⟩ ∧
    (d.run [.ask, .look d.inquiries.length]).executor.slot = some n
  /-- Nobody who asks then is handed this failure or anything older. -/
  handed : d.IsTold a.number → ∀ more i q r, d.inquiries.length ≤ i → (d.run more).inquiries[i]? = some q →
    q.ending = some (.returned r) → a.number < r.number

/-- **A task that dies blocks nobody.** Whatever happens at an executor before the task of an attempt dies and
after: all who wait for the attempt are handed one and the same failure, which is stored once, and from the first
of them on others make new attempts. -/
theorem dead_attempt (spec : QuerySpec) (closed : Bool) (s : Supply) (before after : List DeskEvent)
    (ha : a ∈ ((Desk.fresh spec closed s).run before).executor.attempts) (hdead : a.stage = .dead) :
    DeadAttempt spec a (((Desk.fresh spec closed s).run before).executor.dropped a)
      (((Desk.fresh spec closed s).run before).run after) := by
  have hfresh := DeskOK.fresh spec closed s
  have h₀ := hfresh.run before
  have hkey : ((Desk.fresh spec closed s).run before).executor.key = spec.key := hfresh.key_run before
  generalize (Desk.fresh spec closed s).run before = d₀ at ha h₀ hkey ⊢
  -- the failure is fixed from here on, whoever makes it up
  have ho : d₀.executor.dropped a = ⟨a.number, ⟨spec.key, a.request, .error .executionDropped⟩⟩ := by
    rw [← hkey]; rfl
  have h := h₀.run after
  have hf : Fate a (d₀.executor.dropped a) (d₀.run after).executor := (Fate.lies ha rfl).run h₀ hdead after
  generalize d₀.executor.dropped a = o at ho hf ⊢
  generalize d₀.run after = d at h hf ⊢
  have hnum : o.number = a.number := by rw [ho]
  have hstored : d.IsTold a.number → o ∈ d.executor.results := by
    rintro ⟨q, hq, hn, r, hr⟩
    exact (hf.told h hdead hq hn hr).2
  constructor
  case failure => exact ⟨ho, rfl⟩
  case resolves =>
    intro i least entry hi hn
    obtain ⟨e, hstep, -⟩ := hf.collect h hdead hi hn
    rw [hstep]
    exact List.getElem?_set_self (List.getElem?_eq_some_iff.1 hi).1
  case told => exact fun q hq hn r hr => (hf.told h hdead hq hn hr).1
  case freed =>
    intro htold
    refine ⟨hstored htold, fun hslot => ?_⟩
    have := h.executor.slot_above hslot o (hstored htold)
    omega
  case collects =>
    intro i least entry hi hn
    obtain ⟨e, hstep, hcase⟩ := hf.collect h hdead hi hn
    rw [hstep]
    exact hcase.symm
  case once =>
    refine ⟨h.executor.results_ordered.imp fun {o r} hlt heq => ?_, fun r hr hn => hf.stored h hdead hr hn⟩
    rw [heq] at hlt
    exact Int.lt_irrefl _ hlt
  case published =>
    intro ev hnot hmem
    -- an event stores one result at most, and this must be it
    rcases Desk.stored_cases h ev with hrest | ⟨r, hpub⟩
    · rw [hrest.results] at hmem
      exact absurd hmem hnot
    rw [hpub.results] at hmem
    obtain rfl : o = r := (List.mem_cons.1 hmem).resolve_right hnot
    have hord := (h.step ev).executor.results_ordered
    rw [hpub.results] at hord
    refine ⟨hpub, fun r hr => List.rel_of_pairwise_cons hord hr, ?_⟩
    rw [hpub.lastSuccess, ho]
    rfl
  case onward =>
    intro htold more i least hi hq
    rw [← hnum]
    exact h.onward (hstored htold) more hi hq
  case restarts =>
    intro htold hslot
    obtain ⟨least, n, hlt, hstarted⟩ := h.restart hslot
    have := h.executor.results_drawn o (hstored htold)
    exact ⟨least, n, by omega, hstarted⟩
  case handed =>
    intro htold more i q r hi hq hr
    rw [← hnum]
    exact ((Later.refl d).run h more).returned (h.run more) hi hq hr o (hstored htold)

/-- The task of the first attempt at a query dies before its first step. -/
def diedRun : List DeskEvent := [.ask, .look 0, .kill 2]

/-- Two wait and are told, and a third asks. -/
def toldRun : List DeskEvent := [.ask, .look 1, .collect 1, .collect 0, .ask, .look 2]

theorem dead_attempt_replaced :
    DeadAttempt ⟨"GetMovie", []⟩ ⟨2, ⟨1⟩, .dead⟩
      (((Desk.fresh ⟨"GetMovie", []⟩ false {}).run diedRun).executor.dropped ⟨2, ⟨1⟩, .dead⟩)
      (((Desk.fresh ⟨"GetMovie", []⟩ false {}).run diedRun).run toldRun) ∧
    (((Desk.fresh ⟨"GetMovie", []⟩ false {}).run diedRun).run toldRun).IsTold 2 ∧
    (((Desk.fresh ⟨"GetMovie", []⟩ false {}).run diedRun).run toldRun).executor.slot = some 5 :=
  ⟨dead_attempt _ _ _ diedRun toldRun List.mem_cons_self rfl, ⟨_, List.mem_cons_self, rfl, _, rfl⟩, rfl⟩

/-- **Of two who ask when the failure has been handed out** and the slot is empty, the first starts an attempt
and the second joins it. -/
theorem second_asker_joins :
    ((Desk.fresh ⟨"GetMovie", []⟩ false {}).run (diedRun ++ [.collect 0])).IsTold 2 ∧
    ((Desk.fresh ⟨"GetMovie", []⟩ false {}).run (diedRun ++ [.collect 0])).executor.slot = none ∧
    ((Desk.fresh ⟨"GetMovie", []⟩ false {}).run
      (diedRun ++ [.collect 0] ++ [.ask, .look 1, .ask, .look 2])).inquiries.map Inquiry.isStart =
        [true, true, false] :=
  ⟨⟨_, List.mem_cons_self, rfl, _, rfl⟩, rfl, rfl⟩

/-- A backend that panics kills the task. -/
example (spec : QuerySpec) :
    ((Desk.fresh spec false {}).run
      [.ask, .look 0, .begin 2, .answer 2 (.panicked "out of memory"), .resume 2]).executor.attempts =
        [⟨2, ⟨1⟩, .dead⟩] := rfl

end QueryClient
