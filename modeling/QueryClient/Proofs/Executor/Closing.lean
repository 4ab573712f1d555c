import QueryClient.Proofs.Executor.Freshness
import QueryClient.Proofs.Executor.SingleFlight

/-!
# After an executor was closed

What an attempt of a closed executor ends in is settled by how far it was at closing: an attempt
whose task had not begun, or that is started later, fails because the executor is closed, and one
that had called the backend is cancelled, even when the answer is there. Those who ask share the
failure of the attempt that they joined, so one who asks after closing is told of the cancellation
when it joins an attempt that was in flight.

* `Attempt.verdict`, `Executor.verdict`: what an attempt comes to once its executor is closed.
* `ClosedSince`: what has become of a desk since its executor was closed; verdicts stand unless a
  task dies. `ClosedSince.step`, `ClosedSince.run`.
* `AfterClose`, `after_close`: **what follows from closing,** for every run of an executor.
-/

namespace QueryClient

/-- **What the attempt ends in once its executor is closed,** unless its task dies. -/
def Attempt.verdict (a : Attempt) : Except Error OperationResult :=
  match a.stage with
  | .spawned => .error .executorClosed
  | .calling | .answered _ => .error .executionCancelled
  | .dead => .error .executionDropped
  | .settled o => o.value.result

/-- What the attempt with the given number ends in once the executor is closed; it may not have been
started yet. -/
def Executor.verdict (e : Executor) (number : Int) : Except Error OperationResult :=
  match e.attempt? number with
  | some a => a.verdict
  | none => .error .executorClosed

variable {spec : QuerySpec} {s : Supply} {e e' : Executor} {a b : Attempt} {rest : List Attempt}
variable {d d₀ : Desk} {es : List DeskEvent} {n : Int} {i : ℕ} {q : Inquiry} {o : NumberedOutcome}

theorem Attempt.verdict_of_isCalling (h : a.isCalling) : a.verdict = .error .executionCancelled := by
  unfold Attempt.isCalling at h
  unfold Attempt.verdict
  cases hst : a.stage <;> simp_all

/-- An attempt without an outcome comes to a failure. -/
theorem Attempt.verdict_of_unsettled (h : a.Unsettled) : ∃ err, a.verdict = .error err := by
  unfold Attempt.Unsettled at h
  unfold Attempt.verdict
  cases hst : a.stage with
  | settled o => rw [hst] at h; simp [Stage.outcome?] at h
  | _ => exact ⟨_, rfl⟩

namespace ExecutorOK

theorem verdict_of_mem (h : ExecutorOK s e) (ha : a ∈ e.attempts) : e.verdict a.number = a.verdict := by
  unfold Executor.verdict
  rw [h.attempt?_eq_some.2 ⟨ha, rfl⟩]

/-- An attempt that is not there yet comes to nothing but the closed executor. -/
theorem verdict_of_drawn (h : ExecutorOK s e) (hn : s.number < n) :
    e.verdict n = .error .executorClosed := by
  unfold Executor.verdict
  cases hf : e.attempt? n with
  | none => rfl
  | some a =>
    obtain ⟨ha, rfl⟩ := h.attempt?_eq_some.1 hf
    have := (h.drawn a ha).1
    omega

/-- An attempt without an outcome that ends is published. -/
theorem publishes_settle (h : ExecutorOK s e) (ha : a ∈ e.attempts) (hu : a.Unsettled)
    (result : Except Error OperationResult) :
    e.Publishes (e.settle a result) (e.outcomeOf a result) := by
  obtain ⟨⟨rest, hl⟩, -⟩ := h.head_of_unsettled ha hu
  rw [h.settle_eq hl hu result]
  exact h.publishes hl hu result

end ExecutorOK

/-! ## What has happened since -/

/-- **A desk some events after its executor was closed:** the backend was not called, no success was
stored, and each attempt still comes to what it came to at closing, unless its task died. -/
structure ClosedSince (d₀ : Desk) (es : List DeskEvent) (d : Desk) : Prop where
  closed : d.executor.closed = true
  calls : d.calls = d₀.calls
  lastSuccess : d.executor.lastSuccess = d₀.executor.lastSuccess
  drawn : d₀.supply.number ≤ d.supply.number
  attempts : ∀ b ∈ d.executor.attempts, b.verdict = d₀.executor.verdict b.number ∨
    DeskEvent.kill b.number ∈ es ∧ b.verdict = .error .executionDropped
  length : d₀.inquiries.length ≤ d.inquiries.length
  asked : ∀ i q, d₀.inquiries.length ≤ i → d.inquiries[i]? = some q → d₀.supply.number < q.least

namespace ClosedSince

theorem refl (h : DeskOK spec d) (hc : d.executor.closed = true) : ClosedSince d [] d := by
  refine ⟨hc, rfl, rfl, Int.le_refl _, ?_, Nat.le_refl _, ?_⟩
  · exact fun b hb => .inl (h.executor.verdict_of_mem hb).symm
  · intro i q hi hq
    have := (List.getElem?_eq_some_iff.1 hq).1
    omega

/-- More may have happened than was counted. -/
theorem mono (h : ClosedSince d₀ es d) (more : List DeskEvent) : ClosedSince d₀ (es ++ more) d :=
  { h with
    attempts := fun b hb => (h.attempts b hb).imp_right (And.imp_left (List.mem_append_left more)) }

/-- Somebody draws. -/
theorem draw (h : ClosedSince d₀ es d) {s' : Supply} (hs : d.supply.number ≤ s'.number) :
    ClosedSince d₀ es { d with supply := s' } :=
  { h with drawn := Int.le_trans h.drawn hs }

/-- An inquiry goes on with the number that it drew. -/
theorem set (h : ClosedSince d₀ es d) {q' : Inquiry} (hi : d.inquiries[i]? = some q)
    (hq : q'.least = q.least) : ClosedSince d₀ es { d with inquiries := d.inquiries.set i q' } := by
  refine { h with length := ?_, asked := ?_ }
  · show _ ≤ (d.inquiries.set i q').length
    rw [List.length_set]
    exact h.length
  intro j p hj hp
  have hlt := (List.getElem?_eq_some_iff.1 hi).1
  by_cases hij : i = j
  · subst hij
    obtain rfl : q' = p := Option.some.inj ((List.getElem?_set_self hlt).symm.trans hp)
    rw [hq]
    exact h.asked i q hj hi
  · exact h.asked j p hj ((List.getElem?_set_ne hij).symm.trans hp)

/-- The youngest attempt goes on, or its task dies. -/
theorem of_head (h : ClosedSince d₀ es d) {st : Stage} (hl : d.executor.attempts = a :: rest)
    (hl' : e'.attempts = { a with stage := st } :: rest) (hc : e'.closed = d.executor.closed)
    (hsucc : e'.lastSuccess = d.executor.lastSuccess)
    (hv : ({ a with stage := st } : Attempt).verdict = a.verdict ∨
      DeskEvent.kill a.number ∈ es ∧ ({ a with stage := st } : Attempt).verdict = .error .executionDropped) :
    ClosedSince d₀ es { d with executor := e' } := by
  have hattempts := h.attempts
  rw [hl] at hattempts
  refine { h with
    closed := hc.trans h.closed
    lastSuccess := hsucc.trans h.lastSuccess
    attempts := ?_ }
  show ∀ b ∈ e'.attempts, _
  rw [hl']
  intro b hb
  rcases List.mem_cons.1 hb with rfl | hb
  · rcases hv with hv | hv
    · rw [hv]; exact hattempts a List.mem_cons_self
    · exact .inr hv
  · exact hattempts b (List.mem_cons_of_mem _ hb)

/-- The youngest attempt ends in the failure that it comes to. -/
theorem of_store (h : ClosedSince d₀ es d) (hl : d.executor.attempts = a :: rest) {err : Error}
    (hv : a.verdict = .error err) :
    ClosedSince d₀ es
      { d with executor := d.executor.store a rest (d.executor.outcomeOf a (.error err)) } :=
  h.of_head hl rfl rfl rfl (.inl hv.symm)

theorem look (h : ClosedSince d₀ es d) (hd₀ : DeskOK spec d₀) (i : ℕ) : ClosedSince d₀ es (d.look i) := by
  rcases d.look_cases i with hsame | ⟨least, executor, supply, entry, hi, hj, hlook⟩
  · rw [hsame]; exact h
  rw [hlook]
  rcases d.executor.join_cases least d.supply with
    ⟨o, hj', -⟩ | ⟨n, hj', -⟩ | ⟨hj', -⟩ <;> rw [hj'] at hj <;> obtain ⟨rfl, rfl, rfl⟩ := hj
  · exact h.set hi rfl
  · exact h.set hi rfl
  · -- the new attempt is numbered above all that was drawn before closing
    have hdrawn := h.drawn
    have hnew : d₀.executor.verdict (d.supply.number + 1) = .error .executorClosed :=
      hd₀.executor.verdict_of_drawn (by omega)
    have hstart : ClosedSince d₀ es { d with
        executor := d.executor.start (d.supply.number + 1) ⟨d.supply.request + 1⟩
        supply := ⟨d.supply.number + 1, d.supply.request + 1⟩ } := by
      refine { h with drawn := ?_, attempts := ?_ }
      · show d₀.supply.number ≤ d.supply.number + 1
        omega
      · intro b hb
        rcases List.mem_cons.1 hb with rfl | hb
        · exact .inl hnew.symm
        · exact h.attempts b hb
    exact hstart.set hi rfl

theorem collect (h : ClosedSince d₀ es d) (hd : DeskOK spec d) (i : ℕ) :
    ClosedSince d₀ es (d.collect i) := by
  rcases d.collect_cases i with hsame | ⟨least, entry, n, e', o, madeUp, hi, -, hw, hcollect⟩
  · rw [hsame]; exact h
  rw [hcollect]
  rcases hd.executor.await?_cases hw with ⟨rfl, -⟩ | ⟨a, rest, hl, -, hst, rfl, rfl⟩
  · exact h.set hi rfl
  · exact (h.of_store hl (by unfold Attempt.verdict; rw [hst])).set hi rfl

theorem begin (h : ClosedSince d₀ es d) (hd : DeskOK spec d) (n : Int) :
    ClosedSince d₀ es (d.begin n) := by
  rcases d.begin_cases hd.executor n with hsame | ⟨a, rest, hl, -, hst, ⟨hc, -⟩ | ⟨-, hb⟩⟩
  · rw [hsame]; exact h
  · rw [h.closed] at hc
    simp at hc
  · rw [hb]
    exact h.of_store hl (by unfold Attempt.verdict; rw [hst])

theorem resume (h : ClosedSince d₀ es d) (hd : DeskOK spec d) (n : Int) :
    ClosedSince d₀ es { d with executor := d.executor.resume n } := by
  rcases hd.executor.resume_cases n with hb | ⟨a, rest, hl, -, hcalling, ⟨-, hb⟩ | ⟨hc, -⟩⟩
  · rw [hb]; exact h
  · rw [hb]
    exact h.of_store hl (Attempt.verdict_of_isCalling hcalling)
  · rw [h.closed] at hc
    simp at hc

/-- **Verdicts stand:** whatever happens at a closed executor, each attempt still comes to what it
came to before, unless its task dies. -/
theorem step (h : ClosedSince d₀ es d) (hd₀ : DeskOK spec d₀) (hd : DeskOK spec d) (ev : DeskEvent) :
    ClosedSince d₀ (es ++ [ev]) (d.step ev) := by
  have hev : ev ∈ es ++ [ev] := List.mem_append_right _ List.mem_cons_self
  have h := h.mono [ev]
  cases ev with
  | drawn numbers requests => exact h.draw (by show _ ≤ d.supply.number + numbers; omega)
  | ask =>
    have hdrawn := h.drawn
    refine { h with drawn := ?_, length := ?_, asked := ?_ }
    · show d₀.supply.number ≤ d.supply.number + 1
      omega
    · show _ ≤ (d.inquiries ++ [_]).length
      have := h.length
      rw [List.length_append]
      omega
    intro i q hi hq
    have hq : (d.inquiries ++ [({ least := d.supply.number + 1 } : Inquiry)])[i]? = some q := hq
    rcases Nat.lt_or_ge i d.inquiries.length with hlt | hge
    · exact h.asked i q hi ((List.getElem?_append_left hlt).symm.trans hq)
    · rw [List.getElem?_append_right hge] at hq
      obtain rfl := List.mem_singleton.1 (List.mem_of_getElem? hq)
      show d₀.supply.number < d.supply.number + 1
      omega
  | look i => exact h.look hd₀ i
  | collect i => exact h.collect hd i
  | leave i =>
    show ClosedSince d₀ _ (d.leave i)
    rcases d.leave_cases i with hsame | ⟨least, entry, hi, hleave⟩
    · rw [hsame]; exact h
    · rw [hleave]; exact h.set hi rfl
  | begin n => exact h.begin hd n
  | answer n reply =>
    show ClosedSince d₀ _ { d with executor := d.executor.answer n reply }
    rcases hd.executor.answer_cases n reply with hb | ⟨a, rest, hl, -, hst, hb⟩ <;> rw [hb]
    · exact h
    · exact h.of_head hl rfl rfl rfl (.inl (by unfold Attempt.verdict; rw [hst]))
  | resume n => exact h.resume hd n
  | kill n =>
    show ClosedSince d₀ _ { d with executor := d.executor.kill n }
    rcases hd.executor.kill_cases n with hb | ⟨a, rest, hl, rfl, -, hb⟩ <;> rw [hb]
    · exact h
    · exact h.of_head hl rfl rfl rfl (.inr ⟨hev, rfl⟩)
  | close => exact { h with closed := rfl }

theorem run (h : ClosedSince d₀ es d) (hd₀ : DeskOK spec d₀) (hd : DeskOK spec d)
    (more : List DeskEvent) : ClosedSince d₀ (es ++ more) (d.run more) := by
  induction more generalizing es d with
  | nil => rw [List.append_nil]; exact h
  | cons ev more ih =>
    have := ih (h.step hd₀ hd ev) (hd.step ev)
    rwa [List.append_assoc] at this

/-- What an attempt ended in, whose task did not die. -/
theorem settled (h : ClosedSince d₀ es d) (hb : b ∈ d.executor.attempts) (hst : b.stage = .settled o)
    (hlives : DeskEvent.kill b.number ∉ es) : o.value.result = d₀.executor.verdict b.number := by
  have hv : b.verdict = o.value.result := by unfold Attempt.verdict; rw [hst]
  rcases h.attempts b hb with hverdict | ⟨hkill, -⟩
  · rw [← hv, hverdict]
  · exact absurd hkill hlives

end ClosedSince

/-! ## Those who ask -/

/-- What an inquiry is handed is what the attempt comes to that it started, joined or found, unless
the task dies. -/
theorem ClosedSince.handed (h : ClosedSince d₀ es d) (hd : DeskOK spec d) (hq : q ∈ d.inquiries)
    (ho : q.ending = some (.returned o)) (hlives : DeskEvent.kill o.number ∉ es) :
    o.value.result = d₀.executor.verdict o.number := by
  obtain ⟨a, ha, hst, hn, -⟩ := hd.returned hq ho
  rw [hn] at hlives ⊢
  exact h.settled ha hst hlives

/-- **Who asks after closing** is told that the executor is closed, unless it joins an attempt that
had begun and had no outcome. -/
theorem ClosedSince.handed_later (h : ClosedSince d₀ es d) (hd₀ : DeskOK spec d₀) (hd : DeskOK spec d)
    (hlater : Later d₀ d) (hi : d₀.inquiries.length ≤ i) (hq : d.inquiries[i]? = some q)
    (ho : q.ending = some (.returned o)) (hlives : DeskEvent.kill o.number ∉ es) :
    o.value.result = .error .executorClosed ∨ ∃ a ∈ d₀.executor.attempts, a.Unsettled ∧ a.hasBegun ∧
      q.attempt? = some a.number ∧ o.value.result = a.verdict := by
  have hmem := List.mem_of_getElem? hq
  have hresult := h.handed hd hmem ho hlives
  obtain ⟨b, hb, hbo, hnum, -, hhow⟩ := hd.returned hmem ho
  rcases hhow with hattempt | ⟨hfound, hlt⟩
  · rw [hresult, hnum]
    cases hf : d₀.executor.attempt? b.number with
    | none => exact .inl (by unfold Executor.verdict; rw [hf])
    | some a =>
      obtain ⟨ha, han⟩ := hd₀.executor.attempt?_eq_some.1 hf
      have hverdict : d₀.executor.verdict b.number = a.verdict := by
        rw [← han]; exact hd₀.executor.verdict_of_mem ha
      rw [hverdict]
      -- what was stored at closing is too old for one who asks later
      have hu : a.Unsettled := by
        unfold Attempt.Unsettled
        cases hout : a.stage.outcome? with
        | none => rfl
        | some r =>
          have hst := Stage.outcome?_eq_some.1 hout
          have hr := (hd₀.executor.outcome a ha r hst).1
          have habove := (hlater.above i q hi hq).attempt _ hattempt r
            (ExecutorOK.mem_results.2 ⟨a, ha, hst⟩)
          omega
      cases hbegun : a.hasBegun with
      | true => exact .inr ⟨a, ha, hu, hbegun, by rw [han]; exact hattempt, rfl⟩
      | false =>
        refine .inl ?_
        unfold Attempt.hasBegun at hbegun
        unfold Attempt.verdict
        cases hst : a.stage <;> simp_all
  · have hasked := h.asked i q hi hq
    rw [hresult, hnum]
    exact .inl (hd₀.executor.verdict_of_drawn (by omega))

/-- When nothing can go on at a closed executor, nobody waits. -/
theorem ClosedSince.ended_of_quiet (h : ClosedSince d₀ es d) (hd : DeskOK spec d) (hquiet : d.Quiet)
    (hq : q ∈ d.inquiries) : q.ending ≠ none := by
  intro hend
  obtain ⟨n, hn, hwait⟩ := hquiet.inquiries q hq hend
  obtain ⟨a, ha, rfl⟩ := (hd.inquiries q hq).known n hn
  have hst : d.executor.stage? a.number = some a.stage :=
    hd.executor.stage?_eq_some.2 ⟨a, ha, rfl, rfl⟩
  have hready := hquiet.attempts a ha
  unfold Executor.attemptReady at hready
  unfold Executor.awaitReady at hwait
  rw [hst] at hready hwait
  cases hs : a.stage <;> simp_all [h.closed]

/-- What ended since closing is a failure. -/
theorem ClosedSince.failed (h : ClosedSince d₀ es d) (hd₀ : DeskOK spec d₀) (hd : DeskOK spec d)
    (hlater : Later d₀ d) (ho : o ∈ d.executor.results) (hnew : o ∉ d₀.executor.results) :
    ∃ err, o.value.result = .error err := by
  obtain ⟨b, hb, hst⟩ := ExecutorOK.mem_results.1 ho
  have hv : b.verdict = o.value.result := by unfold Attempt.verdict; rw [hst]
  rw [← hv]
  rcases h.attempts b hb with hverdict | ⟨-, hdropped⟩
  swap
  · exact ⟨_, hdropped⟩
  rw [hverdict]
  cases hf : d₀.executor.attempt? b.number with
  | none => exact ⟨.executorClosed, by unfold Executor.verdict; rw [hf]⟩
  | some a =>
    obtain ⟨ha, han⟩ := hd₀.executor.attempt?_eq_some.1 hf
    rw [← han, hd₀.executor.verdict_of_mem ha]
    refine Attempt.verdict_of_unsettled ?_
    unfold Attempt.Unsettled
    cases hout : a.stage.outcome? with
    | none => rfl
    | some r =>
      -- an attempt keeps the outcome that it had at closing
      have hast := Stage.outcome?_eq_some.1 hout
      have hr : r ∈ d₀.executor.results := ExecutorOK.mem_results.2 ⟨a, ha, hast⟩
      obtain ⟨c, hc, hcr⟩ := ExecutorOK.mem_results.1 (hlater.results hr)
      have hrn := (hd₀.executor.outcome a ha r hast).1
      have hcn := (hd.executor.outcome c hc r hcr).1
      obtain rfl := hd.executor.eq_of_number hc hb (hcn.symm.trans (hrn.trans han))
      obtain rfl := Stage.settled.inj (hst.symm.trans hcr)
      exact absurd hr hnew

/-- What ends in a run was not stored before, and is stored in the end. -/
theorem DeskOK.completions_new (h : DeskOK spec d) (ho : o ∈ d.completions es) :
    o ∈ (d.run es).executor.results ∧ o ∉ d.executor.results := by
  have hres := h.results_run es
  have hord := (h.run es).executor.results_ordered
  rw [hres] at hord ⊢
  refine ⟨List.mem_append_left _ (List.mem_reverse.2 ho), fun hold => ?_⟩
  exact Int.lt_irrefl _ ((List.pairwise_append.1 hord).2.2 o (List.mem_reverse.2 ho) o hold)

/-- **At a closed executor, the next step of an attempt's task ends it,** and publishes what it comes
to. -/
theorem ClosedSince.ends (h : ClosedSince d₀ es d) (hd : DeskOK spec d) (hb : b ∈ d.executor.attempts) :
    (b.stage = .spawned → d.executor.Publishes (d.step (.begin b.number)).executor
      (d.executor.outcomeOf b (.error .executorClosed))) ∧
    (b.isCalling → d.executor.Publishes (d.step (.resume b.number)).executor
      (d.executor.outcomeOf b (.error .executionCancelled))) := by
  have hfind := hd.executor.attempt?_eq_some.2 ⟨hb, rfl⟩
  constructor
  · intro hst
    have hsettles : (d.begin b.number).executor = d.executor.settle b (.error .executorClosed) := by
      unfold Desk.begin
      rw [hd.executor.stage?_eq_some.2 ⟨b, hb, rfl, hst⟩]
      have hbegin : d.executor.begin b.number = d.executor.settle b (.error .executorClosed) := by
        unfold Executor.begin
        rw [hfind]
        simp only [hst, h.closed, if_true]
      rw [← hbegin]
      dsimp only
      split <;> rfl
    show d.executor.Publishes (d.begin b.number).executor _
    rw [hsettles]
    exact hd.executor.publishes_settle hb (Attempt.unsettled_of_stage hst rfl) _
  · intro hcalling
    have hsettles : d.executor.resume b.number = d.executor.settle b (.error .executionCancelled) := by
      unfold Executor.resume
      unfold Attempt.isCalling at hcalling
      rw [hfind]
      cases hst : b.stage <;> simp_all [h.closed]
    show d.executor.Publishes (d.executor.resume b.number) _
    rw [hsettles]
    exact hd.executor.publishes_settle hb (ExecutorOK.unsettled_of_isCalling hcalling) _

/-! ## The theorem -/

/-- **After closing:** the executor of the desk has just been closed, and the events follow. -/
structure AfterClose (d₀ : Desk) (es : List DeskEvent) : Prop where
  /-- The backend is not called any more. -/
  calls : (d₀.run es).calls = d₀.calls
  /-- An attempt whose task had not begun, or that is started later, fails since the executor is
  closed, -/
  unbegun : ∀ b ∈ (d₀.run es).executor.attempts,
    (∀ a ∈ d₀.executor.attempts, a.number = b.number → a.stage = .spawned) →
    DeskEvent.kill b.number ∉ es → ∀ o, b.stage = .settled o → o.value.result = .error .executorClosed
  /-- and one that had called the backend and had no outcome is cancelled, whether the answer is
  there or comes later. -/
  in_flight : ∀ a ∈ d₀.executor.attempts, a.isCalling → DeskEvent.kill a.number ∉ es →
    ∀ b ∈ (d₀.run es).executor.attempts, b.number = a.number →
    ∀ o, b.stage = .settled o → o.value.result = .error .executionCancelled
  /-- The next step of an attempt's task ends it so, and publishes the failure. -/
  ends : ∀ b ∈ (d₀.run es).executor.attempts,
    (b.stage = .spawned → (d₀.run es).executor.Publishes ((d₀.run es).step (.begin b.number)).executor
      ((d₀.run es).executor.outcomeOf b (.error .executorClosed))) ∧
    (b.isCalling → (d₀.run es).executor.Publishes ((d₀.run es).step (.resume b.number)).executor
      ((d₀.run es).executor.outcomeOf b (.error .executionCancelled)))
  /-- Who started or joined an attempt is handed what the attempt comes to. -/
  handed : ∀ q ∈ (d₀.run es).inquiries, ∀ o, q.ending = some (.returned o) →
    DeskEvent.kill o.number ∉ es → o.value.result = d₀.executor.verdict o.number ∧
    (q.attempt? = some o.number ∨ q.entry = some (.found o) ∧ q.least < o.number)
  /-- Who asks from here on is told that the executor is closed, unless it joins an attempt that had
  begun and had no outcome: then it is told what became of that. -/
  asked_later : ∀ i q o, d₀.inquiries.length ≤ i → (d₀.run es).inquiries[i]? = some q →
    q.ending = some (.returned o) → DeskEvent.kill o.number ∉ es →
    o.value.result = .error .executorClosed ∨ ∃ a ∈ d₀.executor.attempts, a.Unsettled ∧ a.hasBegun ∧
      q.attempt? = some a.number ∧ o.value.result = a.verdict
  /-- An attempt whose task dies fails by that. -/
  killed : ∀ b ∈ (d₀.run es).executor.attempts, ∀ o, b.stage = .settled o →
    o.value.result = d₀.executor.verdict b.number ∨
    DeskEvent.kill b.number ∈ es ∧ o.value.result = .error .executionDropped
  /-- When nothing can go on, nobody waits. -/
  resolved : (d₀.run es).Quiet → ∀ q ∈ (d₀.run es).inquiries, q.ending ≠ none
  /-- What ends from here on is a failure, published once under the number of its attempt. -/
  published : (∀ o ∈ d₀.completions es, (∃ err, o.value.result = .error err) ∧
      ∃ b ∈ (d₀.run es).executor.attempts, b.number = o.number ∧ b.stage = .settled o) ∧
    (d₀.completions es).Pairwise (fun o r => o.number < r.number) ∧
    (d₀.run es).executor.results = (d₀.completions es).reverse ++ d₀.executor.results
  /-- The last success stays. -/
  lastSuccess : (d₀.run es).executor.lastSuccess = d₀.executor.lastSuccess

/-- **Closed or cancelled:** whatever happened before an executor is closed and whatever happens
then, the backend is not called any more, an attempt that had called it is cancelled, every other
fails since the executor is closed, and those who ask are told of the attempt that they joined. -/
theorem after_close (spec : QuerySpec) (closed : Bool) (s : Supply) (before after : List DeskEvent) :
    AfterClose (((Desk.fresh spec closed s).run before).step .close) after := by
  have hd₀ := ((DeskOK.fresh spec closed s).run before).step .close
  generalize hclose : ((Desk.fresh spec closed s).run before).step .close = d₀ at hd₀
  have hclosed : d₀.executor.closed = true := by rw [← hclose]; rfl
  have hd := hd₀.run after
  have h : ClosedSince d₀ after (d₀.run after) := (ClosedSince.refl hd₀ hclosed).run hd₀ hd₀ after
  have hlater : Later d₀ (d₀.run after) := (Later.refl d₀).run hd₀ after
  constructor
  case calls => exact h.calls
  case unbegun =>
    intro b hb hspawned hlives o hst
    rw [h.settled hb hst hlives]
    unfold Executor.verdict
    cases hf : d₀.executor.attempt? b.number with
    | none => rfl
    | some a =>
      obtain ⟨ha, han⟩ := hd₀.executor.attempt?_eq_some.1 hf
      show a.verdict = _
      unfold Attempt.verdict
      rw [hspawned a ha han]
  case in_flight =>
    intro a ha hcalling hlives b hb hn o hst
    rw [← hn] at hlives
    rw [h.settled hb hst hlives, hn, hd₀.executor.verdict_of_mem ha]
    exact Attempt.verdict_of_isCalling hcalling
  case ends => exact fun b hb => h.ends hd hb
  case handed =>
    intro q hq o ho hlives
    refine ⟨h.handed hd hq ho hlives, ?_⟩
    obtain ⟨a, -, -, hn, -, hhow⟩ := hd.returned hq ho
    rw [hn]
    exact hhow
  case asked_later =>
    exact fun i q o hi hq ho hlives => h.handed_later hd₀ hd hlater hi hq ho hlives
  case killed =>
    intro b hb o hst
    have hv : b.verdict = o.value.result := by unfold Attempt.verdict; rw [hst]
    rw [← hv]
    exact h.attempts b hb
  case resolved => exact fun hquiet q hq => h.ended_of_quiet hd hquiet hq
  case published =>
    refine ⟨fun o ho => ?_, ?_, hd₀.results_run after⟩
    · obtain ⟨hmem, hnew⟩ := hd₀.completions_new ho
      obtain ⟨b, hb, hst⟩ := ExecutorOK.mem_results.1 hmem
      exact ⟨h.failed hd₀ hd hlater hmem hnew, b, hb, (hd.executor.outcome b hb o hst).1.symm, hst⟩
    · have hord := hd.executor.results_ordered
      rw [hd₀.results_run after] at hord
      exact List.pairwise_reverse.1 (List.pairwise_append.1 hord).1
  case lastSuccess => exact h.lastSuccess

/-- **Who asks after closing and joins an attempt in flight is told of a cancellation,** as is who
asked before. -/
theorem joined_after_close : ∃ o err,
    ((Desk.fresh ⟨"GetMovie", []⟩ false {}).run
      [.ask, .look 0, .begin 2, .close, .ask, .look 1, .resume 2, .collect 1]).inquiries[1]?.bind
        Inquiry.ending = some (.returned o) ∧
    o.value.result = .error err ∧ err.code = .cancelled := by
  refine ⟨_, _, rfl, rfl, rfl⟩

/-- Who asked before closing is told that the executor is closed when the task had not begun. -/
example (spec : QuerySpec) :
    (((Desk.fresh spec false {}).run [.ask, .look 0, .close, .begin 2, .collect 0]).inquiries.map
      Inquiry.ending) = [some (.returned ⟨2, ⟨spec.key, ⟨1⟩, .error .executorClosed⟩⟩)] := rfl

end QueryClient
