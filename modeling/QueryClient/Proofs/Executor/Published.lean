import QueryClient.Proofs.Executor.Desk

/-!
# What an executor publishes

An attempt that ends publishes its outcome: it is stored if it is newer than what is stored. At a
desk none is ever turned away, so what is stored is what ended last.

* `Desk.stored_cases`: an event leaves alone what is stored, or publishes one outcome.
* `Desk.completions`: the outcomes of attempts, in the order in which they came about.
* `DeskOK.results_run`: the results are the completions.
* `published_state`: **every completion is stored,** the latest as the last result and the latest
  success as the last success.
-/

namespace QueryClient

/-- The results that were not there in an earlier state. -/
def Executor.resultsSince (e' e : Executor) : List NumberedOutcome :=
  e'.results.filter fun o => e.results.all fun r => r.number ≠ o.number

/-- **The attempts that end in a run,** each by its outcome, the first one first. -/
def Desk.completions (d : Desk) : List DeskEvent → List NumberedOutcome
  | [] => []
  | ev :: es =>
    (d.step ev).executor.resultsSince d.executor ++ (d.step ev).completions es

variable {spec : QuerySpec} {s : Supply} {e e' : Executor} {d : Desk} {o r : NumberedOutcome}

/-! ## Results in order -/

namespace ExecutorOK

theorem resultsSince_of_eq (hres : e'.results = e.results) : e'.resultsSince e = [] := by
  refine List.filter_eq_nil_iff.2 fun o ho => ?_
  rw [hres] at ho
  simp only [List.all_eq_true, decide_eq_true_eq, not_forall]
  exact ⟨o, ho, fun hne => hne rfl⟩

theorem resultsSince_of_cons (h : ExecutorOK s e') (hres : e'.results = o :: e.results) :
    e'.resultsSince e = [o] := by
  have hord := h.results_ordered
  rw [hres] at hord
  have hnew : ∀ r ∈ e.results, r.number < o.number := fun r hr => List.rel_of_pairwise_cons hord hr
  have hold : (e.results.filter fun o => e.results.all fun r => r.number ≠ o.number) = [] :=
    resultsSince_of_eq rfl
  unfold Executor.resultsSince
  rw [hres, List.filter_cons_of_pos, hold]
  simp only [List.all_eq_true, decide_eq_true_eq]
  intro r hr
  have := hnew r hr
  omega

/-- The last result has the largest number. -/
theorem le_last (h : ExecutorOK s e) (ho : o ∈ e.results) :
    ∃ r, e.last = some r ∧ o.number ≤ r.number := by
  have hord := h.results_ordered
  rw [h.last]
  cases hl : e.results with
  | nil => simp [hl] at ho
  | cons r rest =>
    rw [hl] at ho hord
    refine ⟨r, rfl, ?_⟩
    rcases List.mem_cons.1 ho with rfl | ho
    · exact Int.le_refl _
    · exact Int.le_of_lt (List.rel_of_pairwise_cons hord ho)

/-- An attempt without an outcome is accepted, whatever it ends in. -/
theorem accepts (h : ExecutorOK s e) {a : Attempt} (ha : a ∈ e.attempts) (hu : a.Unsettled)
    (result : Except Error OperationResult) : e.accepts (e.outcomeOf a result) = true := by
  obtain ⟨⟨rest, hl⟩, -⟩ := h.head_of_unsettled ha hu
  unfold Executor.accepts
  cases hlast : e.last with
  | none => rfl
  | some r =>
    have hr : r ∈ e.results := by
      rw [h.last] at hlast
      exact List.mem_of_mem_head? hlast
    exact decide_eq_true (h.results_lt hl hu r hr)

end ExecutorOK

/-! ## One event -/

/-- No attempt ended: what is stored stays as it is. -/
structure Executor.Rests (e e' : Executor) : Prop where
  results : e'.results = e.results
  last : e'.last = e.last
  lastSuccess : e'.lastSuccess = e.lastSuccess
  version : e'.version = e.version

/-- One attempt ended, and its outcome was accepted and stored. A failure leaves the last success
alone. -/
structure Executor.Publishes (e e' : Executor) (o : NumberedOutcome) : Prop where
  results : e'.results = o :: e.results
  settles : ∃ a ∈ e.attempts, a.Unsettled ∧
    ∃ result, o = e.outcomeOf a result ∧ e' = e.settle a result
  accepted : e.accepts o = true
  last : e'.last = some o
  lastSuccess : e'.lastSuccess = if o.value.isSuccess then some o else e.lastSuccess
  version : e'.version = e.version + 1

namespace ExecutorOK

variable {s' : Supply}

theorem rests (h : ExecutorOK s e) (h' : ExecutorOK s' e') (hres : e'.results = e.results) :
    e.Rests e' := by
  refine ⟨hres, ?_, ?_, ?_⟩
  · rw [h.last, h'.last, hres]
  · rw [h.lastSuccess, h'.lastSuccess, hres]
  · rw [h.version, h'.version, hres]

theorem publishes (h : ExecutorOK s e) {a : Attempt} {rest : List Attempt}
    (hl : e.attempts = a :: rest) (hu : a.Unsettled) (result : Except Error OperationResult) :
    e.Publishes (e.store a rest (e.outcomeOf a result)) (e.outcomeOf a result) := by
  have ha : a ∈ e.attempts := by rw [hl]; exact List.mem_cons_self
  exact ⟨results_store hl hu _, ⟨a, ha, hu, result, rfl, (h.settle_eq hl hu result).symm⟩,
    h.accepts ha hu result, rfl, rfl, rfl⟩

/-- What a step of a task or of the backend does to what is stored. -/
theorem stored_cases (h : ExecutorOK s e) (hs : e.Step e') :
    e.Rests e' ∨ ∃ o, e.Publishes e' o := by
  cases hs with
  | rest => exact .inl (h.rests h rfl)
  | close => exact .inl (h.rests h.close rfl)
  | advance hl hu hst => exact .inl (h.rests (h.advance hl hu hst) (results_advance hl hu hst))
  | store result hl hu => exact .inr ⟨_, h.publishes hl hu result⟩

end ExecutorOK

namespace Desk

/-- Apart from an inquiry that starts an attempt, an event is a step of a task, of the backend or of
one who waits. -/
theorem step_executor (h : DeskOK spec d) (ev : DeskEvent) :
    d.executor.Step (d.step ev).executor ∨
      ∃ n request, (d.step ev).executor = d.executor.start n request := by
  cases ev with
  | drawn numbers requests => exact .inl .rest
  | ask => exact .inl .rest
  | look i =>
    show d.executor.Step (d.look i).executor ∨ ∃ n request, (d.look i).executor = _
    rcases d.look_cases i with hsame | ⟨least, executor, supply, entry, -, hj, hlook⟩
    · rw [hsame]; exact .inl .rest
    rw [hlook]
    rcases d.executor.join_cases least d.supply with
      ⟨o, hj', -⟩ | ⟨n, hj', -⟩ | ⟨hj', -⟩ <;> rw [hj'] at hj <;> obtain ⟨rfl, rfl, rfl⟩ := hj
    · exact .inl .rest
    · exact .inl .rest
    · exact .inr ⟨_, _, rfl⟩
  | collect i =>
    refine .inl ?_
    show d.executor.Step (d.collect i).executor
    rcases d.collect_cases i with hsame | ⟨least, entry, n, executor, o, madeUp, -, -, hw, hcollect⟩
    · rw [hsame]; exact .rest
    rw [hcollect]
    rcases h.executor.await?_cases hw with ⟨rfl, -⟩ | ⟨a, rest, hl, -, hst, rfl, rfl⟩
    · exact .rest
    · exact .store _ hl (Attempt.unsettled_of_stage hst rfl)
  | leave i =>
    refine .inl ?_
    show d.executor.Step (d.leave i).executor
    rcases d.leave_cases i with hsame | ⟨least, entry, -, hleave⟩
    · rw [hsame]; exact .rest
    · rw [hleave]; exact .rest
  | begin n =>
    refine .inl ?_
    show d.executor.Step (d.begin n).executor
    rcases d.begin_cases h.executor n with hsame | ⟨a, rest, hl, -, hst, ⟨-, hb⟩ | ⟨-, hb⟩⟩
    · rw [hsame]; exact .rest
    · rw [hb]; exact .advance hl (Attempt.unsettled_of_stage hst rfl) rfl
    · rw [hb]; exact .store _ hl (Attempt.unsettled_of_stage hst rfl)
  | answer n reply => exact .inl (h.executor.step_answer n reply)
  | resume n =>
    refine .inl ?_
    show d.executor.Step (d.executor.resume n)
    rcases h.executor.resume_cases n with
      hb | ⟨a, rest, hl, -, hc, ⟨-, hb⟩ | ⟨-, ⟨result, -, hb⟩ | ⟨-, hb⟩⟩⟩ <;> rw [hb]
    · exact .rest
    · exact .store _ hl (ExecutorOK.unsettled_of_isCalling hc)
    · exact .store _ hl (ExecutorOK.unsettled_of_isCalling hc)
    · exact .advance hl (ExecutorOK.unsettled_of_isCalling hc) rfl
  | kill n =>
    refine .inl ?_
    show d.executor.Step (d.executor.kill n)
    rcases h.executor.kill_cases n with hb | ⟨a, rest, hl, -, hu, hb⟩ <;> rw [hb]
    · exact .rest
    · exact .advance hl hu rfl
  | close => exact .inl .close

/-- **An event leaves alone what is stored, or publishes one outcome.** -/
theorem stored_cases (h : DeskOK spec d) (ev : DeskEvent) :
    d.executor.Rests (d.step ev).executor ∨ ∃ o, d.executor.Publishes (d.step ev).executor o := by
  rcases step_executor h ev with hs | ⟨n, request, hs⟩
  · exact h.executor.stored_cases hs
  · have hres : (d.step ev).executor.results = d.executor.results := by
      rw [hs]; exact List.filterMap_cons_none rfl
    exact .inl (h.executor.rests (h.step ev).executor hres)

end Desk

namespace DeskOK

theorem results_step (h : DeskOK spec d) (ev : DeskEvent) :
    (d.step ev).executor.results =
      ((d.step ev).executor.resultsSince d.executor).reverse ++ d.executor.results := by
  rcases Desk.stored_cases h ev with hrest | ⟨o, ho⟩
  · rw [ExecutorOK.resultsSince_of_eq hrest.results, hrest.results]; rfl
  · rw [(h.step ev).executor.resultsSince_of_cons ho.results, ho.results]; rfl

/-- **The results are what was there before, and what the attempts ended in since.** -/
theorem results_run (h : DeskOK spec d) (es : List DeskEvent) :
    (d.run es).executor.results = (d.completions es).reverse ++ d.executor.results := by
  induction es generalizing d with
  | nil => rfl
  | cons ev es ih =>
    rw [Desk.completions, List.reverse_append, List.append_assoc, ← h.results_step ev]
    exact ih (h.step ev)

theorem suffix_run (h : DeskOK spec d) (es : List DeskEvent) :
    d.executor.results <:+ (d.run es).executor.results :=
  ⟨_, (h.results_run es).symm⟩

/-- The last result is never replaced by an older one. -/
theorem last_mono (h : DeskOK spec d) (es : List DeskEvent) (hr : d.executor.last = some r) :
    ∃ r', (d.run es).executor.last = some r' ∧ r.number ≤ r'.number := by
  rw [h.executor.last] at hr
  exact (h.run es).executor.le_last ((h.suffix_run es).mem (List.mem_of_mem_head? hr))

end DeskOK

/-! ## The theorem -/

/-- **What is stored** at a desk that the events led to from the given one. -/
structure PublishedState (d₀ : Desk) (es : List DeskEvent) (d : Desk) : Prop where
  /-- Whatever happens next, nothing ends, or one attempt ends and is stored. -/
  stored : ∀ ev, d.executor.Rests (d.step ev).executor ∨
    ∃ o, d.executor.Publishes (d.step ev).executor o
  /-- The attempts with an outcome are those that ended in the run. -/
  ended : d.executor.results = (d₀.completions es).reverse
  /-- The last result is what ended last, -/
  last : d.executor.last = (d₀.completions es).getLast?
  /-- and the last success is the last of those that succeeded. -/
  lastSuccess :
    d.executor.lastSuccess = ((d₀.completions es).filter fun o => o.value.isSuccess).getLast?
  /-- Later on, the last result has no smaller number. -/
  monotone : ∀ more r, d.executor.last = some r →
    ∃ r', (d.run more).executor.last = some r' ∧ r.number ≤ r'.number
  success : ∀ r, d.executor.lastSuccess = some r →
    r.value.isSuccess ∧ ∃ l, d.executor.last = some l ∧ r.number ≤ l.number
  agree : ∀ r, d.executor.last = some r → r.value.isSuccess → d.executor.lastSuccess = some r
  absent : d.executor.last = none → d.executor.lastSuccess = none

/-- **Every attempt that ends is published:** the last result is what ended last, the last success
is the last of those that succeeded, and the last result never goes back. -/
theorem published_state (spec : QuerySpec) (closed : Bool) (s : Supply) (es : List DeskEvent) :
    PublishedState (.fresh spec closed s) es ((Desk.fresh spec closed s).run es) := by
  have hfresh := DeskOK.fresh spec closed s
  have h := hfresh.run es
  have hres : ((Desk.fresh spec closed s).run es).executor.results =
      ((Desk.fresh spec closed s).completions es).reverse :=
    (hfresh.results_run es).trans (List.append_nil _)
  constructor
  case stored => exact Desk.stored_cases h
  case ended => exact hres
  case last => rw [h.executor.last, hres, List.head?_reverse]
  case lastSuccess =>
    rw [h.executor.lastSuccess, hres, ← List.head?_filter, List.filter_reverse, List.head?_reverse]
  case monotone => exact fun more r hr => h.last_mono more hr
  case success =>
    intro r hr
    rw [h.executor.lastSuccess] at hr
    have hsucc := List.find?_some (p := fun o : NumberedOutcome => o.value.isSuccess) hr
    exact ⟨hsucc, h.executor.le_last (List.mem_of_find?_eq_some hr)⟩
  case agree =>
    intro r hr hsucc
    rw [h.executor.last] at hr
    obtain ⟨rest, hrest⟩ := List.head?_eq_some_iff.1 hr
    rw [h.executor.lastSuccess, hrest]
    exact List.find?_cons_of_pos hsucc
  case absent =>
    intro hnone
    rw [h.executor.last, List.head?_eq_none_iff] at hnone
    rw [h.executor.lastSuccess, hnone]
    rfl

end QueryClient
