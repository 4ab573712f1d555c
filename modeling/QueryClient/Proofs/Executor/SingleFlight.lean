import QueryClient.Proofs.Executor.Desk

/-!
# Single flight

At any time an executor has one call of the backend outstanding at most, and those who ask while it
is share what it brings.

* `ordered_calls`, `outstanding_le_one`: calls carry different requests, and one is outstanding at
  most.
* `Desk.Called`: as long as the executor is open and no task dies, every attempt whose task has begun
  has made its call.
* `SingleFlight`, `single_flight`: **single flight,** for every run of an executor.
-/

namespace QueryClient

variable {spec : QuerySpec} {s : Supply} {d : Desk} {es : List DeskEvent}

/-! ## Calls -/

namespace DeskOK

/-- The calls carry the requests of different attempts, in the order in which these were drawn. -/
theorem ordered_calls (h : DeskOK spec d) :
    d.calls.Pairwise fun c b => c.request.index < b.request.index := by
  refine List.Pairwise.sublist h.calls (List.Pairwise.map _ (fun a b hab => hab) ?_)
  refine List.pairwise_reverse.2 (List.Pairwise.sublist List.filter_sublist ?_)
  exact h.executor.ordered.imp And.right

/-- **At most one call is outstanding.** -/
theorem outstanding_le_one (h : DeskOK spec d) : d.outstanding.length ≤ 1 := by
  have hord : d.outstanding.Pairwise fun c b => c.request.index < b.request.index :=
    h.ordered_calls.sublist List.filter_sublist
  -- an outstanding call is that of the youngest attempt
  have hhead : ∀ c ∈ d.outstanding, ∀ a ∈ d.executor.attempts.head?, c.request = a.request := by
    intro c hc a ha
    obtain ⟨b, hb, hbc⟩ := List.any_eq_true.1 (List.mem_filter.1 hc).2
    simp only [Bool.and_eq_true, decide_eq_true_eq] at hbc
    obtain ⟨⟨rest, hl⟩, -⟩ :=
      h.executor.head_of_unsettled hb (ExecutorOK.unsettled_of_isCalling hbc.2)
    rw [hl] at ha
    obtain rfl : b = a := by simpa using ha
    exact hbc.1.symm
  match hout : d.outstanding with
  | [] => simp
  | [c] => simp
  | c :: b :: rest =>
    exfalso
    rw [hout] at hord hhead
    have hlt := List.rel_of_pairwise_cons hord List.mem_cons_self
    cases hl : d.executor.attempts.head? with
    | none =>
      have hc : c ∈ d.outstanding := by rw [hout]; exact List.mem_cons_self
      obtain ⟨a, ha, -⟩ := List.any_eq_true.1 (List.mem_filter.1 hc).2
      rw [List.head?_eq_none_iff.1 hl] at ha
      simp at ha
    | some a =>
      have hc := hhead c List.mem_cons_self a hl
      have hb := hhead b (List.mem_cons_of_mem _ List.mem_cons_self) a hl
      rw [hc, hb] at hlt
      omega

end DeskOK

/-- While the executor is open, each attempt whose task has begun has made its call. -/
def Desk.Called (d : Desk) : Prop :=
  d.executor.closed = false → d.calls.length = d.executor.attempts.countP Attempt.hasBegun

namespace Desk.Called

variable {e' : Executor} {a : Attempt} {rest : List Attempt}

/-- An attempt whose task had begun moves on. -/
theorem of_head (hd : d.Called) (hl : d.executor.attempts = a :: rest) (ha : a.hasBegun)
    {st : Stage} (hl' : e'.attempts = { a with stage := st } :: rest)
    (hst : ({ a with stage := st } : Attempt).hasBegun) (hc : e'.closed = d.executor.closed) :
    Desk.Called { d with executor := e' } := by
  intro hopen
  have := hd (hc.symm.trans hopen)
  rw [hl, List.countP_cons_of_pos ha] at this
  show d.calls.length = e'.attempts.countP _
  rw [hl', List.countP_cons_of_pos hst]
  exact this

theorem hasBegun_of_isCalling (h : a.isCalling) : a.hasBegun := by
  unfold Attempt.isCalling at h
  unfold Attempt.hasBegun
  cases hst : a.stage <;> simp_all

theorem begin (hd : d.Called) (h : DeskOK spec d) (n : Int) : (d.begin n).Called := by
  rcases d.begin_cases h.executor n with hsame | ⟨a, rest, hl, -, hst, ⟨hc, hb⟩ | ⟨hc, hb⟩⟩
  · rw [hsame]; exact hd
  · have := hd hc
    rw [hl, List.countP_cons_of_neg (by simp [Attempt.hasBegun, hst])] at this
    rw [hb]
    intro _
    show (d.calls ++ [_]).length = List.countP _ (_ :: rest)
    rw [List.countP_cons_of_pos (by rfl), List.length_append, this]
    rfl
  · rw [hb]
    intro hopen
    rw [show (d.executor.store _ _ _).closed = d.executor.closed from rfl, hc] at hopen
    simp at hopen

theorem look (hd : d.Called) (i : ℕ) : (d.look i).Called := by
  rcases d.look_cases i with hsame | ⟨least, executor, supply, entry, -, hj, hlook⟩
  · rw [hsame]; exact hd
  rcases d.executor.join_cases least d.supply with
    ⟨o, hj', -⟩ | ⟨n, hj', -⟩ | ⟨hj', -⟩ <;> rw [hj'] at hj <;> obtain ⟨rfl, rfl, rfl⟩ := hj <;>
    rw [hlook]
  · exact hd
  · exact hd
  · intro hopen
    show d.calls.length = List.countP _ (_ :: d.executor.attempts)
    rw [List.countP_cons_of_neg (by simp [Attempt.hasBegun])]
    exact hd hopen

theorem collect (hd : d.Called) (h : DeskOK spec d) (i : ℕ) : (d.collect i).Called := by
  rcases d.collect_cases i with hsame | ⟨least, entry, n, e', o, madeUp, -, -, hw, hcollect⟩
  · rw [hsame]; exact hd
  rw [hcollect]
  rcases h.executor.await?_cases hw with ⟨rfl, -⟩ | ⟨a, rest, hl, -, hst, rfl, rfl⟩
  · exact hd
  · exact hd.of_head hl (by simp [Attempt.hasBegun, hst]) rfl rfl rfl

theorem resume (hd : d.Called) (h : DeskOK spec d) (n : Int) :
    Desk.Called { d with executor := d.executor.resume n } := by
  rcases h.executor.resume_cases n with
    hb | ⟨a, rest, hl, -, hc, ⟨-, hb⟩ | ⟨-, ⟨r, -, hb⟩ | ⟨-, hb⟩⟩⟩ <;> rw [hb]
  · exact hd
  · exact hd.of_head hl (hasBegun_of_isCalling hc) rfl rfl rfl
  · exact hd.of_head hl (hasBegun_of_isCalling hc) rfl rfl rfl
  · exact hd.of_head hl (hasBegun_of_isCalling hc) rfl rfl rfl

/-- **No task dies unless it is killed, so each makes its call.** -/
theorem step (hd : d.Called) (h : DeskOK spec d) {ev : DeskEvent} (hev : ∀ n, ev ≠ .kill n) :
    (d.step ev).Called := by
  cases ev with
  | drawn numbers requests => exact hd
  | ask => exact hd
  | look i => exact hd.look i
  | collect i => exact hd.collect h i
  | leave i =>
    rcases d.leave_cases i with hsame | ⟨least, entry, -, hleave⟩
    · show (d.leave i).Called
      rw [hsame]; exact hd
    · show (d.leave i).Called
      rw [hleave]; exact hd
  | begin n => exact hd.begin h n
  | answer n reply =>
    show Desk.Called { d with executor := d.executor.answer n reply }
    rcases h.executor.answer_cases n reply with hsame | ⟨a, rest, hl, -, hst, hb⟩
    · rw [hsame]; exact hd
    · rw [hb]
      exact hd.of_head hl (by simp [Attempt.hasBegun, hst]) rfl rfl rfl
  | resume n => exact hd.resume h n
  | kill n => exact absurd rfl (hev n)
  | close =>
    intro hopen
    simp [Desk.step, Executor.close] at hopen

theorem run (hd : d.Called) (h : DeskOK spec d) (hes : ∀ n, DeskEvent.kill n ∉ es) :
    (d.run es).Called := by
  induction es generalizing d with
  | nil => exact hd
  | cons ev es ih =>
    have hev : ∀ n, ev ≠ .kill n := by
      rintro n rfl
      exact hes n List.mem_cons_self
    exact ih (hd.step h hev) (h.step ev) fun n hn => hes n (List.mem_cons_of_mem _ hn)

end Desk.Called

/-! ## The theorem -/

/-- Nothing can go on by itself: no task of an attempt can take a step, and who has not ended waits
for an attempt without an outcome. -/
structure Desk.Quiet (d : Desk) : Prop where
  attempts : ∀ a ∈ d.executor.attempts, d.executor.attemptReady a.number = false
  inquiries : ∀ q ∈ d.inquiries, q.ending = none →
    ∃ n, q.attempt? = some n ∧ d.executor.awaitReady n = false

/-- **Single flight,** at a desk that the events led to. -/
structure SingleFlight (spec : QuerySpec) (es : List DeskEvent) (d : Desk) : Prop where
  /-- At most one attempt is unfinished, and it is in the slot. -/
  one_attempt : ∀ a ∈ d.executor.attempts, a.Unsettled → d.executor.slot = some a.number
  /-- At most one call is outstanding. -/
  one_call : d.outstanding.length ≤ 1
  /-- All that was drawn is behind the supply; attempts are told apart by number and by request. -/
  drawn : (∀ a ∈ d.executor.attempts, a.number ≤ d.supply.number ∧ a.request.index ≤ d.supply.request) ∧
    (∀ q ∈ d.inquiries, q.least ≤ d.supply.number) ∧
    (d.executor.attempts.map Attempt.number).Nodup ∧ (d.executor.attempts.map Attempt.request).Nodup
  /-- Who finds an attempt in the slot joins it: it is unfinished, and nothing else changes. -/
  joins : ∀ i least n, d.inquiries[i]? = some ⟨least, none, none⟩ →
    d.executor.newerThan? least = none → d.executor.slot = some n →
    d.step (.look i) = { d with inquiries := d.inquiries.set i ⟨least, some (.joined n), none⟩ } ∧
    ∃ a ∈ d.executor.attempts, a.number = n ∧ a.Unsettled
  /-- Who finds the slot empty starts one attempt, under the next number and the next request. -/
  starts : ∀ i least, d.inquiries[i]? = some ⟨least, none, none⟩ →
    d.executor.newerThan? least = none → d.executor.slot = none →
    d.step (.look i) = { d with
      executor := d.executor.start (d.supply.number + 1) ⟨d.supply.request + 1⟩
      supply := ⟨d.supply.number + 1, d.supply.request + 1⟩
      inquiries := d.inquiries.set i ⟨least, some (.started (d.supply.number + 1)), none⟩ }
  /-- Who finds a result newer than the question takes it. -/
  finds : ∀ i least o, d.inquiries[i]? = some ⟨least, none, none⟩ →
    d.executor.newerThan? least = some o →
    d.step (.look i) =
      { d with inquiries := d.inquiries.set i ⟨least, some (.found o), some (.returned o)⟩ }
  /-- Who looks as soon as it has asked finds no newer result. -/
  prompt : ∀ o, (d.run [.ask, .look d.inquiries.length]).inquiries[d.inquiries.length]?.bind
    Inquiry.entry ≠ some (.found o)
  /-- Who waits for an attempt that has an outcome collects just this, and nothing else changes. -/
  collects : ∀ i least entry, d.inquiries[i]? = some ⟨least, some entry, none⟩ →
    ∀ a ∈ d.executor.attempts, entry.attempt? = some a.number → ∀ o, a.stage = .settled o →
    d.step (.collect i) =
      { d with inquiries := d.inquiries.set i ⟨least, some entry, some (.returned o)⟩ }
  /-- A result that was handed out is that of the attempt which was started or joined, or of one
  that was started after asking and had ended before looking. -/
  returned : ∀ q ∈ d.inquiries, ∀ o, q.ending = some (.returned o) →
    ∃ a ∈ d.executor.attempts, a.stage = .settled o ∧ o.number = a.number ∧
      o.value.request = a.request ∧
      (q.attempt? = some a.number ∨ q.entry = some (.found o) ∧ q.least < a.number)
  /-- All who started or joined one attempt were handed the same. -/
  shared : ∀ q ∈ d.inquiries, ∀ p ∈ d.inquiries, ∀ n, q.attempt? = some n → p.attempt? = some n →
    ∀ o r, q.ending = some (.returned o) → p.ending = some (.returned r) → o = r
  /-- No attempt makes more than one call, and each call is that of the query. -/
  calls : d.calls.Sublist (d.executor.attempts.reverse.map fun a => spec.call a.request)
  /-- There is one attempt for each inquiry that found the slot empty. -/
  started : d.executor.attempts.length = d.inquiries.countP Inquiry.isStart
  /-- When nothing can go on at an open executor, each attempt has made one call of the query, under
  its own request; who has not ended waits for the call that is outstanding. -/
  quiet : (∀ n, DeskEvent.kill n ∉ es) → d.executor.closed = false → d.Quiet →
    d.calls = (d.executor.attempts.reverse.map fun a => spec.call a.request) ∧
    d.calls.length = d.inquiries.countP Inquiry.isStart ∧
    ∀ q ∈ d.inquiries, q.ending = none → ∃ a ∈ d.executor.attempts, q.attempt? = some a.number ∧
      d.outstanding = [spec.call a.request]

namespace DeskOK

theorem step_look (d : Desk) {i : ℕ} {least : Int} (hi : d.inquiries[i]? = some ⟨least, none, none⟩) :
    d.step (.look i) = { d with
      executor := (d.executor.join least d.supply).1
      supply := (d.executor.join least d.supply).2.1
      inquiries := d.inquiries.set i ⟨least, some (d.executor.join least d.supply).2.2,
        match (d.executor.join least d.supply).2.2 with
        | .found o => some (.returned o)
        | _ => none⟩ } := by
  show d.look i = _
  unfold Desk.look
  generalize d.inquiries[i]? = x at hi ⊢
  subst hi
  rfl

/-- Nothing newer than a number just drawn is stored. -/
theorem newerThan?_eq_none (h : DeskOK spec d) {least : Int} (hle : d.supply.number ≤ least) :
    d.executor.newerThan? least = none := by
  refine Option.filter_eq_none_iff.2 fun o ho => ?_
  rw [h.executor.last] at ho
  obtain ⟨a, ha, hst⟩ := ExecutorOK.mem_results.1 (List.mem_of_mem_head? ho)
  have hnum := (h.executor.outcome a ha o hst).1
  have hdrawn := (h.executor.drawn a ha).1
  simp only [decide_eq_true_eq]
  omega

theorem prompt (h : DeskOK spec d) (o : NumberedOutcome) :
    (d.run [.ask, .look d.inquiries.length]).inquiries[d.inquiries.length]?.bind Inquiry.entry ≠
      some (.found o) := by
  have hask := h.step .ask
  have hi : (d.step .ask).inquiries[d.inquiries.length]? = some ⟨d.supply.number + 1, none, none⟩ := by
    simp [Desk.step, Supply.drawNumber]
  have hnone : (d.step .ask).executor.newerThan? (d.supply.number + 1) = none :=
    hask.newerThan?_eq_none (Int.le_refl _)
  show ((d.step .ask).step (.look _)).inquiries[d.inquiries.length]?.bind Inquiry.entry ≠ _
  rw [step_look _ hi]
  rcases (d.step .ask).executor.join_cases (d.supply.number + 1) (d.step .ask).supply with
    ⟨r, -, hlast, hlt⟩ | ⟨n, hj, -⟩ | ⟨hj, -⟩
  · rw [Executor.newerThan?, hlast] at hnone
    have hle : r.number ≤ d.supply.number + 1 := by simpa using hnone
    omega
  · rw [hj, List.getElem?_set_self (List.getElem?_eq_some_iff.1 hi).1]
    simp
  · rw [hj, List.getElem?_set_self (List.getElem?_eq_some_iff.1 hi).1]
    simp

/-- What was handed out is the outcome of an attempt. -/
theorem returned (h : DeskOK spec d) {q : Inquiry} (hq : q ∈ d.inquiries) {o : NumberedOutcome}
    (ho : q.ending = some (.returned o)) :
    ∃ a ∈ d.executor.attempts, a.stage = .settled o ∧ o.number = a.number ∧
      o.value.request = a.request ∧
      (q.attempt? = some a.number ∨ q.entry = some (.found o) ∧ q.least < a.number) := by
  rcases (h.inquiries q hq).returned o ho with hf | ⟨a, ha, hn, hst⟩
  · obtain ⟨-, hlt, hmem⟩ := (h.inquiries q hq).found o hf
    obtain ⟨a, ha, hst⟩ := ExecutorOK.mem_results.1 hmem
    obtain ⟨hnum, hreq, -⟩ := h.executor.outcome a ha o hst
    exact ⟨a, ha, hst, hnum, hreq, .inr ⟨hf, hnum ▸ hlt⟩⟩
  · obtain ⟨hnum, hreq, -⟩ := h.executor.outcome a ha o hst
    exact ⟨a, ha, hst, hnum, hreq, .inl hn⟩

theorem shared (h : DeskOK spec d) {q p : Inquiry} (hq : q ∈ d.inquiries) (hp : p ∈ d.inquiries)
    {n : Int} (hqn : q.attempt? = some n) (hpn : p.attempt? = some n) {o r : NumberedOutcome}
    (ho : q.ending = some (.returned o)) (hr : p.ending = some (.returned r)) : o = r := by
  -- who waits for an attempt has found nothing
  have hown : ∀ q ∈ d.inquiries, q.attempt? = some n → ∀ o, q.ending = some (.returned o) →
      ∃ a ∈ d.executor.attempts, a.number = n ∧ a.stage = .settled o := by
    intro q hq hqn o ho
    rcases (h.inquiries q hq).returned o ho with hf | ⟨a, ha, hn, hst⟩
    · simp [Inquiry.attempt?, hf, Entry.attempt?] at hqn
    · exact ⟨a, ha, Option.some.inj (hn.symm.trans hqn), hst⟩
  obtain ⟨a, ha, han, hast⟩ := hown q hq hqn o ho
  obtain ⟨b, hb, hbn, hbst⟩ := hown p hp hpn r hr
  obtain rfl := h.executor.eq_of_number ha hb (han.trans hbn.symm)
  rw [hast] at hbst
  exact Stage.settled.inj hbst

/-- When nothing can go on, the task of each attempt has begun. -/
theorem hasBegun_of_quiet (h : DeskOK spec d) (hquiet : d.Quiet) :
    ∀ a ∈ d.executor.attempts, a.hasBegun ∧ ∀ reply, a.stage ≠ .answered reply := by
  intro a ha
  have hst : d.executor.stage? a.number = some a.stage :=
    h.executor.stage?_eq_some.2 ⟨a, ha, rfl, rfl⟩
  have hready := hquiet.attempts a ha
  unfold Executor.attemptReady at hready
  rw [hst] at hready
  unfold Attempt.hasBegun
  cases hs : a.stage <;> simp_all

theorem calls_of_quiet (h : DeskOK spec d) (hd : d.Called) (hopen : d.executor.closed = false)
    (hquiet : d.Quiet) :
    d.calls = d.executor.attempts.reverse.map fun a => spec.call a.request := by
  have hall : d.executor.attempts.filter Attempt.hasBegun = d.executor.attempts :=
    List.filter_eq_self.2 fun a ha => (h.hasBegun_of_quiet hquiet a ha).1
  have hcalls := h.calls
  rw [hall] at hcalls
  refine hcalls.eq_of_length ?_
  rw [hd hopen, List.countP_eq_length_filter, hall]
  simp

/-- Who has not ended when nothing can go on waits for the outstanding call. -/
theorem waits_of_quiet (h : DeskOK spec d) (hquiet : d.Quiet) {q : Inquiry} (hq : q ∈ d.inquiries)
    (hend : q.ending = none) : ∃ a ∈ d.executor.attempts, q.attempt? = some a.number ∧
      d.outstanding = [spec.call a.request] := by
  obtain ⟨n, hn, hwait⟩ := hquiet.inquiries q hq hend
  obtain ⟨a, ha, rfl⟩ := (h.inquiries q hq).known n hn
  refine ⟨a, ha, hn, ?_⟩
  have hcalling : a.isCalling := by
    have hst : d.executor.stage? a.number = some a.stage :=
      h.executor.stage?_eq_some.2 ⟨a, ha, rfl, rfl⟩
    have hbegun := h.hasBegun_of_quiet hquiet a ha
    unfold Executor.awaitReady at hwait
    rw [hst] at hwait
    unfold Attempt.isCalling
    unfold Attempt.hasBegun at hbegun
    cases hs : a.stage <;> simp_all
  have hmem : spec.call a.request ∈ d.outstanding :=
    List.mem_filter.2 ⟨h.called a ha hcalling,
      List.any_eq_true.2 ⟨a, ha, by simp [QuerySpec.call, hcalling]⟩⟩
  obtain ⟨c, hc⟩ := List.length_eq_one_iff.1
    (Nat.le_antisymm h.outstanding_le_one (List.length_pos_of_mem hmem))
  rw [hc] at hmem ⊢
  rw [List.mem_singleton.1 hmem]

end DeskOK

/-- **Single flight:** whatever happens at an executor and in whatever order, at most one call is
outstanding, who asks meanwhile is handed what it brings, and at rest there has been one call for
each inquiry that found the slot empty. -/
theorem single_flight (spec : QuerySpec) (closed : Bool) (s : Supply) (es : List DeskEvent) :
    SingleFlight spec es ((Desk.fresh spec closed s).run es) := by
  have hfresh := DeskOK.fresh spec closed s
  have h := hfresh.run es
  generalize hd : (Desk.fresh spec closed s).run es = d at h
  constructor
  case one_attempt => exact fun a ha hu => (h.executor.head_of_unsettled ha hu).2
  case one_call => exact h.outstanding_le_one
  case drawn =>
    refine ⟨h.executor.drawn, fun q hq => (h.inquiries q hq).least, ?_, ?_⟩
    · exact List.Pairwise.map _ (fun a b hab heq => by omega) h.executor.ordered
    · exact List.Pairwise.map _ (fun a b hab heq => by rw [heq] at hab; omega) h.executor.ordered
  case joins =>
    intro i least n hi hnew hslot
    obtain ⟨a, rest, hl, hu, hn⟩ := h.executor.attempt_of_slot hslot
    refine ⟨?_, a, by rw [hl]; exact List.mem_cons_self, hn, hu⟩
    rw [DeskOK.step_look d hi]
    unfold Executor.join
    rw [hnew, hslot]
  case starts =>
    intro i least hi hnew hslot
    rw [DeskOK.step_look d hi]
    unfold Executor.join
    rw [hnew, hslot]
    rfl
  case finds =>
    intro i least o hi hnew
    rw [DeskOK.step_look d hi]
    unfold Executor.join
    rw [hnew]
  case prompt => exact h.prompt
  case collects =>
    intro i least entry hi a ha hn o hst
    show d.collect i = _
    unfold Desk.collect
    simp [hi, hn, h.executor.await?_settled ha hst]
  case returned => exact fun q hq o ho => h.returned hq ho
  case shared => exact fun q hq p hp n hqn hpn o r ho hr => h.shared hq hp hqn hpn ho hr
  case calls =>
    refine h.calls.trans (List.Sublist.map _ (List.reverse_sublist.2 List.filter_sublist))
  case started => exact h.starts.symm
  case quiet =>
    intro hes hopen hquiet
    have hcalled : d.Called := by
      rw [← hd]
      exact Desk.Called.run (fun _ => rfl) hfresh hes
    have hcalls := h.calls_of_quiet hcalled hopen hquiet
    refine ⟨hcalls, ?_, fun q hq hend => h.waits_of_quiet hquiet hq hend⟩
    rw [hcalls, h.starts]
    simp

/-- Two inquiries, one call. -/
example (spec : QuerySpec) :
    ((Desk.fresh spec false {}).run [.ask, .look 0, .ask, .look 1, .begin 2]).calls =
      [spec.call ⟨1⟩] := rfl

end QueryClient
