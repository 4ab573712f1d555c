import QueryClient.Proofs.Executor.Attempts

/-!
# One executor and all who ask it

A *desk* is an executor with its inquiries and the calls it made of the backend. What happens at it
comes one event at a time and in any order: inquiries draw their number, look at the slot later,
collect a result or leave; the task of an attempt takes a step or dies; the backend answers; others
draw numbers; the executor is closed. No scheduler is assumed.

* `Desk.step`, `Desk.run`: one event, and a run.
* `DeskOK`: what every run keeps.
* `DeskOK.step`, `DeskOK.run`: it does.
-/

namespace QueryClient

/-- The attempt that one waits for after asking. -/
def Entry.attempt? : Entry → Option Int
  | .found _ => none
  | .joined n | .started n => some n

/-- The slot was empty. -/
def Entry.isStart : Entry → Bool
  | .started _ => true
  | _ => false

/-- One who asks an executor for a result. -/
structure Inquiry where
  /-- The number drawn on asking. -/
  least : Int
  /-- What asking led to, once the slot was looked at. -/
  entry : Option Entry := none
  ending : Option (Ending NumberedOutcome) := none

namespace Inquiry

/-- The attempt that the inquiry started or joined. -/
def attempt? (q : Inquiry) : Option Int := q.entry.bind Entry.attempt?

/-- The inquiry found the slot empty. -/
def isStart (q : Inquiry) : Bool := q.entry.any Entry.isStart

end Inquiry

/-- A call of the backend. -/
structure BackendCall where
  request : RequestId
  operation : String
  vars : Struct

/-- The call of a query, under a request identifier. -/
def QuerySpec.call (spec : QuerySpec) (request : RequestId) : BackendCall :=
  ⟨request, spec.operation, spec.vars⟩

/-- An executor, those who ask it, and the calls it made. -/
structure Desk where
  executor : Executor
  supply : Supply := {}
  /-- All inquiries there have been; an inquiry is named by its place. -/
  inquiries : List Inquiry := []
  calls : List BackendCall := []

/-- What happens at a desk. -/
inductive DeskEvent where
  /-- Others draw numbers and request identifiers. -/
  | drawn (numbers requests : ℕ)
  /-- Somebody asks, and draws a number. -/
  | ask
  /-- An inquiry looks at the stored result and at the slot. -/
  | look (i : ℕ)
  /-- An inquiry takes the result of the attempt it waits for, if it is there. -/
  | collect (i : ℕ)
  /-- An inquiry is abandoned. -/
  | leave (i : ℕ)
  /-- The task of an attempt takes its first step. -/
  | begin (number : Int)
  | answer (number : Int) (reply : Reply)
  /-- The task of an attempt takes another step. -/
  | resume (number : Int)
  /-- The task of an attempt dies. -/
  | kill (number : Int)
  | close

namespace Desk

/-- A desk where nobody has asked yet. -/
def fresh (spec : QuerySpec) (closed : Bool) (supply : Supply) : Desk :=
  { executor := .ofSpec spec closed, supply }

/-- An inquiry that has drawn its number looks at the stored result and at the slot. -/
def look (d : Desk) (i : ℕ) : Desk :=
  match d.inquiries[i]? with
  | some ⟨least, none, none⟩ =>
    let (executor, supply, entry) := d.executor.join least d.supply
    let ending := match entry with
      | .found o => some (.returned o)
      | _ => none
    { d with executor, supply, inquiries := d.inquiries.set i ⟨least, some entry, ending⟩ }
  | _ => d

/-- An inquiry that waits takes its result, if it is there. -/
def collect (d : Desk) (i : ℕ) : Desk :=
  match d.inquiries[i]? with
  | some ⟨least, some entry, none⟩ =>
    match entry.attempt?.bind d.executor.await? with
    | some (executor, o, _) =>
      { d with executor, inquiries := d.inquiries.set i ⟨least, some entry, some (.returned o)⟩ }
    | none => d
  | _ => d

/-- An inquiry that has not ended is abandoned. -/
def leave (d : Desk) (i : ℕ) : Desk :=
  match d.inquiries[i]? with
  | some ⟨least, entry, none⟩ =>
    { d with inquiries := d.inquiries.set i ⟨least, entry, some .dropped⟩ }
  | _ => d

/-- The first step of an attempt's task; a call of the backend is recorded. -/
def begin (d : Desk) (number : Int) : Desk :=
  match d.executor.stage? number with
  | some .spawned =>
    let executor := d.executor.begin number
    match executor.attempt? number with
    | some ⟨_, request, .calling⟩ =>
      { d with executor, calls := d.calls ++ [executor.spec.call request] }
    | _ => { d with executor }
  | _ => d

/-- **What an event does to a desk.** -/
def step (d : Desk) : DeskEvent → Desk
  | .drawn numbers requests =>
    { d with supply := ⟨d.supply.number + numbers, d.supply.request + requests⟩ }
  | .ask =>
    let (least, supply) := d.supply.drawNumber
    { d with supply, inquiries := d.inquiries ++ [{ least }] }
  | .look i => d.look i
  | .collect i => d.collect i
  | .leave i => d.leave i
  | .begin number => d.begin number
  | .answer number reply => { d with executor := d.executor.answer number reply }
  | .resume number => { d with executor := d.executor.resume number }
  | .kill number => { d with executor := d.executor.kill number }
  | .close => { d with executor := d.executor.close }

/-- A run. -/
def run (d : Desk) (es : List DeskEvent) : Desk := es.foldl step d

/-- The calls that have been made and whose answer has not been taken. -/
def outstanding (d : Desk) : List BackendCall :=
  d.calls.filter fun c => d.executor.attempts.any fun a => a.request = c.request && a.isCalling

end Desk

/-! ## What an operation does -/

variable {spec : QuerySpec} {s s' : Supply} {e e' : Executor} {q : Inquiry} {d : Desk}

namespace Desk

/-- Looking changes nothing unless the inquiry has drawn its number and not looked yet. -/
theorem look_cases (d : Desk) (i : ℕ) :
    d.look i = d ∨ ∃ least executor supply entry,
      d.inquiries[i]? = some ⟨least, none, none⟩ ∧
      d.executor.join least d.supply = (executor, supply, entry) ∧
      d.look i = { d with
        executor, supply
        inquiries := d.inquiries.set i ⟨least, some entry, match entry with
          | .found o => some (.returned o)
          | _ => none⟩ } := by
  unfold look
  split
  · rename_i least hi
    exact .inr ⟨least, _, _, _, hi, rfl, rfl⟩
  · exact .inl rfl

/-- Collecting changes nothing unless the inquiry waits for an attempt that gives it a result. -/
theorem collect_cases (d : Desk) (i : ℕ) :
    d.collect i = d ∨ ∃ least entry n executor o madeUp,
      d.inquiries[i]? = some ⟨least, some entry, none⟩ ∧ entry.attempt? = some n ∧
      d.executor.await? n = some (executor, o, madeUp) ∧
      d.collect i = { d with
        executor
        inquiries := d.inquiries.set i ⟨least, some entry, some (.returned o)⟩ } := by
  unfold collect
  split
  · rename_i least entry hi
    cases hn : entry.attempt? with
    | none => exact .inl rfl
    | some n =>
      cases hw : d.executor.await? n with
      | none => exact .inl (by simp [hw])
      | some w => exact .inr ⟨least, entry, n, w.1, w.2.1, w.2.2, hi, hn, hw, by simp [hw]⟩
  · exact .inl rfl

theorem leave_cases (d : Desk) (i : ℕ) :
    d.leave i = d ∨ ∃ least entry, d.inquiries[i]? = some ⟨least, entry, none⟩ ∧
      d.leave i = { d with inquiries := d.inquiries.set i ⟨least, entry, some .dropped⟩ } := by
  unfold leave
  split
  · rename_i least entry hi
    exact .inr ⟨least, entry, hi, rfl⟩
  · exact .inl rfl

/-- **The first step of a new attempt's task calls the backend,** unless the executor is closed;
no other step does. -/
theorem begin_cases (h : ExecutorOK d.supply d.executor) (n : Int) :
    d.begin n = d ∨ ∃ a rest, d.executor.attempts = a :: rest ∧ a.number = n ∧ a.stage = .spawned ∧
      (d.executor.closed = false ∧ d.begin n = { d with
          executor := d.executor.advance a rest .calling
          calls := d.calls ++ [d.executor.spec.call a.request] } ∨
        d.executor.closed = true ∧ d.begin n = { d with
          executor := d.executor.store a rest (d.executor.outcomeOf a (.error .executorClosed)) }) := by
  unfold begin
  split
  · rename_i hspawned
    rcases h.begin_cases n with ⟨hno, -⟩ | ⟨a, rest, hl, rfl, hst, hrest⟩
    · exact absurd hspawned hno
    refine .inr ⟨a, rest, hl, rfl, hst, ?_⟩
    have hu := Attempt.unsettled_of_stage hst rfl
    rcases hrest with ⟨hc, hb⟩ | ⟨hc, hb⟩
    · have hfind : (d.executor.advance a rest .calling).attempt? a.number =
          some { a with stage := .calling } :=
        (h.advance hl hu rfl).attempt?_eq_some.2 ⟨List.mem_cons_self, rfl⟩
      exact .inl ⟨hc, by simp only [hb, hfind]; rfl⟩
    · have hfind : (d.executor.store a rest (d.executor.outcomeOf a (.error .executorClosed))).attempt?
          a.number = some { a with stage := .settled _ } :=
        (h.store hl hu (.error .executorClosed)).attempt?_eq_some.2 ⟨List.mem_cons_self, rfl⟩
      exact .inr ⟨hc, by simp only [hb, hfind]⟩
  · exact .inl rfl

end Desk

/-! ## What every run keeps -/

/-- An inquiry is well formed, given what has been drawn and its executor. -/
structure InquiryOK (s : Supply) (e : Executor) (q : Inquiry) : Prop where
  least : q.least ≤ s.number
  known : ∀ n, q.attempt? = some n → ∃ a ∈ e.attempts, a.number = n
  found : ∀ o, q.entry = some (.found o) →
    q.ending = some (.returned o) ∧ q.least < o.number ∧ o ∈ e.results
  returned : ∀ o, q.ending = some (.returned o) → q.entry = some (.found o) ∨
    ∃ a ∈ e.attempts, q.attempt? = some a.number ∧ a.stage = .settled o

/-- A desk at which the given query is asked is well formed. -/
structure DeskOK (spec : QuerySpec) (d : Desk) : Prop where
  asks : d.executor.spec = spec
  executor : ExecutorOK d.supply d.executor
  inquiries : ∀ q ∈ d.inquiries, InquiryOK d.supply d.executor q
  starts : d.inquiries.countP Inquiry.isStart = d.executor.attempts.length
  calls : d.calls.Sublist
    ((d.executor.attempts.filter Attempt.hasBegun).reverse.map fun a => spec.call a.request)
  called : ∀ a ∈ d.executor.attempts, a.isCalling → spec.call a.request ∈ d.calls

theorem InquiryOK.mono (h : InquiryOK s e q) (hs : s.number ≤ s'.number) (hx : ExecutorExt e e') :
    InquiryOK s' e' q := by
  refine ⟨Int.le_trans h.least hs, ?_, ?_, ?_⟩
  · intro n hn
    obtain ⟨a, ha, rfl⟩ := h.known n hn
    obtain ⟨b, hb, hba, -⟩ := hx.attempts a ha
    exact ⟨b, hb, hba⟩
  · intro o ho
    obtain ⟨h1, h2, h3⟩ := h.found o ho
    exact ⟨h1, h2, hx.results.mem h3⟩
  · intro o ho
    rcases h.returned o ho with hf | ⟨a, ha, hn, hst⟩
    · exact .inl hf
    · obtain ⟨b, hb, hba, -, hkeep⟩ := hx.attempts a ha
      exact .inr ⟨b, hb, by rw [hba]; exact hn, hkeep o hst⟩

namespace DeskOK

theorem fresh (spec : QuerySpec) (closed : Bool) (s : Supply) :
    DeskOK spec (.fresh spec closed s) :=
  ⟨rfl, .fresh spec closed, by simp [Desk.fresh], rfl, by simp [Desk.fresh],
    by simp [Desk.fresh, Executor.ofSpec]⟩

/-- Others draw. -/
theorem drawn (h : DeskOK spec d) (hn : d.supply.number ≤ s.number)
    (hr : d.supply.request ≤ s.request) : DeskOK spec { d with supply := s } :=
  ⟨h.asks, h.executor.mono hn hr, fun q hq => (h.inquiries q hq).mono hn (.refl _), h.starts,
    h.calls, h.called⟩

/-- An inquiry that started nothing goes on. -/
theorem set (h : DeskOK spec d) {i : ℕ} {q q' : Inquiry} (hi : d.inquiries[i]? = some q)
    (hq : InquiryOK d.supply d.executor q') (hstart : q'.isStart = q.isStart) :
    DeskOK spec { d with inquiries := d.inquiries.set i q' } := by
  refine ⟨h.asks, h.executor, ?_, ?_, h.calls, h.called⟩
  · intro p hp
    rcases List.mem_or_eq_of_mem_set hp with hp | rfl
    · exact h.inquiries p hp
    · exact hq
  · obtain ⟨hlt, rfl⟩ := List.getElem?_eq_some_iff.1 hi
    rw [show ({ d with inquiries := d.inquiries.set i q' } : Desk).inquiries =
      d.inquiries.set i q' from rfl, List.countP_set hlt, hstart, ← h.starts]
    have hpos : d.inquiries[i].isStart = true → 0 < d.inquiries.countP Inquiry.isStart :=
      fun hp => List.countP_pos_iff.2 ⟨_, List.getElem_mem hlt, hp⟩
    split
    · rename_i hp
      have := hpos hp
      omega
    · omega

/-- The youngest attempt moves to another stage, and the backend is not called for it. -/
theorem of_head (h : DeskOK spec d) (hs : d.executor.Step e') {a : Attempt} {rest : List Attempt}
    (hl : d.executor.attempts = a :: rest) {st : Stage}
    (hl' : e'.attempts = { a with stage := st } :: rest)
    (hb : ({ a with stage := st } : Attempt).hasBegun)
    (hc : ({ a with stage := st } : Attempt).isCalling → a.isCalling) :
    DeskOK spec { d with executor := e' } := by
  have hx := ExecutorExt.step hs
  have hstarts := h.starts
  have hcalls := h.calls
  have hcalled := h.called
  rw [hl] at hstarts hcalls hcalled
  refine ⟨hx.spec.trans h.asks, h.executor.step hs,
    fun q hq => (h.inquiries q hq).mono (Int.le_refl _) hx, ?_, ?_, ?_⟩
  · rw [hl']; exact hstarts
  · show d.calls.Sublist _
    rw [hl', List.filter_cons_of_pos hb]
    cases hab : a.hasBegun with
    | true =>
      rw [List.filter_cons_of_pos hab] at hcalls
      simpa using hcalls
    | false =>
      rw [List.filter_cons_of_neg (by simp [hab])] at hcalls
      rw [List.reverse_cons, List.map_append]
      exact hcalls.trans (List.sublist_append_left _ _)
  · show ∀ b ∈ e'.attempts, _
    rw [hl']
    intro b hb hbc
    rcases List.mem_cons.1 hb with rfl | hb
    · exact hcalled a List.mem_cons_self (hc hbc)
    · exact hcalled b (List.mem_cons_of_mem _ hb) hbc

/-- The youngest attempt ends. -/
theorem of_store (h : DeskOK spec d) {a : Attempt} {rest : List Attempt}
    (hl : d.executor.attempts = a :: rest) (hu : a.Unsettled)
    (result : Except Error OperationResult) :
    DeskOK spec { d with executor := d.executor.store a rest (d.executor.outcomeOf a result) } :=
  h.of_head (.store result hl hu) hl rfl rfl (by simp [Attempt.isCalling])

theorem look (h : DeskOK spec d) (i : ℕ) : DeskOK spec (d.look i) := by
  rcases d.look_cases i with hsame | ⟨least, executor, supply, entry, hi, hj, hlook⟩
  · rw [hsame]; exact h
  have hq := h.inquiries _ (List.mem_of_getElem? hi)
  rcases d.executor.join_cases least d.supply with
    ⟨o, hj', hlast, hlt⟩ | ⟨n, hj', hslot, -⟩ | ⟨hj', hslot, -⟩ <;>
    rw [hj'] at hj <;> obtain ⟨rfl, rfl, rfl⟩ := hj <;> rw [hlook]
  · refine h.set hi ⟨hq.least, by simp [Inquiry.attempt?, Entry.attempt?], ?_, ?_⟩ rfl
    · intro r hr
      obtain rfl : o = r := by simpa using hr
      rw [h.executor.last] at hlast
      exact ⟨rfl, hlt, List.mem_of_mem_head? hlast⟩
    · intro r hr
      obtain rfl : o = r := by simpa using hr
      exact .inl rfl
  · refine h.set hi ⟨hq.least, ?_, by simp, by simp⟩ rfl
    intro m hm
    obtain rfl : n = m := by simpa [Inquiry.attempt?, Entry.attempt?] using hm
    obtain ⟨a, rest, hl, -, hn⟩ := h.executor.attempt_of_slot hslot
    exact ⟨a, by rw [hl]; exact List.mem_cons_self, hn⟩
  · have hx := ExecutorExt.start d.executor (d.supply.number + 1) ⟨d.supply.request + 1⟩
    have hnum : d.supply.number ≤ d.supply.number + 1 := by omega
    obtain ⟨hlt, hget⟩ := List.getElem?_eq_some_iff.1 hi
    refine ⟨h.asks, h.executor.start hslot (by omega) (by simp) (Int.le_refl _) (Nat.le_refl _),
      ?_, ?_, ?_, ?_⟩
    · intro p hp
      rcases List.mem_or_eq_of_mem_set hp with hp | rfl
      · exact (h.inquiries p hp).mono hnum hx
      · refine ⟨Int.le_trans hq.least hnum, ?_, by simp, by simp⟩
        intro n hn
        exact ⟨_, List.mem_cons_self, by simpa [Inquiry.attempt?, Entry.attempt?] using hn⟩
    · rw [List.countP_set hlt, hget, h.starts]
      rfl
    · rw [show (d.executor.start _ _).attempts.filter Attempt.hasBegun =
        d.executor.attempts.filter Attempt.hasBegun from List.filter_cons_of_neg (by simp [Attempt.hasBegun])]
      exact h.calls
    · intro a ha hc
      rcases List.mem_cons.1 ha with rfl | ha
      · simp [Attempt.isCalling] at hc
      · exact h.called a ha hc

theorem collect (h : DeskOK spec d) (i : ℕ) : DeskOK spec (d.collect i) := by
  rcases d.collect_cases i with hsame | ⟨least, entry, n, e', o, madeUp, hi, hn, hw, hcollect⟩
  · rw [hsame]; exact h
  have hq := h.inquiries _ (List.mem_of_getElem? hi)
  rw [hcollect]
  -- the inquiry collects what the attempt ended in, possibly just now
  have hd : DeskOK spec { d with executor := e' } := by
    rcases h.executor.await?_cases hw with ⟨rfl, -⟩ | ⟨a, rest, hl, -, hst, rfl, rfl⟩
    · exact h
    · exact h.of_store hl (Attempt.unsettled_of_stage hst rfl) _
  have ho : ∃ a ∈ e'.attempts, a.number = n ∧ a.stage = .settled o := by
    rcases h.executor.await?_cases hw with ⟨rfl, ha⟩ | ⟨a, rest, hl, hn, hst, -, rfl⟩
    · exact ha
    · exact ⟨_, List.mem_cons_self, hn, rfl⟩
  refine hd.set hi ⟨hq.least, (hd.inquiries _ (List.mem_of_getElem? hi)).known, ?_, ?_⟩ rfl
  · intro r hr
    obtain rfl : entry = .found r := by simpa using hr
    simp [Entry.attempt?] at hn
  · intro r hr
    obtain rfl : o = r := by simpa using hr
    obtain ⟨a, ha, han, hst⟩ := ho
    exact .inr ⟨a, ha, by simp [Inquiry.attempt?, hn, han], hst⟩

theorem leave (h : DeskOK spec d) (i : ℕ) : DeskOK spec (d.leave i) := by
  rcases d.leave_cases i with hsame | ⟨least, entry, hi, hleave⟩
  · rw [hsame]; exact h
  have hq := h.inquiries _ (List.mem_of_getElem? hi)
  rw [hleave]
  refine h.set hi ⟨hq.least, hq.known, ?_, by simp⟩ rfl
  intro o ho
  have := (hq.found o ho).1
  simp at this

theorem begin (h : DeskOK spec d) (n : Int) : DeskOK spec (d.begin n) := by
  rcases d.begin_cases h.executor n with
    hsame | ⟨a, rest, hl, -, hst, ⟨-, hb⟩ | ⟨-, hb⟩⟩
  · rw [hsame]; exact h
  · have hu := Attempt.unsettled_of_stage hst rfl
    have hs : d.executor.Step (d.executor.advance a rest .calling) := .advance hl hu rfl
    have hx := ExecutorExt.step hs
    have hcalls := h.calls
    rw [hl, List.filter_cons_of_neg (by simp [Attempt.hasBegun, hst])] at hcalls
    rw [hb]
    refine ⟨h.asks, h.executor.step hs, fun q hq => (h.inquiries q hq).mono (Int.le_refl _) hx,
      ?_, ?_, ?_⟩
    · rw [show (d.executor.advance a rest .calling).attempts.length = (a :: rest).length from rfl,
        ← hl]
      exact h.starts
    · show (d.calls ++ [_]).Sublist (List.map _ (List.reverse (List.filter _ (_ :: rest))))
      rw [List.filter_cons_of_pos (by rfl), List.reverse_cons, List.map_append, h.asks]
      exact hcalls.append (List.Sublist.refl _)
    · intro b hb hbc
      rcases List.mem_cons.1 hb with rfl | hb
      · rw [h.asks]; exact List.mem_append_right _ List.mem_cons_self
      · exact List.mem_append_left _ (h.called b (by rw [hl]; exact List.mem_cons_of_mem _ hb) hbc)
  · rw [hb]
    exact h.of_store hl (Attempt.unsettled_of_stage hst rfl) _

/-- **Every event keeps a desk well formed.** -/
theorem step (h : DeskOK spec d) (ev : DeskEvent) : DeskOK spec (d.step ev) := by
  cases ev with
  | drawn numbers requests =>
    have hnum : d.supply.number ≤ d.supply.number + numbers := by omega
    exact h.drawn hnum (Nat.le_add_right _ _)
  | ask =>
    have hnum : d.supply.number ≤ d.supply.number + 1 := by omega
    have hd : DeskOK spec { d with supply := ⟨d.supply.number + 1, d.supply.request⟩ } :=
      h.drawn hnum (Nat.le_refl _)
    refine ⟨hd.asks, hd.executor, ?_, ?_, hd.calls, hd.called⟩
    · intro q hq
      rcases List.mem_append.1 hq with hq | hq
      · exact hd.inquiries q hq
      · obtain rfl := List.mem_singleton.1 hq
        exact ⟨Int.le_refl _, by simp [Inquiry.attempt?], by simp, by simp⟩
    · show List.countP _ (d.inquiries ++ [_]) = _
      rw [List.countP_append, h.starts]
      rfl
  | look i => exact h.look i
  | collect i => exact h.collect i
  | leave i => exact h.leave i
  | begin n => exact h.begin n
  | answer n reply =>
    rcases h.executor.answer_cases n reply with hsame | ⟨a, rest, hl, -, hst, ha⟩
    · show DeskOK spec { d with executor := d.executor.answer n reply }
      rw [hsame]; exact h
    · refine h.of_head (h.executor.step_answer n reply) hl (by rw [ha]; rfl) rfl ?_
      intro; simp [Attempt.isCalling, hst]
  | resume n =>
    show DeskOK spec { d with executor := d.executor.resume n }
    rcases h.executor.resume_cases n with
      hb | ⟨a, rest, hl, -, hc, ⟨-, hb⟩ | ⟨-, ⟨r, -, hb⟩ | ⟨-, hb⟩⟩⟩ <;> rw [hb]
    · exact h
    · exact h.of_store hl (ExecutorOK.unsettled_of_isCalling hc) _
    · exact h.of_store hl (ExecutorOK.unsettled_of_isCalling hc) _
    · exact h.of_head (.advance hl (ExecutorOK.unsettled_of_isCalling hc) rfl) hl rfl rfl
        (by simp [Attempt.isCalling])
  | kill n =>
    show DeskOK spec { d with executor := d.executor.kill n }
    rcases h.executor.kill_cases n with hb | ⟨a, rest, hl, -, hu, hb⟩ <;> rw [hb]
    · exact h
    · exact h.of_head (.advance hl hu rfl) hl rfl rfl (by simp [Attempt.isCalling])
  | close =>
    exact ⟨h.asks, h.executor.close, fun q hq => (h.inquiries q hq).mono (Int.le_refl _)
      (.step .close), h.starts, h.calls, h.called⟩

/-- **Every run keeps a desk well formed.** -/
theorem run (h : DeskOK spec d) (es : List DeskEvent) : DeskOK spec (d.run es) := by
  induction es generalizing d with
  | nil => exact h
  | cons ev es ih => exact ih (h.step ev)

end DeskOK

end QueryClient
