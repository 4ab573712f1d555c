import QueryClient.Proofs.Manager.Orderly

/-!
# After the end of a manager

When a manager has been cancelled, no attempt calls the backend any more, and an attempt that had
called it fails, with those who wait for it. When no task can go on, none is left.

* `NotesNoCall`: no call is noted.
* `QueryManager.Doomed`, `Condemned`: an attempt will be cancelled, and a caller waits for it or has
  been told so.
* `Aftermath`: **what follows from the end;** `Act.stopped`, `Lending.Proper.aftermath`.
* `AllOver`: **nothing is left;** `Lending.Proper.allOver`.
-/

namespace QueryClient

variable {m m' m₀ m₁ : QueryManager} {b b' : Bench} {t u : TaskId} {given : Input} {held : List Lease}
variable {id : InstanceId} {e e' : Executor} {a : Attempt} {c : Caller} {n : Int} {l : Lending}
variable {gone : TaskId → Prop}

/-! ## No calls -/

/-- A call of the backend is noted. -/
def Note.isCall : Note → Bool
  | .called .. => true
  | _ => false

/-- **No call is noted** from one state to the other. -/
def NotesNoCall (m m' : QueryManager) : Prop := m'.journal.filter Note.isCall = m.journal.filter Note.isCall

namespace NotesNoCall

theorem of_eq (h : m'.journal = m.journal) : NotesNoCall m m' := congrArg _ h

theorem note (m : QueryManager) {note : Note} (hn : note.isCall = false) : NotesNoCall m (m.note note) := by
  unfold NotesNoCall QueryManager.note
  simp [hn]

theorem trans (h : NotesNoCall m m') (h' : NotesNoCall m' m₁) : NotesNoCall m m₁ := Eq.trans h' h

end NotesNoCall

theorem journal_of_leaseStep (h : LeaseStep m m') : m'.journal = m.journal := by rw [h.frame]

/-- **No act calls the backend** when all executors are closed. -/
theorem Act.quiet (h : Act t given b b')
    (hshut : ∀ id e, b.manager.executor? id = some e → e.closed = true) :
    NotesNoCall b.manager b'.manager := by
  cases h with
  | acquire spec _ => exact .of_eq (journal_of_leaseStep (.acquire _ spec))
  | release x => exact .of_eq (journal_of_leaseStep (.releaseLease _ x))
  | close id _ => exact .of_eq (journal_of_leaseStep (.closeInstance _ id))
  | remark n hn =>
    refine .note _ ?_
    cases n with
    | called => exact hn.elim
    | _ => rfl
  | @call m x f id e a rest he hl hst hc htask hq =>
    have hclosed : e.closed = true := hshut id e he
    rw [hc] at hclosed
    simp at hclosed
  | hand => exact .note _ rfl
  | finish => exact .trans (.of_eq rfl) (.note _ rfl)
  | complete => exact .trans (.of_eq rfl) (.note _ rfl)
  | _ => exact .of_eq rfl

/-! ## What becomes of those who wait -/

/-- The backend was called for the attempt, and its answer will not be taken; or it was not. -/
def Attempt.Lost (a : Attempt) : Prop :=
  a.isCalling ∨ ∃ o, a.stage = .settled o ∧ o.value.result = .error .executionCancelled

/-- An attempt will be cancelled, or has been. -/
def QueryManager.Doomed (m : QueryManager) (id : InstanceId) (n : Int) : Prop :=
  ∃ e, m.executor? id = some e ∧ ∃ a ∈ e.attempts, a.number = n ∧ a.Lost

/-- The caller waits for the attempt, or was told of its cancellation, or lost interest. -/
def Caller.Lost (c : Caller) (gone : Prop) (id : InstanceId) (n : Int) : Prop :=
  (∃ lease, c.stage = .waiting id n lease) ∨ gone ∧ c.stage = .ended .dropped ∨
    ∃ o, c.stage = .ended (.returned o) ∧ o.value.result = .error .executionCancelled

/-- **A caller waits for an attempt that will be cancelled,** or has been, unless it is one of those
that lose interest. -/
structure Condemned (gone : TaskId → Prop) (m : QueryManager) (u : TaskId) (id : InstanceId) (n : Int) :
    Prop where
  attempt : m.Doomed id n
  caller : ∃ c, m.tasks[u]? = some (.caller c) ∧ c.Lost (gone u) id n

/-- An attempt whose answer will not be taken is cancelled. -/
theorem Act.doomed (h : Act t given b b') (hok : ManagerOK b.manager) (hc : Coherent b.manager)
    (hshut : ∀ id e, b.manager.executor? id = some e → e.closed = true)
    (hdoomed : b.manager.Doomed id n) : b'.manager.Doomed id n := by
  obtain ⟨e, he, a, ha, rfl, hlost⟩ := hdoomed
  obtain ⟨e', he', hext⟩ := h.extends id e he
  obtain ⟨a', ha', hn, -, hsettled⟩ := hext.attempts a ha
  refine ⟨e', he', a', ha', hn, ?_⟩
  rcases hlost with hcalling | ⟨o, hst, ho⟩
  · -- the attempt of this number is the only one that this can be about
    have heq : ∀ {f : Executor} {x : Attempt}, b.manager.executor? id = some f → x ∈ f.attempts →
        x.number = a'.number → f = e ∧ x = a := by
      intro f x hf hx hxn
      obtain rfl := Option.some.inj (he.symm.trans hf)
      exact ⟨rfl, (hok.executor he).eq_of_number hx ha (hxn.trans hn)⟩
    cases h.attempt_cases hc.registered he' ha' with
    | same hf hx =>
      obtain ⟨-, rfl⟩ := heq hf hx rfl
      exact .inl hcalling
    | @moved f x st hf hx hmove hax =>
      obtain ⟨rfl, rfl⟩ := heq hf hx (by rw [hax])
      have hclosed := hshut id f hf
      rw [hax]
      cases hmove with
      | call _ hopen => rw [hclosed] at hopen; simp at hopen
      | reply => exact .inl rfl
      | die _ hopen => rw [hclosed] at hopen; simp at hopen
      | settle hcause =>
        cases hcause with
        | refused hst => simp [Attempt.isCalling, hst] at hcalling
        | cancelled => exact .inr ⟨_, rfl, rfl⟩
        | answered _ hopen => rw [hclosed] at hopen; simp at hopen
        | dropped hst => simp [Attempt.isCalling, hst] at hcalling
    | started hf _ _ hnum =>
      have := ((hok.executor he).drawn a ha).1
      omega
  · exact .inr ⟨o, hsettled o hst, ho⟩

/-- What a caller is told that waits for an attempt whose answer will not be taken. -/
theorem QueryManager.Ends.lost (hok : ManagerOK m) (he : m.executor? id = some e)
    (ha : a ∈ e.attempts) (hlost : a.Lost) {lease : Option Lease}
    (hst : c.stage = .waiting id a.number lease) {ending : Ending NumberedOutcome}
    (h : m.Ends c given none ending) :
    Caller.Lost { c with stage := .ended ending } given.drops id a.number := by
  cases h with
  | @returned i lease' f o hasks hf ho hwait =>
    obtain ⟨rfl, hn⟩ := hwait _ _ _ hst
    obtain rfl := Option.some.inj (he.symm.trans hf)
    obtain ⟨x, hx, hxo⟩ := ExecutorOK.mem_results.1 ho
    have hxn := ((hok.executor he).outcome x hx o hxo).1
    obtain rfl := (hok.executor he).eq_of_number hx ha (hxn.symm.trans hn)
    refine .inr (.inr ⟨o, rfl, ?_⟩)
    rcases hlost with hcalling | ⟨o', hst', ho'⟩
    · simp [Attempt.isCalling, hxo] at hcalling
    · rw [Stage.settled.inj (hxo.symm.trans hst')]
      exact ho'
  | dropped hd => exact .inr (.inl ⟨hd, rfl⟩)
  | block harriving =>
    rw [hst] at harriving
    simp at harriving

/-- **Who waits for an attempt whose answer will not be taken** is told so. -/
theorem Act.condemned (h : Act t given b b') (hok : ManagerOK b.manager) (hc : Coherent b.manager)
    (hfault : b.fault = none)
    (hshut : ∀ id e, b.manager.executor? id = some e → e.closed = true)
    (hgone : given.drops → gone t) (hcond : Condemned gone b.manager u id n) :
    Condemned gone b'.manager u id n := by
  obtain ⟨hdoomed, c, htask, hcaller⟩ := hcond
  refine ⟨h.doomed hok hc hshut hdoomed, ?_⟩
  obtain ⟨e, he, a, ha, rfl, hlost⟩ := hdoomed
  obtain ⟨y, hy, -, hother⟩ := h.tasksKept u _ htask
  by_cases hu : u = t
  swap
  · exact ⟨c, by rw [← hother hu]; exact hy, hcaller⟩
  subst hu
  -- the caller is at work
  have hlt := lt_of_task htask
  have hcaller_of : ∀ {m : QueryManager} {d : Caller}, m.tasks[u]? = some (.caller c) →
      m.tasks[u]? = some (.caller d) → d = c := by
    intro m d hm hd
    exact Task.caller.inj (Option.some.inj (hd.symm.trans hm))
  have hwaits : ∀ {d : Caller}, d.Pending → d = c → ∃ lease, d.stage = .waiting id a.number lease := by
    rintro d hd rfl
    rcases hcaller with hwait | ⟨-, hend⟩ | ⟨o, hend, -⟩
    · exact hwait
    · exact absurd hend (hd _)
    · exact absurd hend (hd _)
  cases h with
  | acquire spec _ => exact ⟨c, by rw [tasks_acquire]; exact htask, hcaller⟩
  | release x => exact ⟨c, by rw [tasks_releaseLease]; exact htask, hcaller⟩
  | close i _ => exact ⟨c, by rw [tasks_closeInstance]; exact htask, hcaller⟩
  | start => exact ⟨c, (getElem?_spawn _ _ _).trans ((if_neg (Nat.ne_of_lt hlt)).trans htask), hcaller⟩
  | ask => exact ⟨c, (getElem?_spawn _ _ _).trans ((if_neg (Nat.ne_of_lt hlt)).trans htask), hcaller⟩
  | subscribe => exact ⟨c, (getElem?_spawn _ _ _).trans ((if_neg (Nat.ne_of_lt hlt)).trans htask), hcaller⟩
  | @wait m x f i e' a' d htask' hpend hasks he' ha' hwait =>
    obtain ⟨lease, hst⟩ := hwaits hpend (hcaller_of htask htask')
    obtain ⟨rfl, hn⟩ := hwait _ _ _ hst
    exact ⟨_, (getElem?_setTask htask' _ _).trans (if_pos rfl), .inl ⟨x, by rw [hn]⟩⟩
  | @finish m f d ending htask' hpend hend =>
    obtain ⟨lease, hst⟩ := hwaits hpend (hcaller_of htask htask')
    obtain rfl : f = none := hfault
    have hlost' := (hend.lost hok he ha hlost hst).imp_right (Or.imp_left (And.imp_left hgone))
    exact ⟨_, (getElem?_setTask htask' _ _).trans (if_pos rfl), hlost'⟩
  | look htask' => simp [htask] at htask'
  | complete htask' => simp [htask] at htask'
  | fail htask' => simp [htask] at htask'
  | _ => exact ⟨c, htask, hcaller⟩

/-! ## What follows from the end -/

/-- **What follows** once a manager has been cancelled: no call is noted, and who waits for an attempt
that had called the backend is told of its cancellation. -/
structure Aftermath (gone : TaskId → Prop) (m m' : QueryManager) : Prop where
  quiet : NotesNoCall m m'
  doomed : ∀ id n, m.Doomed id n → m'.Doomed id n
  condemned : ∀ u id n, Condemned gone m u id n → Condemned gone m' u id n

theorem Aftermath.refl (m : QueryManager) : Aftermath gone m m :=
  ⟨.of_eq rfl, fun _ _ h => h, fun _ _ _ h => h⟩

theorem Aftermath.trans (h : Aftermath gone m m') (h' : Aftermath gone m' m₁) : Aftermath gone m m₁ :=
  ⟨h.quiet.trans h'.quiet, fun id n hd => h'.doomed id n (h.doomed id n hd),
    fun u id n hc => h'.condemned u id n (h.condemned u id n hc)⟩

theorem Act.cancelled (h : Act t given b b') (hc : b.manager.cancelled) : b'.manager.cancelled := by
  cases h with
  | acquire spec _ => rw [(LeaseStep.acquire _ spec).frame]; exact hc
  | release x => rw [(LeaseStep.releaseLease _ x).frame]; exact hc
  | close id _ => rw [(LeaseStep.closeInstance _ id).frame]; exact hc
  | cancel => rfl
  | _ => exact hc

/-- A cancelled manager at a point after another, with its leases. -/
structure Stopped (gone : TaskId → Prop) (m₀ m : QueryManager) (held : List Lease) : Prop where
  orderly : Orderly m held
  cancelled : m.cancelled
  since : Aftermath gone m₀ m

theorem Stopped.congr (h : Stopped gone m₀ m held) (heq : m' = { m with queue := m'.queue }) :
    Stopped gone m₀ m' held := by
  rw [heq]
  exact ⟨h.orderly.congr rfl, h.cancelled, h.since.quiet, h.since.doomed, fun u id n hcond =>
    ⟨(h.since.condemned u id n hcond).attempt, (h.since.condemned u id n hcond).caller⟩⟩

/-- A cancelled manager at a point after another, while a task is at work. -/
structure Bench.Stopped (b : Bench) (gone : TaskId → Prop) (m₀ : QueryManager) (t : TaskId)
    (held : List Lease) : Prop where
  orderly : b.Orderly t held
  cancelled : b.manager.cancelled
  since : Aftermath gone m₀ b.manager

/-- **Every act keeps to what follows from the end.** -/
theorem Act.stopped (h : Act t given b b') (hok : ManagerOK b.manager) (hc : Coherent b.manager)
    (hg : given.closes = false) (hgone : given.drops → gone t) (hb : b.Stopped gone m₀ t held) :
    b'.Stopped gone m₀ t held := by
  have hshut : ∀ id e, b.manager.executor? id = some e → e.closed = true :=
    fun id e he => hb.orderly.orderly.leases.shut hb.cancelled he
  refine ⟨h.orderly hg hb.orderly, h.cancelled hb.cancelled,
    hb.since.trans ⟨h.quiet hshut, fun id n hdoomed => h.doomed hok hc hshut hdoomed, ?_⟩⟩
  exact fun u id n hcond => h.condemned hok hc hb.orderly.fault hshut hgone hcond

theorem Acts.stopped (h : Acts t given b b') (hok : ManagerOK b.manager) (hc : Coherent b.manager)
    (hg : given.closes = false) (hgone : given.drops → gone t) (hb : b.Stopped gone m₀ t held) :
    b'.Stopped gone m₀ t held := by
  induction h with
  | refl => exact hb
  | tail hacts hact ih => exact hact.stopped (Acts.ok hacts hok) (Acts.coherent hacts hc hok) hg hgone ih

namespace Lending.Proper

/-- **What follows from the end of a manager.** -/
theorem aftermath (h : l.Proper) (hc : l.manager.cancelled) {ev : ManagerEvent}
    (hev : ev.closes = false) (hgone : ∀ t, ev = .abort t → gone t) :
    (l.next ev).manager.cancelled ∧ Aftermath gone l.manager (l.next ev).manager := by
  have hstopped : Stopped gone l.manager (l.next ev).manager
      ((l.next ev).manager.taskLeases ++ (l.next ev).held) := by
    refine carry (P := Stopped gone l.manager) h.ok h.coherent
      (fun hp hs => ⟨hs.orderly.perm hp, hs.cancelled, hs.since⟩) (fun heq hs => hs.congr heq)
      (fun hgives hok hcoh hacts hs => ?_) ⟨h.orderly, hc, .refl _⟩
    have hb := Acts.stopped hacts hok hcoh (hgives.closes_eq_false hev)
      (fun hd => hgone _ (hgives.drops hd)) ⟨⟨hs.orderly, rfl⟩, hs.cancelled, hs.since⟩
    exact ⟨hb.orderly.orderly, hb.cancelled, hb.since⟩
  exact ⟨hstopped.cancelled, hstopped.since⟩

end Lending.Proper

/-- An attempt is still doomed when the manager is cancelled. -/
theorem QueryManager.Doomed.cancel (h : m.Doomed id n) : m.cancel.Doomed id n := by
  obtain ⟨e, he, hlost⟩ := h
  rw [(queued_cancel m).frame]
  obtain ⟨q, hq, rfl⟩ := QueryManager.executor?_eq_some.1 he
  refine ⟨q.executor.close, ?_, hlost⟩
  exact QueryManager.executor?_eq_some.2 ⟨{ q with executor := q.executor.close }, by simp [hq], rfl⟩

theorem Condemned.cancel (h : Condemned gone m u id n) : Condemned gone m.cancel u id n := by
  refine ⟨h.attempt.cancel, ?_⟩
  rw [(queued_cancel m).frame]
  exact h.caller

/-! ## Nothing is left -/

/-- **Nothing is left** of what went on in a manager. -/
structure AllOver (m : QueryManager) : Prop where
  attempts : ∀ id e, m.executor? id = some e → ∀ a ∈ e.attempts,
    a.stage = .dead ∨ ∃ o, a.stage = .settled o
  callers : ∀ (u : TaskId) c, m.tasks[u]? = some (.caller c) → ∃ ending, c.stage = .ended ending
  subscriptions : ∀ (u : TaskId) s, m.tasks[u]? = some (.subscription s) → s.stage = .completed

/-- **When a cancelled manager has no task that can go on, nothing is left.** -/
theorem Lending.Proper.allOver (h : l.Proper) (hc : l.manager.cancelled)
    (hidle : l.manager.queue = []) : AllOver l.manager := by
  have hrest : ∀ (u : TaskId) x, l.manager.tasks[u]? = some x → l.manager.isReady x = false := by
    intro u x hx
    cases hr : l.manager.isReady x with
    | false => rfl
    | true =>
      have := h.awake u x hx hr
      rw [hidle] at this
      simp at this
  have hattempts : ∀ id e, l.manager.executor? id = some e → ∀ a ∈ e.attempts,
      a.stage = .dead ∨ ∃ o, a.stage = .settled o := by
    intro id e he a ha
    obtain ⟨u, hu⟩ := h.coherent.tasked id e he a ha
    have hready := hrest u _ hu
    have hst : e.stage? a.number = some a.stage :=
      (h.ok.executor he).stage?_eq_some.2 ⟨a, ha, rfl, rfl⟩
    have hclosed := h.orderly.leases.shut hc he
    simp only [QueryManager.isReady, he, Option.any_some, Executor.attemptReady, hst] at hready
    cases hstage : a.stage with
    | dead => exact .inl rfl
    | settled o => exact .inr ⟨o, rfl⟩
    | calling => simp [hstage, hclosed] at hready
    | _ => simp [hstage] at hready
  refine ⟨hattempts, fun u c hu => ?_, fun u s hu => ?_⟩
  · have hready := hrest u _ hu
    cases hst : c.stage with
    | arriving => simp [QueryManager.isReady, hst] at hready
    | ended ending => exact ⟨ending, rfl⟩
    | waiting id n lease =>
      -- the attempt that it waits for has ended
      obtain ⟨-, e, he, a, ha, rfl⟩ := (h.coherent.caller hu).waiting id n lease hst
      have hstage : e.stage? a.number = some a.stage :=
        (h.ok.executor he).stage?_eq_some.2 ⟨a, ha, rfl, rfl⟩
      simp only [QueryManager.isReady, hst, he, Option.any_some, Executor.awaitReady, hstage] at hready
      rcases hattempts id e he a ha with hdead | ⟨o, hsettled⟩
      · simp [hdead] at hready
      · simp [hsettled] at hready
  · have hready := hrest u _ hu
    cases hst : s.stage with
    | running => simp [QueryManager.isReady, hst, hc] at hready
    | completed => rfl
    | panicked text => exact absurd hst (h.orderly.mild u _ hu text)

namespace AllOver

/-- No task holds a lease. -/
theorem taskLeases (h : AllOver m) : m.taskLeases = [] := by
  refine List.filterMap_eq_nil_iff.2 fun x hx => ?_
  obtain ⟨u, hu⟩ := List.mem_iff_getElem?.1 hx
  cases x with
  | attempt id n => rfl
  | caller c =>
    obtain ⟨ending, hst⟩ := h.callers u c hu
    simp only [Task.lease?, Caller.lease?, hst]
  | subscription s => simp only [Task.lease?, Subscription.lease?, h.subscriptions u s hu]

/-- No task waits for the backend. -/
theorem isCalling (h : AllOver m) (hok : ManagerOK m) (u : TaskId) : m.isCalling u = false := by
  unfold QueryManager.isCalling
  split
  · rename_i id n htask
    split
    · rename_i hst
      obtain ⟨e, he, hst⟩ := Option.bind_eq_some_iff.1 hst
      obtain ⟨a, ha, -, hcalling⟩ := (hok.executor he).stage?_eq_some.1 hst
      rcases h.attempts id e he a ha with hdead | ⟨o, hsettled⟩
      · simp [hdead] at hcalling
      · simp [hsettled] at hcalling
    · rfl
  · rfl

/-- An attempt that had called the backend was cancelled. -/
theorem doomed (h : AllOver m) (hdoomed : m.Doomed id n) : ∃ e, m.executor? id = some e ∧
    ∃ a ∈ e.attempts, a.number = n ∧
      ∃ o, a.stage = .settled o ∧ o.value.result = .error .executionCancelled := by
  obtain ⟨e, he, a, ha, hn, hcalling | hsettled⟩ := hdoomed
  · rcases h.attempts id e he a ha with hdead | ⟨o, hsettled⟩
    · simp [Attempt.isCalling, hdead] at hcalling
    · simp [Attempt.isCalling, hsettled] at hcalling
  · exact ⟨e, he, a, ha, hn, hsettled⟩

/-- A caller that waited for an attempt that had called the backend was told of its cancellation, or
had lost interest. -/
theorem condemned (h : AllOver m) (hcond : Condemned gone m u id n) :
    ∃ c, m.tasks[u]? = some (.caller c) ∧ (gone u ∧ c.stage = .ended .dropped ∨
      ∃ o, c.stage = .ended (.returned o) ∧ o.value.result = .error .executionCancelled) := by
  obtain ⟨-, c, htask, hcaller⟩ := hcond
  refine ⟨c, htask, ?_⟩
  rcases hcaller with ⟨lease, hst⟩ | hend
  · obtain ⟨ending, hended⟩ := h.callers u c htask
    simp [hst] at hended
  · exact hend

end AllOver

end QueryClient
