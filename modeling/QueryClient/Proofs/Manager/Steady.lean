import QueryClient.Proofs.Manager.Ledger

/-!
# What a run of a task leaves as it is

No task cancels the manager. Most of what tasks do draws no number, opens no live query and starts no
other task.

* `Steady`: nothing is drawn, opened, started or cancelled.
* `Steady.finishCaller`, …, `Steady.deliver`: the parts of a task's run that leave all this as it is.
* `Grows`: nothing that was drawn, opened or started is undone.
* `Unseen`, `step_outside`: events from outside note nothing and leave tasks as they are.
* `cancelled_runTask`, `cancelled_step`: **only its users cancel a manager.**
-/

namespace QueryClient

variable {m m' m'' : QueryManager} {t : TaskId} {ev : ManagerEvent}

/-- **Nothing is drawn, opened, started or cancelled.** -/
structure Steady (m m' : QueryManager) : Prop where
  supply : m'.supply = m.supply
  cancelled : m'.cancelled = m.cancelled
  lives : m'.lives.length = m.lives.length
  tasks : m'.tasks.length = m.tasks.length

namespace Steady

theorem refl (m : QueryManager) : Steady m m := ⟨rfl, rfl, rfl, rfl⟩

theorem trans (h : Steady m m') (h' : Steady m' m'') : Steady m m'' :=
  ⟨h'.supply.trans h.supply, h'.cancelled.trans h.cancelled, h'.lives.trans h.lives,
    h'.tasks.trans h.tasks⟩

theorem note (m : QueryManager) (n : Note) : Steady m (m.note n) := ⟨rfl, rfl, rfl, rfl⟩

theorem setTask (m : QueryManager) (t : TaskId) (x : Task) : Steady m (m.setTask t x) :=
  ⟨rfl, rfl, rfl, List.length_set⟩

theorem setExecutor (m : QueryManager) (id : InstanceId) (e : Executor) :
    Steady m (m.setExecutor id e) := ⟨rfl, rfl, List.length_modify .., rfl⟩

theorem closeInstance (m : QueryManager) (id : InstanceId) : Steady m (m.closeInstance id).1 := by
  unfold QueryManager.closeInstance
  split
  · exact refl m
  · exact ⟨rfl, rfl, List.length_set, rfl⟩

theorem releaseLease (m : QueryManager) (x : Lease) : Steady m (m.releaseLease x).1 := by
  unfold QueryManager.releaseLease
  simp only
  split
  · obtain ⟨hs, hc, hl, ht⟩ := closeInstance { m with registry := (m.registry.release x.key x.id).1 } x.id
    exact ⟨hs, hc, hl, ht⟩
  · exact ⟨rfl, rfl, rfl, rfl⟩

theorem releaseLease? (m : QueryManager) (x : Option Lease) : Steady m (m.releaseLease? x).1 := by
  cases x with
  | none => exact refl m
  | some x => exact releaseLease m x

theorem endCaller (m : QueryManager) (t : TaskId) (c : Caller) (ending : Ending NumberedOutcome) :
    Steady m (m.endCaller t c ending) := (setTask m t _).trans (note _ _)

theorem finishCaller (m : QueryManager) (t : TaskId) (c : Caller) (x : Option Lease)
    (o : NumberedOutcome) : Steady m (m.finishCaller t c x o) :=
  (releaseLease? m x).trans (endCaller _ t c _)

theorem awaitAttempt (m : QueryManager) (t : TaskId) (c : Caller) (id : InstanceId) (n : Int)
    (x : Option Lease) : Steady m (m.awaitAttempt t c id n x) := by
  unfold QueryManager.awaitAttempt
  cases m.executor? id with
  | none => exact setTask m t _
  | some e =>
    simp only
    cases e.await? n with
    | none => exact setTask m t _
    | some w =>
      obtain ⟨e', o, madeUp⟩ := w
      refine Steady.trans ?_ (finishCaller _ t c x o)
      cases madeUp with
      | false => exact setExecutor m id e'
      | true => exact (setExecutor m id e').trans (note _ _)

theorem endSubscription (m : QueryManager) (t : TaskId) (s : Subscription) :
    Steady m (m.endSubscription t s) := by
  have hr := releaseLease m s.lease
  unfold QueryManager.endSubscription
  split
  · rename_i m₁ hm₁
    rw [hm₁] at hr
    exact hr.trans ((setTask m₁ t _).trans (note _ _))
  · rename_i m₁ text hm₁
    rw [hm₁] at hr
    exact hr.trans (setTask m₁ t _)

theorem deliver (fuel : ℕ) : ∀ (m : QueryManager) (s : Subscription),
    Steady m (QueryManager.deliver fuel m t s) := by
  induction fuel with
  | zero => exact fun m s => setTask m t _
  | succ fuel ih =>
    intro m s
    unfold QueryManager.deliver
    split
    · exact endSubscription m t s
    cases m.executor? s.lease.id with
    | none => exact setTask m t _
    | some e =>
      simp only
      cases s.updates.next e with
      | mk updates o =>
        cases o with
        | none => exact setTask m t _
        | some o =>
          simp only
          split
          · exact (note m _).trans ((note _ _).trans (endSubscription _ t _))
          · exact (note m _).trans (ih _ _)

end Steady

/-! ## How callers arrive -/

namespace QueryManager

/-- A caller's block does to the live query that was leased what it says. -/
def blocked (m : QueryManager) (c : Caller) (x : Lease) : QueryManager :=
  if c.block.closes then (m.closeInstance x.id).1 else m

/-- A caller's block panics, and its lease is given up. -/
def failBlock (m : QueryManager) (t : TaskId) (c : Caller) (x : Lease) : QueryManager :=
  ((m.releaseLease x).2.elim (m.releaseLease x).1 fun text =>
    (m.releaseLease x).1.note (.failed text)).endCaller t c (.panicked blockFailed)

/-- What a caller does with its lease. -/
def arriveWith (m : QueryManager) (t : TaskId) (c : Caller) (x : Lease) : QueryManager :=
  if c.block.panics then (m.blocked c x).failBlock t c x
  else (m.blocked c x).callInstance t c x.id (some x)

theorem arrive_leased {c : Caller} {spec : QuerySpec} (h : c.addressee = .leased spec) (m : QueryManager)
    (t : TaskId) : m.arrive t c = (m.acquire spec).1.arriveWith t c (m.acquire spec).2 := by
  unfold arrive
  rw [h]
  rfl

end QueryManager

theorem Steady.blocked (m : QueryManager) (c : Caller) (x : Lease) : Steady m (m.blocked c x) := by
  unfold QueryManager.blocked
  split
  · exact closeInstance m x.id
  · exact refl m

theorem Steady.failBlock (m : QueryManager) (t : TaskId) (c : Caller) (x : Lease) :
    Steady m (m.failBlock t c x) := by
  have hreleased := releaseLease m x
  unfold QueryManager.failBlock
  cases (m.releaseLease x).2 with
  | none => exact hreleased.trans (endCaller _ t c _)
  | some text => exact (hreleased.trans (note _ _)).trans (endCaller _ t c _)

/-! ## What is new -/

theorem lt_length_spawn (m : QueryManager) (x : Task) : m.tasks.length < (m.spawn x).1.tasks.length := by
  show _ < (_ ++ [_]).length
  rw [List.length_append]
  exact Nat.lt_succ_self _

theorem Executor.le_enter (e : Executor) (s : Supply) :
    s.number ≤ (e.enter s).2.1.number ∧ s.request ≤ (e.enter s).2.1.request := by
  unfold Executor.enter
  rcases e.join_cases s.drawNumber.1 s.drawNumber.2 with ⟨o, hj, -⟩ | ⟨n, hj, -⟩ | ⟨hj, -⟩ <;>
    simp only [hj] <;> simp only [Supply.drawNumber] <;> omega

/-- Nothing that was drawn, opened or started is undone. -/
structure Grows (m m' : QueryManager) : Prop where
  number : m.supply.number ≤ m'.supply.number
  request : m.supply.request ≤ m'.supply.request
  lives : m.lives.length ≤ m'.lives.length
  tasks : m.tasks.length ≤ m'.tasks.length

namespace Grows

theorem trans (h : Grows m m') (h' : Grows m' m'') : Grows m m'' :=
  ⟨Int.le_trans h.number h'.number, Nat.le_trans h.request h'.request, Nat.le_trans h.lives h'.lives,
    Nat.le_trans h.tasks h'.tasks⟩

theorem refl (m : QueryManager) : Grows m m :=
  ⟨Int.le_refl _, Nat.le_refl _, Nat.le_refl _, Nat.le_refl _⟩

theorem steady (h : Steady m m') : Grows m m' :=
  ⟨Int.le_of_eq (congrArg Supply.number h.supply.symm), Nat.le_of_eq (congrArg Supply.request h.supply.symm),
    Nat.le_of_eq h.lives.symm, Nat.le_of_eq h.tasks.symm⟩

theorem queued (h : Queued m m') : Grows m m' := by
  rw [h.frame]
  exact ⟨Int.le_refl _, Nat.le_refl _, Nat.le_refl _, Nat.le_refl _⟩

theorem spawn (m : QueryManager) (x : Task) : Grows m (m.spawn x).1 :=
  ⟨Int.le_refl _, Nat.le_refl _, Nat.le_refl _, (List.prefix_append m.tasks [x]).length_le⟩

theorem acquire (m : QueryManager) (spec : QuerySpec) : Grows m (m.acquire spec).1 := by
  unfold QueryManager.acquire
  simp only
  split
  · exact ⟨Int.le_refl _, Nat.le_refl _, (List.prefix_append m.lives _).length_le, Nat.le_refl _⟩
  · exact ⟨Int.le_refl _, Nat.le_refl _, Nat.le_refl _, Nat.le_refl _⟩

theorem enter (m : QueryManager) (id : InstanceId) (e : Executor) : Grows m (m.enter id e).1 := by
  have hdrawn := e.le_enter m.supply
  have hset : Grows m ({ m with supply := (e.enter m.supply).2.1 }.setExecutor id (e.enter m.supply).1) :=
    ⟨hdrawn.1, hdrawn.2, Nat.le_of_eq (List.length_modify ..).symm, Nat.le_refl _⟩
  unfold QueryManager.enter
  simp only
  split
  · exact hset.trans (.spawn _ _)
  · exact hset

theorem callInstance (m : QueryManager) (t : TaskId) (c : Caller) (id : InstanceId) (x : Option Lease) :
    Grows m (m.callInstance t c id x) := by
  unfold QueryManager.callInstance
  split
  · exact refl m
  rename_i e he
  have henter := enter m id e
  split <;> rename_i m₁ _ hm₁ <;> rw [hm₁] at henter
  · exact henter.trans (steady (.finishCaller m₁ t c x _))
  · exact henter.trans (steady (.awaitAttempt m₁ t c id _ x))
  · exact henter.trans (steady (.awaitAttempt m₁ t c id _ x))

theorem arriveWith (m : QueryManager) (t : TaskId) (c : Caller) (x : Lease) :
    Grows m (m.arriveWith t c x) := by
  unfold QueryManager.arriveWith
  split
  · exact (steady (.blocked m c x)).trans (steady (.failBlock _ t c x))
  · exact (steady (.blocked m c x)).trans (callInstance _ t c _ _)

end Grows

/-! ## Only its users cancel a manager -/

theorem cancelled_callInstance (m : QueryManager) (t : TaskId) (c : Caller) (id : InstanceId)
    (x : Option Lease) : (m.callInstance t c id x).cancelled = m.cancelled := by
  unfold QueryManager.callInstance
  cases m.executor? id with
  | none => rfl
  | some e =>
    simp only [QueryManager.enter]
    generalize e.enter m.supply = r
    obtain ⟨e', supply, entry⟩ := r
    cases entry with
    | found o => exact (Steady.finishCaller _ t c x o).cancelled
    | joined n => exact (Steady.awaitAttempt _ t c id n x).cancelled
    | started n => exact (Steady.awaitAttempt _ t c id n x).cancelled

theorem cancelled_acquire (m : QueryManager) (spec : QuerySpec) :
    (m.acquire spec).1.cancelled = m.cancelled := by
  rw [(LeaseStep.acquire m spec).frame]

theorem cancelled_arrive (m : QueryManager) (t : TaskId) (c : Caller) :
    (m.arrive t c).cancelled = m.cancelled := by
  cases hc : c.addressee with
  | direct id =>
    unfold QueryManager.arrive
    simp only [hc]
    exact cancelled_callInstance m t c id none
  | leased spec =>
    rw [QueryManager.arrive_leased hc]
    have hblock : ((m.acquire spec).1.blocked c (m.acquire spec).2).cancelled = m.cancelled :=
      (Steady.blocked _ c _).cancelled.trans (cancelled_acquire m spec)
    unfold QueryManager.arriveWith
    split
    · exact (Steady.failBlock _ t c _).cancelled.trans hblock
    · exact (cancelled_callInstance _ t c _ _).trans hblock

/-- **A run of a task cancels nothing.** -/
theorem cancelled_runTask (m : QueryManager) (t : TaskId) : (m.runTask t).cancelled = m.cancelled := by
  unfold QueryManager.runTask
  split
  · rfl
  · split
    · rfl
    split
    · simp only
      split
      · rfl
      · rfl
    · rfl
  · split
    · exact cancelled_arrive m t _
    · exact (Steady.awaitAttempt m t _ _ _ _).cancelled
    · rfl
  · split
    · exact (Steady.deliver _ m _).cancelled
    · rfl

theorem cancelled_poll (m : QueryManager) : m.poll.cancelled = m.cancelled := by
  cases hq : m.queue with
  | nil => rw [poll_nil hq]
  | cons t rest =>
    rw [poll_eq hq, (Queued.wake _).frame]
    exact cancelled_runTask _ t

/-! ## What users and the backend do -/

/-- **What is done to a manager from outside** is not seen: nothing is noted, and tasks stay as they
are. -/
structure Unseen (m m' : QueryManager) : Prop where
  journal : m'.journal = m.journal
  tasks : m.tasks <+: m'.tasks

namespace Unseen

theorem refl (m : QueryManager) : Unseen m m := ⟨rfl, List.prefix_rfl⟩

theorem trans (h : Unseen m m') (h' : Unseen m' m'') : Unseen m m'' :=
  ⟨h'.journal.trans h.journal, h.tasks.trans h'.tasks⟩

theorem leases (h : LeaseStep m m') : Unseen m m' := by
  rw [h.frame]
  exact ⟨rfl, List.prefix_rfl⟩

theorem spawn (m : QueryManager) (x : Task) : Unseen m (m.spawn x).1 := ⟨rfl, List.prefix_append _ _⟩

theorem queued (h : Queued m m') : Unseen m m' := by
  rw [h.frame]
  exact ⟨rfl, List.prefix_rfl⟩

theorem getElem? {x : Task} (h : Unseen m m') (ht : m.tasks[t]? = some x) : m'.tasks[t]? = some x := by
  obtain ⟨new, hnew⟩ := h.tasks
  rw [← hnew, List.getElem?_append_left (List.getElem?_eq_some_iff.1 ht).1]
  exact ht

end Unseen

/-- **An event from outside is not seen,** and is no cancellation unless it is that. -/
theorem step_outside (m : QueryManager) (hev : ev.IsOutside) :
    Unseen m (m.step ev) ∧ (ev ≠ .cancel → (m.step ev).cancelled = m.cancelled) := by
  have hleases : ∀ {m₁ m₂ : QueryManager}, LeaseStep m m₁ → Queued m₁ m₂ →
      Unseen m m₂ ∧ m₂.cancelled = m.cancelled := by
    intro m₁ m₂ hl hq
    refine ⟨(Unseen.leases hl).trans (.queued hq), ?_⟩
    rw [hq.frame, hl.frame]
  have hset : ∀ (id : InstanceId) (e : Executor), Unseen m (m.setExecutor id e).wake ∧
      (m.setExecutor id e).wake.cancelled = m.cancelled := by
    intro id e
    have hq := Queued.wake (m.setExecutor id e)
    have hx : Unseen m (m.setExecutor id e) := ⟨rfl, List.prefix_rfl⟩
    refine ⟨hx.trans (.queued hq), ?_⟩
    rw [hq.frame]
    rfl
  cases ev with
  | poll => exact hev.elim
  | favour u => exact hev.elim
  | abort u => exact hev.elim
  | unsubscribe u => exact hev.elim
  | drawn numbers requests => exact ⟨⟨rfl, List.prefix_rfl⟩, fun _ => rfl⟩
  | acquire spec => exact (hleases (.acquire m spec) (.refl _)).imp_right fun h _ => h
  | release x => exact (hleases (.releaseLease m x) (.wake _)).imp_right fun h _ => h
  | close id => exact (hleases (.closeInstance m id) (.wake _)).imp_right fun h _ => h
  | closeExecutor id => exact (hleases (.closeExecutor m id) (.wake _)).imp_right fun h _ => h
  | ask addressee block => exact ⟨.spawn m _, fun _ => rfl⟩
  | subscribe spec executes react =>
    obtain ⟨hacq, hcancel⟩ := hleases (.acquire m spec) (.refl _)
    show Unseen m (m.subscribe spec executes react).1 ∧
      (_ → (m.subscribe spec executes react).1.cancelled = m.cancelled)
    unfold QueryManager.subscribe
    simp only
    split
    · exact ⟨hacq, fun _ => hcancel⟩
    split
    · exact ⟨(hacq.trans (.spawn _ _)).trans (.spawn _ _), fun _ => hcancel⟩
    · exact ⟨hacq.trans (.spawn _ _), fun _ => hcancel⟩
  | answer u reply =>
    show Unseen m (m.answer u reply) ∧ (_ → (m.answer u reply).cancelled = m.cancelled)
    unfold QueryManager.answer
    split
    · split
      · exact (hset _ _).imp_right fun h _ => h
      · exact ⟨.refl m, fun _ => rfl⟩
    · exact ⟨.refl m, fun _ => rfl⟩
  | answerNow u reply =>
    show Unseen m (m.answerNow u reply) ∧ (_ → (m.answerNow u reply).cancelled = m.cancelled)
    unfold QueryManager.answerNow
    split
    · split
      · exact (hset _ _).imp_right fun h _ => h
      · exact ⟨.refl m, fun _ => rfl⟩
    · exact ⟨.refl m, fun _ => rfl⟩
  | cancel =>
    have hx : Unseen m { m with
        cancelled := true
        lives := m.lives.map fun q => { q with executor := q.executor.close } } := ⟨rfl, List.prefix_rfl⟩
    exact ⟨hx.trans (.queued (queued_cancel m)), fun h => absurd rfl h⟩

theorem cancelled_abort (m : QueryManager) (u : TaskId) : (m.abort u).cancelled = m.cancelled := by
  unfold QueryManager.abort
  split
  · split
    · exact (Steady.endCaller m u _ _).cancelled
    · rename_i c _ _ id n lease _
      simp only
      rw [(Queued.wake _).frame]
      exact (Steady.releaseLease? m lease).cancelled
    · rfl
  · rfl

theorem cancelled_unsubscribe (m : QueryManager) (u : TaskId) :
    (m.unsubscribe u).cancelled = m.cancelled := by
  unfold QueryManager.unsubscribe
  split
  · rw [(Queued.wake _).frame]
    rfl
  · rfl

/-- **Only its users cancel a manager.** -/
theorem cancelled_step (m : QueryManager) (ev : ManagerEvent) :
    (m.step ev).cancelled ↔ m.cancelled ∨ ev = .cancel := by
  have hsame : ev ≠ .cancel → (m.step ev).cancelled = m.cancelled := by
    intro hne
    by_cases hev : ev.IsOutside
    · exact (step_outside m hev).2 hne
    cases ev with
    | poll => exact cancelled_poll m
    | favour u =>
      show (m.favour u).cancelled = m.cancelled
      rw [favour_frame]
    | abort u => exact cancelled_abort m u
    | unsubscribe u => exact cancelled_unsubscribe m u
    | _ => exact absurd trivial hev
  by_cases hev : ev = .cancel
  · subst hev
    have hcancel : (m.step .cancel).cancelled = true := Gone.cancelled_cancel m
    exact ⟨fun _ => .inr rfl, fun _ => hcancel⟩
  · rw [hsame hev]
    exact ⟨.inl, fun h => h.resolve_right hev⟩

/-- A manager is cancelled once its users have cancelled it. -/
theorem Lending.cancelled_after (es : List ManagerEvent) (l : Lending) :
    (l.after es).manager.cancelled ↔ l.manager.cancelled ∨ .cancel ∈ es := by
  induction es generalizing l with
  | nil => simp [Lending.after]
  | cons ev es ih =>
    have hnext : (l.next ev).manager.cancelled ↔ l.manager.cancelled ∨ ev = .cancel := by
      rcases l.next_step ev with heq | ⟨⟨x, rfl⟩, heq⟩
      · rw [heq]
        exact cancelled_step l.manager ev
      · rw [heq]
        simp
    refine (ih (l.next ev)).trans ?_
    rw [hnext, List.mem_cons, or_assoc, eq_comm (a := ev)]

end QueryClient
