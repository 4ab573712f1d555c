import QueryClient.Proofs.Manager.Effects

/-!
# Runs of a manager

A manager is used in any way and its tasks run one after the other. They run in the order in which they
became ready, but for those that are favoured: any task that is queued may be put before the others, and so
may run next. Every event is made of the small changes.

* `Effect.runTask`: what a task does until it has to wait.
* `Appended.wake`, `mem_queue_wake`: which tasks are queued after it.
* `QueryManager.step`, `QueryManager.run`: one event, and a run.
* `ManagerEvent.favours`: what runs on a scheduler that keeps the order of the queue do not do.
* `step_effect`, `poll_effect`: what an event can do.
* `ManagerOK.run`: a manager stays well formed.
-/

namespace QueryClient

variable {m m' m₀ : QueryManager} {t u : TaskId} {id : InstanceId} {e : Executor} {b : Bool}

/-! ## What the tasks do -/

namespace Effect

theorem leases (h : Effect t m b m₀) (hl : LeaseStep m₀ m') : Effect t m b m' := h.calm (.leases hl)

theorem note (h : Effect t m b m₀) (n : Note) (hn : ∀ u d, n ≠ .handed u d) :
    Effect t m b (m₀.note n) :=
  h.calm (.note n fun u d hd => absurd hd (hn u d))

theorem endCaller (h : Effect t m b m₀) (c : Caller) (ending : Ending NumberedOutcome) :
    Effect t m b (m₀.endCaller t c ending) :=
  (h.calm (.setTask _ (by simp))).note _ (by simp)

theorem finishCaller (h : Effect t m b m₀) (c : Caller) (lease : Option Lease)
    (o : NumberedOutcome) : Effect t m b (m₀.finishCaller t c lease o) :=
  (h.leases (.releaseLease? m₀ lease)).endCaller c _

/-- One who waits for an attempt whose task died stores the failure that is made up. -/
theorem awaitAttempt (hok : ManagerOK m) (h : Effect t m false m₀) (c : Caller) (id : InstanceId)
    (n : Int) (lease : Option Lease) : ∃ b, Effect t m b (m₀.awaitAttempt t c id n lease) := by
  have hwait : Effect t m false (m₀.setTask t (.caller { c with stage := .waiting id n lease })) :=
    h.calm (.setTask _ (by simp))
  unfold QueryManager.awaitAttempt
  cases he : m₀.executor? id with
  | none => exact ⟨_, hwait⟩
  | some e =>
    cases hw : e.await? n with
    | none => exact ⟨false, by simpa [hw] using hwait⟩
    | some w =>
      obtain ⟨e', o, madeUp⟩ := w
      simp only [hw]
      have hset : ∃ b, Effect t m b (m₀.setExecutor id e') := by
        rcases ((h.ok hok).executor he).await?_cases hw with
          ⟨rfl, -⟩ | ⟨a, rest, hl, -, hst, rfl, rfl⟩
        · exact ⟨false, by rw [QueryManager.setExecutor_self he]; exact h⟩
        · exact ⟨true, h.store (.intro _ he hl (Attempt.unsettled_of_stage hst rfl)
            (.inl (by simp [hst])))⟩
      obtain ⟨b, hb⟩ := hset
      refine ⟨b, finishCaller ?_ c lease o⟩
      cases madeUp with
      | false => exact hb
      | true => exact hb.note _ (by simp)

theorem callInstance (hok : ManagerOK m) (h : Effect t m false m₀) (c : Caller) (id : InstanceId)
    (lease : Option Lease) : ∃ b, Effect t m b (m₀.callInstance t c id lease) := by
  unfold QueryManager.callInstance
  cases he : m₀.executor? id with
  | none => exact ⟨false, h⟩
  | some e =>
    have hdraw : Effect t m false { m₀ with supply := m₀.supply.drawNumber.2 } :=
      h.calm (.draw _ (Int.le_of_lt (Int.lt_succ _)) (Nat.le_refl _))
    have hself : ({ m₀ with supply := m₀.supply.drawNumber.2 } : QueryManager).setExecutor id e =
        { m₀ with supply := m₀.supply.drawNumber.2 } :=
      QueryManager.setExecutor_self (m := { m₀ with supply := m₀.supply.drawNumber.2 }) he
    simp only [QueryManager.enter, Executor.enter]
    -- a result is there, or an attempt to wait for, or one is started
    rcases e.join_cases m₀.supply.drawNumber.1 m₀.supply.drawNumber.2 with
      ⟨o, hj, -⟩ | ⟨n, hj, -⟩ | ⟨hj, hslot, -⟩ <;> rw [hj] <;> simp only
    · rw [hself]
      exact ⟨false, hdraw.finishCaller c lease o⟩
    · rw [hself]
      exact hdraw.awaitAttempt hok c id n lease
    · refine awaitAttempt hok (h.start (.intro he hslot ?_ ?_ ?_ ?_)) c id _ lease
      · show _ < _ + 1 + 1
        omega
      · exact Nat.lt_succ_self _
      · exact Int.le_refl _
      · exact Nat.le_refl _

theorem arrive (hok : ManagerOK m) (h : Effect t m false m₀) (c : Caller) :
    ∃ b, Effect t m b (m₀.arrive t c) := by
  unfold QueryManager.arrive
  split
  · exact h.callInstance hok c _ none
  · rename_i spec _
    have hl := h.leases (.acquire m₀ spec)
    -- the block may close the live query under the caller
    have hc : Effect t m false (if c.block.closes then
        ((m₀.acquire spec).1.closeInstance (m₀.acquire spec).2.id).1 else (m₀.acquire spec).1) := by
      split
      · exact hl.leases (.closeInstance _ _)
      · exact hl
    simp only
    split
    · refine ⟨false, endCaller ?_ c _⟩
      have hr := hc.leases (.releaseLease _ (m₀.acquire spec).2)
      revert hr
      generalize QueryManager.releaseLease _ _ = r
      intro hr
      cases r.2 with
      | none => exact hr
      | some text => exact hr.note _ (by simp)
    · exact hc.callInstance hok c _ _

theorem endSubscription (h : Effect t m b m₀) (s : Subscription) :
    Effect t m b (m₀.endSubscription t s) := by
  unfold QueryManager.endSubscription
  have hr := h.leases (.releaseLease m₀ s.lease)
  split
  · rename_i m₁ hm₁
    rw [hm₁] at hr
    exact (hr.calm (.setTask _ (by simp))).note _ (by simp)
  · rename_i m₁ text hm₁
    rw [hm₁] at hr
    exact hr.calm (.setTask _ (by simp))

theorem length_tasks (h : Effect t m b m') : m.tasks.length ≤ m'.tasks.length := by
  induction h with
  | refl => exact Nat.le_refl _
  | @calm b m' m'' _ hc ih =>
    cases hc with
    | note n hn => exact ih
    | setTask x hx => exact Nat.le_trans ih (Nat.le_of_eq (List.length_set ..).symm)
    | spawn x hx => exact Nat.le_trans ih (length_spawn m' x)
    | cancel => exact ih
    | draw s hn hr => exact ih
    | leases hl => rw [hl.frame]; exact ih
    | advance he hl hu hst ht => exact ih
  | start _ hs ih =>
    cases hs with
    | intro he hs hn hr hn' hr' => exact Nat.le_trans ih (length_spawn _ _)
  | store _ hs ih =>
    cases hs with
    | intro result he hl hu ht => exact ih

/-- A subscription hands over results, and stores none. -/
theorem deliver (fuel : ℕ) : ∀ {m₀ : QueryManager} (s : Subscription), t < m.tasks.length →
    Effect t m b m₀ → Effect t m b (QueryManager.deliver fuel m₀ t s) := by
  induction fuel with
  | zero =>
    intro m₀ s ht h
    exact h.calm (.setTask _ (by simp))
  | succ fuel ih =>
    intro m₀ s ht h
    unfold QueryManager.deliver
    split
    · exact h.endSubscription s
    cases he : m₀.executor? s.lease.id with
    | none => exact h.calm (.setTask _ (by simp))
    | some e =>
      simp only
      cases hn : s.updates.next e with
      | mk updates o =>
        cases o with
        | none => exact h.calm (.setTask _ (by simp))
        | some o =>
          have hhand := h.calm (.note (.handed t ⟨o, updates.source o⟩) fun u d hd => by
            injection hd with hu
            exact ⟨hu.symm, Nat.lt_of_lt_of_le ht h.length_tasks⟩)
          simp only
          split
          · exact (hhand.note _ (by simp)).endSubscription _
          · exact ih _ ht hhand

/-- The backend's answer is taken, or the attempt is cancelled. -/
theorem resume (hok : ManagerOK m) (h : Effect t m false m₀) (he : m₀.executor? id = some e)
    (n : Int) : ∃ b, Effect t m b (m₀.setExecutor id (e.resume n)) := by
  rcases ((h.ok hok).executor he).resume_cases n with
    hb | ⟨a, rest, hl, -, hc, ⟨-, hb⟩ | ⟨-, ⟨r, -, hb⟩ | ⟨-, hb⟩⟩⟩ <;> rw [hb]
  · exact ⟨false, by rw [QueryManager.setExecutor_self he]; exact h⟩
  · exact ⟨true, h.store (.intro _ he hl (ExecutorOK.unsettled_of_isCalling hc) (.of_isCalling hc))⟩
  · exact ⟨true, h.store (.intro _ he hl (ExecutorOK.unsettled_of_isCalling hc) (.of_isCalling hc))⟩
  · exact ⟨false, h.calm (.advance he hl (ExecutorOK.unsettled_of_isCalling hc) rfl
      (.of_isCalling hc))⟩

theorem answer (hok : ManagerOK m) (h : Effect t m false m₀) (he : m₀.executor? id = some e)
    (n : Int) (reply : Reply) : Effect t m false (m₀.setExecutor id (e.answer n reply)) := by
  rcases ((h.ok hok).executor he).answer_cases n reply with hb | ⟨a, rest, hl, -, hst, hb⟩ <;> rw [hb]
  · rw [QueryManager.setExecutor_self he]
    exact h
  · exact h.calm (.advance he hl (Attempt.unsettled_of_stage hst rfl) rfl (.inl (by simp [hst])))

/-- **What a task does until it has to wait,** once it has been taken from the queue. -/
theorem runTask (hok : ManagerOK m) (ht : t ∉ m.queue) : ∃ b, Effect t m b (m.runTask t) := by
  unfold QueryManager.runTask
  split
  · exact ⟨false, .refl⟩
  · rename_i id n htask
    split
    · exact ⟨false, .refl⟩
    rename_i e he
    split
    · rename_i hspawned
      -- it is the attempt's turn: its task is not in the queue any more
      rcases (hok.executor he).begin_cases n with ⟨hno, -⟩ | ⟨a, rest, hl, rfl, hst, hb⟩
      · exact absurd hspawned hno
      have hu := Attempt.unsettled_of_stage hst rfl
      have hset : ∃ b, Effect t m b (m.setExecutor id (e.begin a.number)) := by
        rcases hb with ⟨-, hb⟩ | ⟨-, hb⟩ <;> rw [hb]
        · exact ⟨false, refl.calm (.advance he hl hu rfl (.inr ⟨htask, ht⟩))⟩
        · exact ⟨true, refl.store (.intro _ he hl hu (.inr ⟨htask, ht⟩))⟩
      obtain ⟨b, hset⟩ := hset
      simp only
      split
      · exact ⟨b, hset.note _ (by simp)⟩
      · exact ⟨b, hset⟩
    · exact refl.resume hok he n
  · rename_i c htask
    split
    · exact refl.arrive hok c
    · exact refl.awaitAttempt hok c _ _ _
    · exact ⟨false, .refl⟩
  · rename_i s htask
    split
    · exact ⟨false, deliver _ s (List.getElem?_eq_some_iff.1 htask).1 .refl⟩
    · exact ⟨false, .refl⟩

end Effect

/-! ## Which tasks are queued -/

namespace Queued

theorem refl (m : QueryManager) : Queued m m := ⟨rfl, List.Subset.refl _, fun h => h, fun h => h⟩

theorem trans {m'' : QueryManager} (h : Queued m m') (h' : Queued m' m'') : Queued m m'' := by
  have htasks : m'.tasks = m.tasks := by rw [h.frame]
  refine ⟨?_, List.Subset.trans h.queue h'.queue, fun hn => h'.nodup (h.nodup hn), fun hb => ?_⟩
  · rw [h'.frame, h.frame]
  · have := h'.bounded
    rw [htasks] at this
    exact this (h.bounded hb)

end Queued

namespace Appended

theorem refl (m : QueryManager) : Appended m m := ⟨.refl m, List.prefix_rfl⟩

theorem trans {m'' : QueryManager} (h : Appended m m') (h' : Appended m' m'') : Appended m m'' :=
  ⟨h.toQueued.trans h'.toQueued, h.behind.trans h'.behind⟩

theorem wakeTask (m : QueryManager) (u : TaskId) : Appended m (m.wakeTask u) := by
  unfold QueryManager.wakeTask
  split
  · rename_i hwake
    simp only [Bool.and_eq_true, Bool.not_eq_true', List.contains_eq_mem, decide_eq_false_iff_not]
      at hwake
    refine ⟨⟨rfl, List.subset_append_left _ _, fun hn => ?_, fun hb v hv => ?_⟩, List.prefix_append _ _⟩
    · refine List.nodup_append.2 ⟨hn, List.nodup_singleton _, ?_⟩
      rintro v hv w hw rfl
      exact hwake.2 (List.mem_singleton.1 hw ▸ hv)
    · rcases List.mem_append.1 hv with hv | hv
      · exact hb v hv
      · obtain ⟨hu, -⟩ := (Option.any_eq_true_iff_get _ _).1 hwake.1
        rw [List.mem_singleton.1 hv]
        simpa using hu
  · exact refl m

theorem foldl_wakeTask (us : List TaskId) : ∀ m : QueryManager,
    Appended m (us.foldl QueryManager.wakeTask m) := by
  induction us with
  | nil => exact refl
  | cons u us ih => exact fun m => (wakeTask m u).trans (ih _)

theorem wake (m : QueryManager) : Appended m m.wake := foldl_wakeTask _ m

end Appended

namespace Queued

theorem wakeTask (m : QueryManager) (u : TaskId) : Queued m (m.wakeTask u) := (Appended.wakeTask m u).toQueued

theorem foldl_wakeTask (us : List TaskId) (m : QueryManager) : Queued m (us.foldl QueryManager.wakeTask m) :=
  (Appended.foldl_wakeTask us m).toQueued

theorem wake (m : QueryManager) : Queued m m.wake := (Appended.wake m).toQueued

theorem isReady (h : Queued m m') (x : Task) : m'.isReady x = m.isReady x := by
  rw [h.frame]
  rfl

end Queued

theorem mem_queue_wakeTask (h : (m.tasks[u]?).any m.isReady) : u ∈ (m.wakeTask u).queue := by
  unfold QueryManager.wakeTask
  by_cases hu : u ∈ m.queue
  · simp [hu]
  · simp [h, hu]

theorem mem_queue_foldl_wakeTask (us : List TaskId) : ∀ {m : QueryManager}, u ∈ us →
    (m.tasks[u]?).any m.isReady → u ∈ (us.foldl QueryManager.wakeTask m).queue := by
  induction us with
  | nil => simp
  | cons v us ih =>
    intro m hu hr
    rcases List.mem_cons.1 hu with rfl | hu
    · exact (Queued.foldl_wakeTask us _).queue (mem_queue_wakeTask hr)
    · refine ih hu ?_
      have hq := Queued.wakeTask m v
      rw [show (m.wakeTask v).tasks = m.tasks by rw [hq.frame]]
      rw [show (m.wakeTask v).isReady = m.isReady from funext hq.isReady]
      exact hr

/-- **Every subscription that can go on is queued.** -/
theorem mem_queue_wake {s : Subscription} (h : m.tasks[u]? = some (.subscription s))
    (hr : m.isReady (.subscription s)) : u ∈ m.wake.queue := by
  unfold QueryManager.wake
  refine mem_queue_foldl_wakeTask _ ?_ (by simpa [h] using hr)
  refine List.mem_append_left _ (List.mem_append_left _ (List.mem_filter.2 ⟨?_, ?_⟩))
  · exact List.mem_range.2 (List.getElem?_eq_some_iff.1 h).1
  · simp [h, QueryManager.rank]

/-! ## Events -/

/-- What happens to a manager. The tasks of attempts are detached: nothing kills them, but a call that
panics does. -/
inductive ManagerEvent where
  /-- Others draw numbers and request identifiers. -/
  | drawn (numbers requests : ℕ)
  | poll
  /-- A task that is queued is put before the others. -/
  | favour (task : TaskId)
  | acquire (spec : QuerySpec)
  | release (lease : Lease)
  | close (id : InstanceId)
  | closeExecutor (id : InstanceId)
  | ask (addressee : Addressee) (block : Block)
  | abort (task : TaskId)
  | subscribe (spec : QuerySpec) (executes : Bool) (react : Delivery → Reaction)
  | unsubscribe (task : TaskId)
  | answer (task : TaskId) (reply : Reply)
  | answerNow (task : TaskId) (reply : Reply)
  | cancel

namespace QueryManager

/-- A task that is queued is put before the others. -/
def favour (m : QueryManager) (t : TaskId) : QueryManager :=
  if t ∈ m.queue then { m with queue := t :: m.queue.erase t } else m

/-- **What an event does to a manager.** -/
def step (m : QueryManager) : ManagerEvent → QueryManager
  | .drawn numbers requests =>
    { m with supply := ⟨m.supply.number + numbers, m.supply.request + requests⟩ }
  | .poll => m.poll
  | .favour task => m.favour task
  | .acquire spec => (m.acquire spec).1
  | .release lease => (m.release lease).1
  | .close id => (m.close id).1
  | .closeExecutor id => m.closeExecutor id
  | .ask addressee block => (m.ask addressee block).1
  | .abort task => m.abort task
  | .subscribe spec executes react => (m.subscribe spec executes react).1
  | .unsubscribe task => m.unsubscribe task
  | .answer task reply => m.answer task reply
  | .answerNow task reply => m.answerNow task reply
  | .cancel => m.cancel

/-- A run. -/
def run (m : QueryManager) (es : List ManagerEvent) : QueryManager := es.foldl step m

/-- The first task of the queue is taken from it. -/
def taken (m : QueryManager) : QueryManager := { m with queue := m.queue.tail }

end QueryManager

/-- The event changes the order of the queue. -/
def ManagerEvent.favours : ManagerEvent → Bool
  | .favour _ => true
  | _ => false

/-- A task runs, or it is settled which one runs next. -/
def ManagerEvent.IsTurn : ManagerEvent → Prop
  | .poll | .favour _ => True
  | _ => False

/-- An event that no particular task is concerned with. -/
def ManagerEvent.IsOutside : ManagerEvent → Prop
  | .poll | .favour _ | .abort _ | .unsubscribe _ => False
  | _ => True

/-- The same tasks are queued. -/
theorem favour_perm (m : QueryManager) (t : TaskId) : (m.favour t).queue.Perm m.queue := by
  unfold QueryManager.favour
  split
  · rename_i ht
    exact (List.perm_cons_erase ht).symm
  · exact .refl _

theorem favour_frame (m : QueryManager) (t : TaskId) : m.favour t = { m with queue := (m.favour t).queue } := by
  unfold QueryManager.favour
  split <;> rfl

/-- A task that is queued alone is before the others already. -/
theorem favour_of_singleton {m : QueryManager} {u : TaskId} (hq : m.queue = [u]) (t : TaskId) :
    m.favour t = m := by
  unfold QueryManager.favour
  split
  · rename_i ht
    obtain rfl : t = u := by simpa [hq] using ht
    rw [hq, List.erase_cons_head, ← hq]
  · rfl

/-- Among any of the tasks that are queued, only the favoured one changes its place. -/
theorem filter_favour (m : QueryManager) (t : TaskId) (p : TaskId → Bool) :
    (m.favour t).queue.filter p =
      if t ∈ m.queue.filter p then t :: (m.queue.filter p).erase t else m.queue.filter p := by
  unfold QueryManager.favour
  by_cases ht : t ∈ m.queue
  · rw [if_pos ht]
    show (t :: m.queue.erase t).filter p = _
    rw [List.filter_cons, ← List.erase_filter]
    by_cases hp : p t
    · simp [hp, ht]
    · have hnot : t ∉ m.queue.filter p := by simp [hp]
      rw [if_neg hp, if_neg hnot, List.erase_of_not_mem hnot]
  · have hnot : t ∉ m.queue.filter p := fun hmem => ht (List.mem_filter.1 hmem).1
    rw [if_neg ht, if_neg hnot]

theorem Queued.favour (m : QueryManager) (t : TaskId) : Queued m (m.favour t) := by
  have hperm := favour_perm m t
  exact ⟨favour_frame m t, hperm.symm.subset, hperm.nodup_iff.2, fun hb u hu => hb u (hperm.mem_iff.1 hu)⟩

theorem ManagerOK.taken (h : ManagerOK m) : ManagerOK m.taken :=
  ⟨h.executors, h.numbered, h.nodup.tail, fun u hu => h.bounded u (List.mem_of_mem_tail hu),
    h.registry, h.handed⟩

/-- The task at the head of the queue is not queued twice. -/
theorem ManagerOK.notMem_taken (h : ManagerOK m) {rest : List TaskId} (hq : m.queue = t :: rest) :
    t ∉ m.taken.queue := by
  have := h.nodup
  unfold QueryManager.taken
  rw [hq] at this ⊢
  exact (List.nodup_cons.1 this).1

theorem poll_eq {rest : List TaskId} (hq : m.queue = t :: rest) :
    m.poll = (m.taken.runTask t).wake := by
  unfold QueryManager.poll QueryManager.taken
  rw [hq]
  rfl

theorem poll_nil (hq : m.queue = []) : m.poll = m := by
  unfold QueryManager.poll
  rw [hq]

/-- One poll runs the first task of the queue. -/
theorem poll_effect (hok : ManagerOK m) {rest : List TaskId} (hq : m.queue = t :: rest) :
    ∃ b m₁, Effect t m.taken b m₁ ∧ m.poll = m₁.wake := by
  obtain ⟨b, hb⟩ := Effect.runTask hok.taken (hok.notMem_taken hq)
  exact ⟨b, _, hb, poll_eq hq⟩

theorem abort_effect (m : QueryManager) (u : TaskId) :
    ∃ m₁, Effect u m false m₁ ∧ Appended m₁ (m.abort u) := by
  unfold QueryManager.abort
  split
  · rename_i c hc
    split
    · exact ⟨_, Effect.refl.endCaller c _, .refl _⟩
    · rename_i id n lease hst
      exact ⟨_, (Effect.refl.leases (.releaseLease? m lease)).endCaller c _, .wake _⟩
    · exact ⟨m, .refl, .refl _⟩
  · exact ⟨m, .refl, .refl _⟩

theorem unsubscribe_effect (m : QueryManager) (u : TaskId) :
    ∃ m₁, Effect u m false m₁ ∧ Appended m₁ (m.unsubscribe u) := by
  unfold QueryManager.unsubscribe
  split
  · exact ⟨_, Effect.refl.calm (.setTask _ (by simp)), .wake _⟩
  · exact ⟨m, .refl, .refl _⟩

theorem subscribe_effect (m : QueryManager) (spec : QuerySpec) (executes : Bool)
    (react : Delivery → Reaction) : Effect t m false (m.subscribe spec executes react).1 := by
  have hl : Effect t m false (m.acquire spec).1 := Effect.refl.leases (.acquire m spec)
  unfold QueryManager.subscribe
  simp only
  split
  · exact hl
  · refine Effect.calm ?_ (.spawn _ (by simp))
    split
    · exact hl.calm (.spawn _ (by simp))
    · exact hl

/-- **What an event from outside can do.** When a result was stored, all that can go on are queued. -/
theorem step_effect (hok : ManagerOK m) {ev : ManagerEvent} (hev : ev.IsOutside) (t : TaskId) :
    ∃ b m₁, Effect t m b m₁ ∧ Appended m₁ (m.step ev) ∧ (b = true → m.step ev = m₁.wake) := by
  cases ev with
  | drawn numbers requests =>
    exact ⟨false, _, Effect.refl.calm (.draw _ (by show _ ≤ _ + (numbers : Int); omega)
      (Nat.le_add_right _ _)), .refl _, by simp⟩
  | poll => exact hev.elim
  | favour u => exact hev.elim
  | acquire spec => exact ⟨false, _, Effect.refl.leases (.acquire m spec), .refl _, by simp⟩
  | release lease => exact ⟨false, _, Effect.refl.leases (.releaseLease m lease), .wake _, by simp⟩
  | close id => exact ⟨false, _, Effect.refl.leases (.closeInstance m id), .wake _, by simp⟩
  | closeExecutor id => exact ⟨false, _, Effect.refl.leases (.closeExecutor m id), .wake _, by simp⟩
  | ask addressee block => exact ⟨false, _, Effect.refl.calm (.spawn _ (by simp)), .refl _, by simp⟩
  | abort u => exact hev.elim
  | subscribe spec executes react =>
    exact ⟨false, _, subscribe_effect m spec executes react, .refl _, by simp⟩
  | unsubscribe u => exact hev.elim
  | answer u reply =>
    show ∃ b m₁, Effect t m b m₁ ∧ Appended m₁ (m.answer u reply) ∧
      (b = true → m.answer u reply = m₁.wake)
    unfold QueryManager.answer
    split
    · rename_i id n _
      split
      · rename_i e he
        exact ⟨false, _, Effect.refl.answer hok he n reply, .wake _, by simp⟩
      · exact ⟨false, m, .refl, .refl _, by simp⟩
    · exact ⟨false, m, .refl, .refl _, by simp⟩
  | answerNow u reply =>
    show ∃ b m₁, Effect t m b m₁ ∧ Appended m₁ (m.answerNow u reply) ∧
      (b = true → m.answerNow u reply = m₁.wake)
    unfold QueryManager.answerNow
    split
    · rename_i id n _
      split
      · rename_i e he
        -- the answer is put in, and then taken
        have ha : Effect t m false (m.setExecutor id (e.answer n reply)) :=
          Effect.refl.answer hok he n reply
        obtain ⟨b, hb⟩ := ha.resume hok (QueryManager.executor?_setExecutor_self he _) n
        rw [QueryManager.setExecutor_setExecutor] at hb
        exact ⟨b, _, hb, .wake _, fun _ => rfl⟩
      · exact ⟨false, m, .refl, .refl _, by simp⟩
    · exact ⟨false, m, .refl, .refl _, by simp⟩
  | cancel =>
    exact ⟨false, _, (Effect.refl.leases (.closeAll m)).calm .cancel, .foldl_wakeTask _ _, by simp⟩

/-- **A manager stays well formed.** -/
theorem ManagerOK.step (hok : ManagerOK m) (ev : ManagerEvent) : ManagerOK (m.step ev) := by
  by_cases hev : ev.IsOutside
  · obtain ⟨b, m₁, hf, hq, -⟩ := step_effect hok hev 0
    exact hq.ok (hf.ok hok)
  cases ev with
  | poll =>
    show ManagerOK m.poll
    cases hq : m.queue with
    | nil => rw [poll_nil hq]; exact hok
    | cons t rest =>
      obtain ⟨b, m₁, hf, hpoll⟩ := poll_effect hok hq
      rw [hpoll]
      exact (Queued.wake m₁).ok (hf.ok hok.taken)
  | favour u => exact (Queued.favour m u).ok hok
  | abort u =>
    obtain ⟨m₁, hf, hq⟩ := abort_effect m u
    exact hq.ok (hf.ok hok)
  | unsubscribe u =>
    obtain ⟨m₁, hf, hq⟩ := unsubscribe_effect m u
    exact hq.ok (hf.ok hok)
  | _ => exact absurd trivial hev

theorem ManagerOK.init (s : Supply) : ManagerOK { supply := s } := by
  constructor <;> simp

theorem ManagerOK.run (hok : ManagerOK m) (es : List ManagerEvent) : ManagerOK (m.run es) := by
  induction es generalizing m with
  | nil => exact hok
  | cons ev es ih => exact ih (hok.step ev)

end QueryClient
