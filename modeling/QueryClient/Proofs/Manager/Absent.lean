import QueryClient.Proofs.Manager.Coherent
import QueryClient.Proofs.Registry.Lessened

/-!
# A manager that some callers have left

Two managers, of which one has been left by some callers that wait, or have waited, in the other. A caller that
waits has no part in what happens. So both do the same, as long as there is another lease on the key of every
lease that has been given up in only one of them.

* `QueryManager.owed`: how many leases some tasks hold on each key.
* `Absent`: **two managers, one of which some callers have left.**
* `Absent.runTask`, `Absent.wake`: what other tasks do, and which are queued.
* `Absent.step`: **every event does the same to both.**
-/

namespace QueryClient

variable {m' m : QueryManager} {t u : TaskId} {gone : List TaskId} {due : QueryKey → ℕ}
variable {id : InstanceId} {e : Executor} {c : Caller} {ev : ManagerEvent}

/-- The end of one of these tasks is noted. -/
def Note.endsOne (gone : List TaskId) : Note → Bool
  | .ended t _ => t ∈ gone
  | _ => false

/-- How many leases these tasks hold on each key. -/
def QueryManager.owed (m : QueryManager) (gone : List TaskId) : QueryKey → ℕ := fun key =>
  gone.countP fun u => (m.leaseOf? u).any fun x => x.key = key

theorem owed_congr {m₁ m : QueryManager} (h : ∀ u ∈ gone, m₁.tasks[u]? = m.tasks[u]?) :
    m₁.owed gone = m.owed gone := by
  funext key
  refine List.countP_congr fun u hu => ?_
  unfold QueryManager.leaseOf?
  rw [h u hu]

/-- A caller that has entered, and has ended in the first manager. -/
inductive Departed : Option Task → Option Task → Prop where
  | intro {c' c : Caller} (haddr : c'.addressee = c.addressee) (hentered : c.stage ≠ .arriving)
      (hended : ¬ c'.Pending) : Departed (some (.caller c')) (some (.caller c))

/-- **Two managers, the first of which some callers have left.** There are other leases on the keys of those
that they gave up only there. -/
structure Absent (gone : List TaskId) (due : QueryKey → ℕ) (m' m : QueryManager) : Prop where
  supply : m'.supply = m.supply
  cancelled : m'.cancelled = m.cancelled
  lives : m'.lives = m.lives
  owes : m.owed gone = due
  registry : m'.registry = m.registry.lessen due
  lent : m'.registry.Lent due
  length : m'.tasks.length = m.tasks.length
  others : ∀ t, t ∉ gone → m'.tasks[t]? = m.tasks[t]?
  departed : ∀ u ∈ gone, Departed m'.tasks[u]? m.tasks[u]?
  queue : m'.queue.filter (fun t => t ∉ gone) = m.queue.filter fun t => t ∉ gone
  journal : (m'.journal.filter fun n => !n.endsOne gone) = m.journal.filter fun n => !n.endsOne gone

namespace Absent

/-! ## What both are -/

theorem executor? (h : Absent gone due m' m) (id : InstanceId) : m'.executor? id = m.executor? id := by
  unfold QueryManager.executor?
  rw [h.lives]

theorem isReady (h : Absent gone due m' m) (x : Task) : m'.isReady x = m.isReady x := by
  unfold QueryManager.isReady
  simp only [h.executor?, h.cancelled]

/-- Who has left has entered. -/
theorem entered (h : Absent gone due m' m) (hu : u ∈ gone) :
    ∃ c, m.tasks[u]? = some (.caller c) ∧ c.stage ≠ .arriving := by
  have hdeparted := h.departed u hu
  generalize m'.tasks[u]? = x' at hdeparted
  generalize m.tasks[u]? = x at hdeparted
  obtain ⟨-, hentered, -⟩ := hdeparted
  exact ⟨_, rfl, hentered⟩

theorem lt (h : Absent gone due m' m) (hu : u ∈ gone) : u < m.tasks.length := by
  obtain ⟨c, htask, -⟩ := h.entered hu
  exact lt_of_task htask

/-- Who has left has ended. -/
theorem ended (h : Absent gone due m' m) (hu : u ∈ gone) :
    ∃ c ending, m'.tasks[u]? = some (.caller c) ∧ c.stage = .ended ending := by
  have hdeparted := h.departed u hu
  generalize m'.tasks[u]? = x' at hdeparted
  generalize m.tasks[u]? = x at hdeparted
  obtain ⟨-, -, hended⟩ := hdeparted
  unfold Caller.Pending at hended
  push Not at hended
  obtain ⟨ending, hst⟩ := hended
  exact ⟨_, ending, rfl, hst⟩

/-! ## Small changes -/

theorem note (h : Absent gone due m' m) (n : Note) :
    Absent gone due (m'.note n) (m.note n) :=
  { h with
    journal := by
      unfold QueryManager.note
      rw [List.filter_append, List.filter_append, h.journal] }

theorem setTask (h : Absent gone due m' m) (ht : t ∉ gone) (x : Task) :
    Absent gone due (m'.setTask t x) (m.setTask t x) := by
  have hkept : ∀ (m : QueryManager) (u : TaskId), u ∈ gone → (m.setTask t x).tasks[u]? = m.tasks[u]? :=
    fun m u hu => List.getElem?_set_ne fun htu : t = u => ht (htu ▸ hu)
  refine { h with
    owes := (owed_congr (hkept m)).trans h.owes
    length := ?_
    others := fun v hv => ?_
    departed := fun u hu => ?_ }
  · show (m'.tasks.set t x).length = (m.tasks.set t x).length
    rw [List.length_set, List.length_set, h.length]
  · show (m'.tasks.set t x)[v]? = (m.tasks.set t x)[v]?
    rw [List.getElem?_set, List.getElem?_set, h.others v hv, h.length]
  · rw [hkept m' u hu, hkept m u hu]
    exact h.departed u hu

theorem setExecutor (h : Absent gone due m' m) (id : InstanceId) (e : Executor) :
    Absent gone due (m'.setExecutor id e) (m.setExecutor id e) :=
  { h with
    lives := by
      unfold QueryManager.setExecutor
      rw [h.lives] }

theorem setSupply (h : Absent gone due m' m) (s : Supply) :
    Absent gone due { m' with supply := s } { m with supply := s } :=
  { h with supply := rfl }

theorem setLives (h : Absent gone due m' m) (cancelled : Bool) (lives : List LiveQuery) :
    Absent gone due { m' with cancelled, lives } { m with cancelled, lives } :=
  { h with cancelled := rfl, lives := rfl }

theorem setQueue (h : Absent gone due m' m) {queue' queue : List TaskId}
    (hq : queue'.filter (fun t => t ∉ gone) = queue.filter fun t => t ∉ gone) :
    Absent gone due { m' with queue := queue' } { m with queue } :=
  { h with queue := hq }

theorem spawn (h : Absent gone due m' m) (x : Task) :
    Absent gone due (m'.spawn x).1 (m.spawn x).1 ∧ (m'.spawn x).2 = (m.spawn x).2 := by
  have hkept : ∀ u ∈ gone, (m.spawn x).1.tasks[u]? = m.tasks[u]? := fun u hu =>
    List.getElem?_append_left (h.lt hu)
  have hkept' : ∀ u ∈ gone, (m'.spawn x).1.tasks[u]? = m'.tasks[u]? := fun u hu =>
    List.getElem?_append_left (h.length ▸ h.lt hu)
  refine ⟨{ h with
    owes := (owed_congr hkept).trans h.owes
    length := ?_
    others := fun v hv => ?_
    departed := fun u hu => ?_
    queue := ?_ }, h.length⟩
  · show (m'.tasks ++ [x]).length = (m.tasks ++ [x]).length
    rw [List.length_append, List.length_append, h.length]
  · rw [getElem?_spawn, getElem?_spawn, h.length, h.others v hv]
  · rw [hkept u hu, hkept' u hu]
    exact h.departed u hu
  · show (m'.queue ++ [m'.tasks.length]).filter _ = (m.queue ++ [m.tasks.length]).filter _
    rw [List.filter_append, List.filter_append, h.queue, h.length]

/-! ## Leases -/

/-- The books change. -/
theorem setRegistry (h : Absent gone due m' m) {r : Registry} (hr : (r.lessen due).Lent due) :
    Absent gone due { m' with registry := r.lessen due } { m with registry := r } :=
  { h with registry := rfl, lent := hr }

theorem acquire (h : Absent gone due m' m) (spec : QuerySpec) :
    Absent gone due (m'.acquire spec).1 (m.acquire spec).1 ∧ (m'.acquire spec).2 = (m.acquire spec).2 := by
  have hlent := h.lent
  rw [h.registry] at hlent
  have hacquire := Registry.acquire_lessen hlent spec.key m.lives.length
  have hlent' := hlent.acquire spec.key m.lives.length
  rw [hacquire] at hlent'
  have hset := h.setRegistry hlent'
  have hopen : Absent gone due
      { m' with registry := (m.registry.acquire spec.key m.lives.length).1.lessen due
                lives := m.lives ++ [{ executor := .ofSpec spec m.cancelled }] }
      { m with registry := (m.registry.acquire spec.key m.lives.length).1
               lives := m.lives ++ [{ executor := .ofSpec spec m.cancelled }] } :=
    { hset with lives := rfl }
  unfold QueryManager.acquire QueryManager.openInstance
  simp only [h.registry, h.lives, h.cancelled, hacquire]
  split
  · exact ⟨{ hopen with cancelled := rfl }, trivial⟩
  · exact ⟨{ hset with cancelled := rfl, lives := rfl }, trivial⟩

theorem closeInstance (h : Absent gone due m' m) (id : InstanceId) :
    Absent gone due (m'.closeInstance id).1 (m.closeInstance id).1 ∧
      (m'.closeInstance id).2 = (m.closeInstance id).2 := by
  have hset := fun q : LiveQuery => h.setLives m.cancelled (m.lives.set id q)
  unfold QueryManager.closeInstance
  rw [h.lives]
  split
  · exact ⟨h, rfl⟩
  · rename_i q _
    refine ⟨?_, rfl⟩
    have hclosed := hset q.close.1
    rw [← h.cancelled] at hclosed
    exact { hclosed with cancelled := h.cancelled }

theorem releaseLease (h : Absent gone due m' m) (x : Lease) (hk : (m'.releaseLease x).1.registry.Lent due) :
    Absent gone due (m'.releaseLease x).1 (m.releaseLease x).1 ∧
      (m'.releaseLease x).2 = (m.releaseLease x).2 := by
  rw [registry_releaseLease, h.registry] at hk
  have hrelease := Registry.release_lessen hk
  rw [hrelease] at hk
  have hset := h.setRegistry hk
  unfold QueryManager.releaseLease
  simp only [h.registry, hrelease]
  split
  · obtain ⟨hclose, hopen⟩ := hset.closeInstance x.id
    exact ⟨hclose, by rw [hopen]⟩
  · exact ⟨hset, rfl⟩

theorem releaseLease? (h : Absent gone due m' m) (x : Option Lease)
    (hk : (m'.releaseLease? x).1.registry.Lent due) :
    Absent gone due (m'.releaseLease? x).1 (m.releaseLease? x).1 ∧
      (m'.releaseLease? x).2 = (m.releaseLease? x).2 := by
  cases x with
  | none => exact ⟨h, rfl⟩
  | some x => exact h.releaseLease x hk

/-! ## What other tasks do -/

theorem endCaller (h : Absent gone due m' m) (ht : t ∉ gone) (c : Caller) (ending : Ending NumberedOutcome) :
    Absent gone due (m'.endCaller t c ending) (m.endCaller t c ending) :=
  (h.setTask ht _).note _

theorem finishCaller (h : Absent gone due m' m) (ht : t ∉ gone) (c : Caller) (x : Option Lease)
    (o : NumberedOutcome) (hk : (m'.finishCaller t c x o).registry.Lent due) :
    Absent gone due (m'.finishCaller t c x o) (m.finishCaller t c x o) := by
  obtain ⟨hreleased, hfault⟩ := h.releaseLease? x hk
  unfold QueryManager.finishCaller
  simp only [hfault]
  exact hreleased.endCaller ht c _

theorem awaitAttempt (h : Absent gone due m' m) (ht : t ∉ gone) (c : Caller) (id : InstanceId) (n : Int)
    (x : Option Lease) (hk : (m'.awaitAttempt t c id n x).registry.Lent due) :
    Absent gone due (m'.awaitAttempt t c id n x) (m.awaitAttempt t c id n x) := by
  have hwaiting := h.setTask ht (.caller { c with stage := .waiting id n x })
  unfold QueryManager.awaitAttempt at hk ⊢
  rw [h.executor?] at hk ⊢
  cases he : m.executor? id with
  | none => exact hwaiting
  | some e =>
    simp only [he] at hk ⊢
    cases hawait : e.await? n with
    | none => exact hwaiting
    | some res =>
      obtain ⟨e', o, madeUp⟩ := res
      simp only [hawait] at hk ⊢
      have hset := h.setExecutor id e'
      cases madeUp with
      | true => exact (hset.note _).finishCaller ht c x o hk
      | false => exact hset.finishCaller ht c x o hk

theorem enter (h : Absent gone due m' m) (id : InstanceId) (e : Executor) :
    Absent gone due (m'.enter id e).1 (m.enter id e).1 ∧ (m'.enter id e).2 = (m.enter id e).2 := by
  have hset := (h.setSupply (e.enter m.supply).2.1).setExecutor id (e.enter m.supply).1
  unfold QueryManager.enter
  rw [h.supply]
  cases hentry : (e.enter m.supply).2.2 with
  | started n =>
    simp only [hentry]
    exact ⟨(hset.spawn (.attempt id n)).1, trivial⟩
  | found o =>
    simp only [hentry]
    exact ⟨hset, trivial⟩
  | joined n =>
    simp only [hentry]
    exact ⟨hset, trivial⟩

theorem callInstance (h : Absent gone due m' m) (ht : t ∉ gone) (c : Caller) (id : InstanceId)
    (x : Option Lease) (hk : (m'.callInstance t c id x).registry.Lent due) :
    Absent gone due (m'.callInstance t c id x) (m.callInstance t c id x) := by
  unfold QueryManager.callInstance at hk ⊢
  rw [h.executor?] at hk ⊢
  cases he : m.executor? id with
  | none => exact h
  | some e =>
    obtain ⟨hentered, hentry⟩ := h.enter id e
    simp only [he] at hk ⊢
    cases hres' : m'.enter id e with
    | mk m₁' entry' =>
      cases hres : m.enter id e with
      | mk m₁ entry =>
        rw [hres', hres] at hentered hentry
        obtain rfl : entry' = entry := hentry
        rw [hres'] at hk
        cases entry' with
        | found o => exact hentered.finishCaller ht c x o hk
        | joined n => exact hentered.awaitAttempt ht c id n x hk
        | started n => exact hentered.awaitAttempt ht c id n x hk

theorem arrive (h : Absent gone due m' m) (ht : t ∉ gone) (c : Caller)
    (hk : (m'.arrive t c).registry.Lent due) : Absent gone due (m'.arrive t c) (m.arrive t c) := by
  unfold QueryManager.arrive at hk ⊢
  cases haddr : c.addressee with
  | direct id =>
    simp only [haddr] at hk ⊢
    exact h.callInstance ht c id none hk
  | leased spec =>
    obtain ⟨hacquired, hlease⟩ := h.acquire spec
    simp only [haddr, hlease] at hk ⊢
    generalize (m.acquire spec).2 = x at hk ⊢
    -- the live query may be closed in both
    have hblock : Absent gone due
        (if c.block.closes then ((m'.acquire spec).1.closeInstance x.id).1 else (m'.acquire spec).1)
        (if c.block.closes then ((m.acquire spec).1.closeInstance x.id).1 else (m.acquire spec).1) := by
      split
      · exact (hacquired.closeInstance x.id).1
      · exact hacquired
    generalize (if c.block.closes then ((m'.acquire spec).1.closeInstance x.id).1 else (m'.acquire spec).1) = m₁' at *
    generalize (if c.block.closes then ((m.acquire spec).1.closeInstance x.id).1 else (m.acquire spec).1) = m₁ at *
    by_cases hpanics : c.block.panics = true
    · simp only [hpanics, if_true] at hk ⊢
      have hk' : (m₁'.releaseLease x).1.registry.Lent due := by
        cases hfault : (m₁'.releaseLease x).2 <;> rw [hfault] at hk <;> exact hk
      obtain ⟨hreleased, hfault⟩ := hblock.releaseLease x hk'
      rw [hfault]
      cases (m₁.releaseLease x).2 with
      | none => exact hreleased.endCaller ht c _
      | some text => exact (hreleased.note _).endCaller ht c _
    · simp only [hpanics] at hk ⊢
      exact hblock.callInstance ht c x.id (some x) hk

theorem endSubscription (h : Absent gone due m' m) (ht : t ∉ gone) (s : Subscription)
    (hk : (m'.endSubscription t s).registry.Lent due) :
    Absent gone due (m'.endSubscription t s) (m.endSubscription t s) := by
  have hk' : (m'.releaseLease s.lease).1.registry.Lent due := by
    unfold QueryManager.endSubscription at hk
    split at hk <;> rename_i hres <;> rw [hres] <;> exact hk
  obtain ⟨hreleased, hfault⟩ := h.releaseLease s.lease hk'
  unfold QueryManager.endSubscription
  cases hres' : m'.releaseLease s.lease with
  | mk m₁' fault' =>
    cases hres : m.releaseLease s.lease with
    | mk m₁ fault =>
      rw [hres', hres] at hreleased hfault
      obtain rfl : fault' = fault := hfault
      cases fault' with
      | none => exact (hreleased.setTask ht _).note _
      | some text => exact hreleased.setTask ht _

theorem deliver (ht : t ∉ gone) (fuel : ℕ) : ∀ {m' m : QueryManager} (s : Subscription),
    Absent gone due m' m → (QueryManager.deliver fuel m' t s).registry.Lent due →
    Absent gone due (QueryManager.deliver fuel m' t s) (QueryManager.deliver fuel m t s) := by
  induction fuel with
  | zero => exact fun s h _ => h.setTask ht _
  | succ fuel ih =>
    intro m' m s h hk
    unfold QueryManager.deliver at hk ⊢
    rw [h.cancelled, h.executor?] at hk
    rw [h.cancelled, h.executor?]
    split at hk
    · rename_i hcancelled
      rw [if_pos hcancelled, if_pos hcancelled]
      exact h.endSubscription ht s hk
    · rename_i hcancelled
      rw [if_neg hcancelled, if_neg hcancelled]
      cases he : m.executor? s.lease.id with
      | none => exact h.setTask ht _
      | some e =>
        simp only [he] at hk ⊢
        cases hnext : s.updates.next e with
        | mk updates o =>
          cases o with
          | none => exact h.setTask ht _
          | some o =>
            simp only [hnext] at hk ⊢
            have hhanded := h.note (.handed t ⟨o, updates.source o⟩)
            split at hk
            · rename_i hpanics
              rw [if_pos hpanics, if_pos hpanics]
              exact (hhanded.note _).endSubscription ht _ hk
            · rename_i hpanics
              rw [if_neg hpanics, if_neg hpanics]
              exact ih _ hhanded hk

/-- **What another task does until it has to wait.** -/
theorem runTask (h : Absent gone due m' m) (ht : t ∉ gone) (hk : (m'.runTask t).registry.Lent due) :
    Absent gone due (m'.runTask t) (m.runTask t) := by
  unfold QueryManager.runTask at hk ⊢
  rw [h.others t ht] at hk ⊢
  cases htask : m.tasks[t]? with
  | none => exact h
  | some x =>
    cases x with
    | attempt id n =>
      simp only [h.executor?]
      cases m.executor? id with
      | none => exact h
      | some e =>
        have hbegun := h.setExecutor id (e.begin n)
        simp only
        split
        · split
          · exact hbegun.note _
          · exact hbegun
        · exact h.setExecutor id (e.resume n)
    | caller c =>
      simp only [htask] at hk ⊢
      cases hst : c.stage with
      | arriving =>
        simp only [hst] at hk ⊢
        exact h.arrive ht c hk
      | waiting id n x =>
        simp only [hst] at hk ⊢
        exact h.awaitAttempt ht c id n x hk
      | ended ending => exact h
    | subscription s =>
      simp only [htask] at hk ⊢
      cases hst : s.stage with
      | running =>
        simp only [hst] at hk ⊢
        exact deliver ht _ s h hk
      | completed => exact h
      | panicked text => exact h

/-! ## Which tasks are queued -/

theorem mem_queue (h : Absent gone due m' m) (ht : t ∉ gone) : t ∈ m'.queue ↔ t ∈ m.queue := by
  have hmem : ∀ queue : List TaskId, t ∈ queue ↔ t ∈ queue.filter fun t => t ∉ gone := fun queue => by
    rw [List.mem_filter, and_iff_left (decide_eq_true ht)]
  rw [hmem m'.queue, hmem m.queue, h.queue]

/-- One who has left is queued at most where it waits. -/
theorem wakeTask (h : Absent gone due m' m) (t : TaskId) :
    Absent gone due (m'.wakeTask t) (m.wakeTask t) := by
  unfold QueryManager.wakeTask
  by_cases ht : t ∈ gone
  · have hnot : (m'.tasks[t]?).any m'.isReady = false := by
      obtain ⟨c, ending, htask, hst⟩ := h.ended ht
      simp [htask, QueryManager.isReady, hst]
    rw [hnot, Bool.false_and, if_neg Bool.false_ne_true]
    split
    · refine { h with queue := ?_ }
      rw [List.filter_append, h.queue]
      simp [ht]
    · exact h
  · have hready : (m'.tasks[t]?).any m'.isReady = (m.tasks[t]?).any m.isReady := by
      rw [h.others t ht, funext h.isReady]
    have hqueued : m'.queue.contains t = m.queue.contains t := by
      rw [Bool.eq_iff_iff, List.contains_iff_mem, List.contains_iff_mem]
      exact h.mem_queue ht
    rw [hready, hqueued]
    split
    · refine { h with queue := ?_ }
      rw [List.filter_append, List.filter_append, h.queue]
    · exact h

theorem foldl_wakeTask (us : List TaskId) : ∀ {m' m : QueryManager}, Absent gone due m' m →
    Absent gone due (us.foldl QueryManager.wakeTask m') (us.foldl QueryManager.wakeTask m) := by
  induction us with
  | nil => exact fun h => h
  | cons u us ih => exact fun h => ih (h.wakeTask u)

theorem ofRank (h : Absent gone due m' m) (r : ℕ) : m'.ofRank r = m.ofRank r := by
  unfold QueryManager.ofRank
  rw [h.length]
  refine List.filter_congr fun u _ => ?_
  by_cases hu : u ∈ gone
  · have hdeparted := h.departed u hu
    generalize m'.tasks[u]? = x' at hdeparted
    generalize m.tasks[u]? = x at hdeparted
    cases hdeparted
    rfl
  · rw [h.others u hu]

/-- **The same tasks are queued,** but for those that have left. -/
theorem wake (h : Absent gone due m' m) : Absent gone due m'.wake m.wake := by
  unfold QueryManager.wake
  rw [h.ofRank, h.ofRank, h.ofRank]
  exact h.foldl_wakeTask _

end Absent

/-! ## Events -/

/-- None of these tasks runs next. -/
def QueryManager.NotNext (m : QueryManager) (gone : List TaskId) : Prop := ∀ u ∈ gone, m.queue.head? ≠ some u

/-- The event does not concern any of those who have left one of the managers. -/
def ManagerEvent.Common (gone : List TaskId) (m' m : QueryManager) : ManagerEvent → Prop
  | .poll => m'.NotNext gone ∧ m.NotNext gone
  | .abort u => u ∉ gone
  | _ => True

theorem registry_wake (m : QueryManager) : m.wake.registry = m.registry := by
  rw [(Queued.wake m).frame]

namespace Absent

/-- The same task is next in both. -/
theorem queue_cases (h : Absent gone due m' m) (hn' : m'.NotNext gone) (hn : m.NotNext gone) :
    m'.queue = [] ∧ m.queue = [] ∨ ∃ t rest' rest, t ∉ gone ∧ m'.queue = t :: rest' ∧ m.queue = t :: rest ∧
      rest'.filter (fun t => t ∉ gone) = rest.filter fun t => t ∉ gone := by
  have hqueue := h.queue
  have hhead : ∀ {m : QueryManager} {t : TaskId} {rest : List TaskId}, m.NotNext gone → m.queue = t :: rest →
      t ∉ gone ∧ (t :: rest).filter (fun t => t ∉ gone) = t :: rest.filter fun t => t ∉ gone := by
    intro m t rest hn hq
    have ht : t ∉ gone := fun hmem => hn t hmem (by rw [hq]; rfl)
    exact ⟨ht, by simp [ht]⟩
  cases hq' : m'.queue with
  | nil =>
    cases hq : m.queue with
    | nil => exact .inl ⟨rfl, rfl⟩
    | cons t rest =>
      rw [hq', hq, (hhead hn hq).2] at hqueue
      simp at hqueue
  | cons t rest' =>
    obtain ⟨ht, hfilter'⟩ := hhead hn' hq'
    rw [hq', hfilter'] at hqueue
    cases hq : m.queue with
    | nil =>
      rw [hq] at hqueue
      simp at hqueue
    | cons v rest =>
      rw [hq, (hhead hn hq).2] at hqueue
      obtain ⟨rfl, hrest⟩ := List.cons.inj hqueue
      exact .inr ⟨t, rest', rest, ht, rfl, rfl, hrest⟩

theorem poll (h : Absent gone due m' m) (hn' : m'.NotNext gone) (hn : m.NotNext gone)
    (hk : m'.poll.registry.Lent due) : Absent gone due m'.poll m.poll := by
  rcases h.queue_cases hn' hn with ⟨hq', hq⟩ | ⟨t, rest', rest, ht, hq', hq, hrest⟩
  · rw [poll_nil hq', poll_nil hq]
    exact h
  · rw [poll_eq hq', registry_wake] at hk
    rw [poll_eq hq', poll_eq hq]
    have htaken : Absent gone due m'.taken m.taken := by
      unfold QueryManager.taken
      rw [hq', hq]
      exact h.setQueue hrest
    exact (htaken.runTask ht hk).wake

/-- The same task is favoured in both. -/
theorem favour (h : Absent gone due m' m) (t : TaskId) : Absent gone due (m'.favour t) (m.favour t) := by
  rw [favour_frame m', favour_frame m]
  refine h.setQueue ?_
  rw [filter_favour, filter_favour, h.queue]

theorem abort (h : Absent gone due m' m) (ht : t ∉ gone) (hk : (m'.abort t).registry.Lent due) :
    Absent gone due (m'.abort t) (m.abort t) := by
  unfold QueryManager.abort at hk ⊢
  rw [h.others t ht] at hk ⊢
  cases htask : m.tasks[t]? with
  | none => exact h
  | some x =>
    cases x with
    | caller c =>
      simp only [htask] at hk ⊢
      cases hst : c.stage with
      | arriving => exact h.endCaller ht c .dropped
      | waiting id n x =>
        simp only [hst, registry_wake] at hk ⊢
        obtain ⟨hreleased, hfault⟩ := h.releaseLease? x hk
        rw [hfault]
        exact (hreleased.endCaller ht c _).wake
      | ended ending => exact h
    | attempt id n => exact h
    | subscription s => exact h

theorem subscribe (h : Absent gone due m' m) (spec : QuerySpec) (executes : Bool)
    (react : Delivery → Reaction) :
    Absent gone due (m'.subscribe spec executes react).1 (m.subscribe spec executes react).1 := by
  obtain ⟨hacquired, hlease⟩ := h.acquire spec
  unfold QueryManager.subscribe
  simp only [hlease, hacquired.executor?]
  cases (m.acquire spec).1.executor? (m.acquire spec).2.id with
  | none => exact hacquired
  | some e =>
    simp only
    split
    · exact ((hacquired.spawn _).1.spawn _).1
    · exact (hacquired.spawn _).1

theorem unsubscribe (h : Absent gone due m' m) (t : TaskId) :
    Absent gone due (m'.unsubscribe t) (m.unsubscribe t) := by
  unfold QueryManager.unsubscribe
  by_cases ht : t ∈ gone
  · have hdeparted := h.departed t ht
    generalize m'.tasks[t]? = x' at hdeparted
    generalize m.tasks[t]? = x at hdeparted
    cases hdeparted
    exact h
  · rw [h.others t ht]
    cases m.tasks[t]? with
    | none => exact h
    | some x =>
      cases x with
      | subscription s => exact (h.setTask ht _).wake
      | caller c => exact h
      | attempt id n => exact h

/-- The executor of an attempt changes. -/
theorem attempt (h : Absent gone due m' m) (t : TaskId) (f : Executor → Int → Executor) :
    Absent gone due
      (match m'.tasks[t]? with
        | some (.attempt id n) =>
          match m'.executor? id with
          | some e => (m'.setExecutor id (f e n)).wake
          | none => m'
        | _ => m')
      (match m.tasks[t]? with
        | some (.attempt id n) =>
          match m.executor? id with
          | some e => (m.setExecutor id (f e n)).wake
          | none => m
        | _ => m) := by
  by_cases ht : t ∈ gone
  · have hdeparted := h.departed t ht
    generalize m'.tasks[t]? = x' at hdeparted
    generalize m.tasks[t]? = x at hdeparted
    cases hdeparted
    exact h
  · rw [h.others t ht]
    cases m.tasks[t]? with
    | none => exact h
    | some x =>
      cases x with
      | attempt id n =>
        simp only [h.executor?]
        cases m.executor? id with
        | none => exact h
        | some e => exact (h.setExecutor id _).wake
      | caller c => exact h
      | subscription s => exact h

theorem cancel (h : Absent gone due m' m) : Absent gone due m'.cancel m.cancel := by
  have hclosed := h.setLives true (m.lives.map fun q => { q with executor := q.executor.close })
  unfold QueryManager.cancel
  rw [h.lives]
  simp only [h.length]
  exact hclosed.foldl_wakeTask _

/-- **Every event does the same to both,** if it does not concern one of those who have left. -/
theorem step (h : Absent gone due m' m) (hev : ev.Common gone m' m)
    (hk : (m'.step ev).registry.Lent due) : Absent gone due (m'.step ev) (m.step ev) := by
  cases ev with
  | drawn numbers requests =>
    show Absent gone due { m' with supply := _ } { m with supply := _ }
    rw [h.supply]
    exact h.setSupply _
  | poll => exact h.poll hev.1 hev.2 hk
  | favour u => exact h.favour u
  | acquire spec => exact (h.acquire spec).1
  | release x =>
    have hk' : (m'.releaseLease x).1.wake.registry.Lent due := hk
    rw [registry_wake] at hk'
    exact (h.releaseLease x hk').1.wake
  | close id => exact (h.closeInstance id).1.wake
  | closeExecutor id =>
    have hclosed := h.setLives m.cancelled
      (m.lives.modify id fun q => { q with executor := q.executor.close })
    show Absent gone due (QueryManager.wake _) (QueryManager.wake _)
    rw [h.lives]
    exact Absent.wake { hclosed with cancelled := h.cancelled }
  | ask addressee block => exact (h.spawn _).1
  | abort u => exact h.abort hev hk
  | subscribe spec executes react => exact h.subscribe spec executes react
  | unsubscribe u => exact h.unsubscribe u
  | answer u reply => exact h.attempt u fun e n => e.answer n reply
  | answerNow u reply => exact h.attempt u fun e n => (e.answer n reply).resume n
  | cancel => exact h.cancel

end Absent

end QueryClient
