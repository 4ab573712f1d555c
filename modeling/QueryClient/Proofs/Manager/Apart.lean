import QueryClient.Proofs.Manager.Winding

/-!
# What concerns one key only

Live queries, tasks and leases concern one key each. What tasks and users do for a key leaves all that
concerns other keys as it is.

* `QueryManager.otherLive?`, `QueryManager.otherTask?`: what concerns other keys than the given one.
* `Spares`: **what concerns other keys stays as it is.**
* `Spares.releaseLease`, …, `Spares.runTask`: what a task of the key does is of this kind.
-/

namespace QueryClient

variable {keys : InstanceId → Option QueryKey} {key : QueryKey} {m m' m'' : QueryManager} {t u : TaskId}
variable {id : InstanceId} {e e' : Executor} {x : Task} {c : Caller} {s : Subscription} {spec : QuerySpec}

/-! ## What concerns a key -/

/-- The key of the query that is asked for, given the keys of the instances. -/
def Addressee.key? (keys : InstanceId → Option QueryKey) : Addressee → Option QueryKey
  | .direct id => keys id
  | .leased spec => some spec.key

/-- The task that the note is about. -/
def Note.task? : Note → Option TaskId
  | .called t _ _ | .ended t _ | .handed t _ | .completed t => some t
  | .warned _ | .failed _ => none

namespace QueryManager

/-- The live query of the given name, if it is one of another key. -/
def otherLive? (m : QueryManager) (key : QueryKey) (id : InstanceId) : Option LiveQuery :=
  (m.lives[id]?).filter fun q => q.key ≠ key

/-- The task concerns another key; whom callers may ask directly is given. -/
def concernsOther (m : QueryManager) (keys : InstanceId → Option QueryKey) (key : QueryKey) : Task → Bool
  | .attempt id _ => (m.otherLive? key id).isSome
  | .caller c => c.addressee.key? keys ≠ some key
  | .subscription s => s.lease.key ≠ key

@[simp] theorem concernsOther_attempt (m : QueryManager) (id : InstanceId) (n : Int) :
    m.concernsOther keys key (.attempt id n) = (m.otherLive? key id).isSome := rfl

@[simp] theorem concernsOther_caller (m : QueryManager) (c : Caller) :
    m.concernsOther keys key (.caller c) = decide (c.addressee.key? keys ≠ some key) := rfl

@[simp] theorem concernsOther_subscription (m : QueryManager) (s : Subscription) :
    m.concernsOther keys key (.subscription s) = decide (s.lease.key ≠ key) := rfl

/-- The task of the given name, if it concerns another key. -/
def otherTask? (m : QueryManager) (keys : InstanceId → Option QueryKey) (key : QueryKey) (t : TaskId) :
    Option Task :=
  (m.tasks[t]?).filter (m.concernsOther keys key)

/-- The task is there, and concerns no other key. -/
def Owns (m : QueryManager) (keys : InstanceId → Option QueryKey) (key : QueryKey) (t : TaskId) : Prop :=
  t < m.tasks.length ∧ m.otherTask? keys key t = none

end QueryManager

/-- **What concerns other keys stays as it is.** -/
structure Spares (keys : InstanceId → Option QueryKey) (key : QueryKey) (m m' : QueryManager) : Prop where
  cancelled : m'.cancelled = m.cancelled
  grows : Grows m m'
  lives : m'.otherLive? key = m.otherLive? key
  tasks : m'.otherTask? keys key = m.otherTask? keys key
  registry : ∀ k, k ≠ key → m'.registry.entry? k = m.registry.entry? k
  /-- Only tasks of the key are queued, or leave the queue. -/
  queue : ∀ p : TaskId → Bool, (∀ t, m'.Owns keys key t → p t = false) → m'.queue.filter p = m.queue.filter p
  /-- Only what tasks of the key do is noted. -/
  journal : ∀ p : TaskId → Bool, (∀ t, m'.Owns keys key t → p t = false) →
    (m'.journal.filter fun n => n.task?.any p) = m.journal.filter fun n => n.task?.any p

namespace Spares

theorem refl (m : QueryManager) : Spares keys key m m :=
  ⟨rfl, .refl m, rfl, rfl, fun _ _ => rfl, fun _ _ => rfl, fun _ _ => rfl⟩

/-- Tasks of the key stay tasks of the key. -/
theorem owns (h : Spares keys key m m') (ht : m.Owns keys key t) : m'.Owns keys key t :=
  ⟨Nat.lt_of_lt_of_le ht.1 h.grows.tasks, by rw [h.tasks]; exact ht.2⟩

theorem own_live (h : Spares keys key m m') (hid : m.otherLive? key id = none) :
    m'.otherLive? key id = none := by
  rw [h.lives]
  exact hid

theorem trans (h : Spares keys key m m') (h' : Spares keys key m' m'') : Spares keys key m m'' :=
  ⟨h'.cancelled.trans h.cancelled, h.grows.trans h'.grows, h'.lives.trans h.lives, h'.tasks.trans h.tasks,
    fun k hk => (h'.registry k hk).trans (h.registry k hk),
    fun p hp => (h'.queue p hp).trans (h.queue p fun t ht => hp t (h'.owns ht)),
    fun p hp => (h'.journal p hp).trans (h.journal p fun t ht => hp t (h'.owns ht))⟩

/-- Only live queries of the key change. -/
theorem of_lives {lives : List LiveQuery} (hlen : m.lives.length ≤ lives.length)
    (hlives : ∀ id, (lives[id]?).filter (fun q => q.key ≠ key) = m.otherLive? key id) :
    Spares keys key m { m with lives } := by
  have hother : QueryManager.otherLive? { m with lives } key = m.otherLive? key := funext hlives
  refine ⟨rfl, ⟨Int.le_refl _, Nat.le_refl _, hlen, Nat.le_refl _⟩, hother, ?_, fun _ _ => rfl,
    fun _ _ => rfl, fun _ _ => rfl⟩
  funext u
  unfold QueryManager.otherTask?
  congr 1
  funext x
  -- whom an attempt concerns is told by its live query
  cases x with
  | attempt id n =>
    rw [QueryManager.concernsOther_attempt, hother]
    rfl
  | caller c => rfl
  | subscription s => rfl

/-- Only tasks of the key change. -/
theorem of_tasks {tasks : List Task} (hlen : m.tasks.length ≤ tasks.length)
    (htasks : ∀ u, (tasks[u]?).filter (m.concernsOther keys key) = m.otherTask? keys key u) :
    Spares keys key m { m with tasks } :=
  ⟨rfl, ⟨Int.le_refl _, Nat.le_refl _, Nat.le_refl _, hlen⟩, rfl, funext htasks, fun _ _ => rfl,
    fun _ _ => rfl, fun _ _ => rfl⟩

theorem of_registry {r : Registry} (hr : ∀ k, k ≠ key → r.entry? k = m.registry.entry? k) :
    Spares keys key m { m with registry := r } :=
  ⟨rfl, ⟨Int.le_refl _, Nat.le_refl _, Nat.le_refl _, Nat.le_refl _⟩, rfl, rfl, hr, fun _ _ => rfl,
    fun _ _ => rfl⟩

theorem of_supply {supply : Supply} (hn : m.supply.number ≤ supply.number)
    (hr : m.supply.request ≤ supply.request) : Spares keys key m { m with supply } :=
  ⟨rfl, ⟨hn, hr, Nat.le_refl _, Nat.le_refl _⟩, rfl, rfl, fun _ _ => rfl, fun _ _ => rfl, fun _ _ => rfl⟩

/-- Only tasks of the key are queued, or leave the queue. -/
theorem of_queue {queue : List TaskId}
    (hq : ∀ p : TaskId → Bool, (∀ t, m.Owns keys key t → p t = false) → queue.filter p = m.queue.filter p) :
    Spares keys key m { m with queue } :=
  ⟨rfl, ⟨Int.le_refl _, Nat.le_refl _, Nat.le_refl _, Nat.le_refl _⟩, rfl, rfl, fun _ _ => rfl, hq,
    fun _ _ => rfl⟩

theorem note {n : Note} (hn : ∀ u, n.task? = some u → m.Owns keys key u) : Spares keys key m (m.note n) := by
  refine ⟨rfl, ⟨Int.le_refl _, Nat.le_refl _, Nat.le_refl _, Nat.le_refl _⟩, rfl, rfl, fun _ _ => rfl,
    fun _ _ => rfl, fun p hp => ?_⟩
  have hnot : n.task?.any p = false := by
    cases h : n.task? with
    | none => rfl
    | some u => exact hp u (hn u h)
  show (m.journal ++ [n]).filter _ = _
  rw [List.filter_append, List.filter_singleton, hnot]
  simp

theorem setTask (ht : m.Owns keys key t) {y : Task} (hy : m.concernsOther keys key y = false) :
    Spares keys key m (m.setTask t y) := by
  refine of_tasks (Nat.le_of_eq List.length_set.symm) fun u => ?_
  rw [List.getElem?_set]
  by_cases htu : t = u
  · subst htu
    rw [ht.2, if_pos rfl, if_pos ht.1]
    simp [hy]
  · rw [if_neg htu]
    rfl

theorem spawn {y : Task} (hy : m.concernsOther keys key y = false) : Spares keys key m (m.spawn y).1 := by
  have hnone : m.otherTask? keys key m.tasks.length = none := by
    unfold QueryManager.otherTask?
    rw [List.getElem?_eq_none_iff.2 (Nat.le_refl _)]
    rfl
  have htasks : Spares keys key m { m with tasks := m.tasks ++ [y] } := by
    refine of_tasks (List.prefix_append _ _).length_le fun u => ?_
    have hget := getElem?_spawn m y u
    rw [show (m.spawn y).1.tasks = m.tasks ++ [y] from rfl] at hget
    rw [hget]
    split
    · rename_i hu
      rw [hu, hnone]
      simp [hy]
    · rfl
  refine htasks.trans (of_queue (m := { m with tasks := m.tasks ++ [y] }) fun p hp => ?_)
  -- the new task is one of the key
  have hnew : p m.tasks.length = false := by
    refine hp _ ⟨?_, by rw [htasks.tasks]; exact hnone⟩
    show _ < (_ ++ [_]).length
    rw [List.length_append]
    exact Nat.lt_succ_self _
  rw [List.filter_append, List.filter_singleton]
  simp [hnew]

/-! ## Live queries and leases -/

theorem otherLive?_eq_none : m.otherLive? key id = none ↔ ∀ q, m.lives[id]? = some q → q.key = key := by
  unfold QueryManager.otherLive?
  cases m.lives[id]? <;> simp

/-- The executor is one of the key. -/
theorem key_eq (hid : m.otherLive? key id = none) (he : m.executor? id = some e) : e.key = key := by
  obtain ⟨q, hq, rfl⟩ := QueryManager.executor?_eq_some.1 he
  exact otherLive?_eq_none.1 hid q hq

theorem otherLive?_of_key (he : m.executor? id = some e) (hk : e.key = key) : m.otherLive? key id = none := by
  obtain ⟨q, hq, rfl⟩ := QueryManager.executor?_eq_some.1 he
  refine otherLive?_eq_none.2 fun p hp => ?_
  rw [← Option.some.inj (hq.symm.trans hp)]
  exact hk

/-- A live query of the key changes, and stays one of the key. -/
theorem of_modify {f : LiveQuery → LiveQuery} (hid : m.otherLive? key id = none)
    (hkey : ∀ q, m.lives[id]? = some q → (f q).key = key) :
    Spares keys key m { m with lives := m.lives.modify id f } := by
  refine of_lives (Nat.le_of_eq (List.length_modify ..).symm) fun i => ?_
  rw [List.getElem?_modify]
  by_cases hi : id = i
  · subst hi
    rw [hid]
    cases hq : m.lives[id]? with
    | none => rfl
    | some q => simp [hkey q hq]
  · unfold QueryManager.otherLive?
    cases m.lives[i]? <;> simp [hi]

theorem setExecutor (hid : m.otherLive? key id = none) (hk : e.key = key) :
    Spares keys key m (m.setExecutor id e) := of_modify hid fun _ _ => hk

theorem closeInstance (hid : m.otherLive? key id = none) : Spares keys key m (m.closeInstance id).1 := by
  unfold QueryManager.closeInstance
  cases hq : m.lives[id]? with
  | none => exact refl m
  | some q =>
    have hkey : q.close.1.key = key := by
      rw [← otherLive?_eq_none.1 hid q hq]
      unfold LiveQuery.close
      split <;> rfl
    refine of_lives (Nat.le_of_eq List.length_set.symm) fun i => ?_
    rw [List.getElem?_set]
    by_cases hi : id = i
    · subst hi
      rw [hid, if_pos rfl, if_pos (List.getElem?_eq_some_iff.1 hq).1]
      simp [hkey]
    · rw [if_neg hi]
      rfl

theorem releaseLease {x : Lease} (hx : x.key = key) (hid : m.otherLive? key x.id = none) :
    Spares keys key m (m.releaseLease x).1 := by
  have hreg : Spares keys key m { m with registry := (m.registry.release x.key x.id).1 } := by
    -- whatever comes of the release, only the entry of the key is touched
    refine of_registry fun k hk => ?_
    unfold Registry.release
    cases hc : m.registry.entry? x.key with
    | none => rfl
    | some cnt =>
      simp only
      split
      · rfl
      cases cnt.decrement? with
      | none => rfl
      | some cnt' =>
        simp only
        split
        · rw [Registry.entry?_remove, if_neg (by rw [hx]; exact hk)]
        · rw [Registry.entry?_setEntry hc, if_neg (by rw [hx]; exact hk)]
  unfold QueryManager.releaseLease
  simp only
  split
  · exact hreg.trans (closeInstance (hreg.own_live hid))
  · exact hreg

/-- The leases that may be given up are on the key. -/
theorem releaseLease? {x : Option Lease} (hx : ∀ y ∈ x, y.key = key ∧ m.otherLive? key y.id = none) :
    Spares keys key m (m.releaseLease? x).1 := by
  cases x with
  | none => exact refl m
  | some y => exact releaseLease (hx y rfl).1 (hx y rfl).2

/-- A live query of the key is opened. -/
theorem push {q : LiveQuery} (hq : q.key = key) : Spares keys key m { m with lives := m.lives ++ [q] } := by
  refine of_lives (List.prefix_append _ _).length_le fun i => ?_
  unfold QueryManager.otherLive?
  rcases Nat.lt_trichotomy i m.lives.length with hlt | rfl | hgt
  · rw [List.getElem?_append_left hlt]
  · rw [List.getElem?_concat_length, List.getElem?_eq_none_iff.2 (Nat.le_refl _)]
    simp [hq]
  · rw [List.getElem?_eq_none_iff.2 (Nat.le_of_lt hgt),
      List.getElem?_eq_none_iff.2 (by rw [List.length_append]; exact hgt)]

theorem acquire (hr : Registered m) (hkey : spec.key = key) : Spares keys key m (m.acquire spec).1 ∧
    (m.acquire spec).2.key = key ∧ (m.acquire spec).1.otherLive? key (m.acquire spec).2.id = none := by
  obtain ⟨-, e, he, hk⟩ := hr.acquire spec
  refine ⟨?_, hkey, otherLive?_of_key he (hk.trans hkey)⟩
  rcases acquire_cases hr spec with ⟨cnt, f, hc, -, -, hacq⟩ | ⟨hc, hacq⟩ <;> rw [hacq]
  · refine of_registry fun k hk => ?_
    rw [Registry.entry?_setEntry hc, if_neg (by rw [hkey]; exact hk)]
  · have hreg : Spares keys key m { m with registry := (m.registry.acquire spec.key m.lives.length).1 } := by
      refine of_registry fun k hk => ?_
      unfold Registry.acquire
      rw [hc]
      exact (Registry.entry?_append hc _ k).trans (if_neg (by rw [hkey]; exact hk))
    exact hreg.trans (push (m := { m with registry := _ }) hkey)

/-! ## Callers -/

theorem endCaller (ht : m.Owns keys key t) (haddr : c.addressee.key? keys = some key)
    (ending : Ending NumberedOutcome) : Spares keys key m (m.endCaller t c ending) := by
  have hset : Spares keys key m (m.setTask t (.caller { c with stage := .ended ending })) :=
    setTask ht (by simp [haddr])
  refine hset.trans (note fun u hu => ?_)
  rw [← Option.some.inj hu]
  exact hset.owns ht

theorem finishCaller (ht : m.Owns keys key t) (haddr : c.addressee.key? keys = some key)
    {x : Option Lease} (hx : ∀ y ∈ x, y.key = key ∧ m.otherLive? key y.id = none) (o : NumberedOutcome) :
    Spares keys key m (m.finishCaller t c x o) := by
  have hreleased : Spares keys key m (m.releaseLease? x).1 := releaseLease? hx
  exact hreleased.trans (endCaller (hreleased.owns ht) haddr _)

theorem awaitAttempt (ht : m.Owns keys key t) (haddr : c.addressee.key? keys = some key)
    (hid : m.otherLive? key id = none) (n : Int) {x : Option Lease}
    (hx : ∀ y ∈ x, y.key = key ∧ m.otherLive? key y.id = none) :
    Spares keys key m (m.awaitAttempt t c id n x) := by
  have hwait : Spares keys key m (m.setTask t (.caller { c with stage := .waiting id n x })) :=
    setTask ht (by simp [haddr])
  unfold QueryManager.awaitAttempt
  cases he : m.executor? id with
  | none => exact hwait
  | some e =>
    simp only
    cases hw : e.await? n with
    | none => exact hwait
    | some w =>
      obtain ⟨e', o, madeUp⟩ := w
      have hset : Spares keys key m (m.setExecutor id e') :=
        setExecutor hid ((Executor.Keeps.await hw).1.trans (key_eq hid he))
      -- it is remarked that the result was made up
      have hremark : Spares keys key m (if madeUp then (m.setExecutor id e').note (.warned e'.droppedText)
          else m.setExecutor id e') := by
        split
        · exact hset.trans (note fun u hu => by simp [Note.task?] at hu)
        · exact hset
      exact hremark.trans (finishCaller (hremark.owns ht) haddr
        (fun y hy => ⟨(hx y hy).1, hremark.own_live (hx y hy).2⟩) o)

theorem enter (hid : m.otherLive? key id = none) (he : m.executor? id = some e) :
    Spares keys key m (m.enter id e).1 := by
  have hsupply : Spares keys key m { m with supply := (e.enter m.supply).2.1 } :=
    of_supply (e.le_enter m.supply).1 (e.le_enter m.supply).2
  have hset : Spares keys key m
      ({ m with supply := (e.enter m.supply).2.1 }.setExecutor id (e.enter m.supply).1) :=
    hsupply.trans (setExecutor (hsupply.own_live hid)
      ((Executor.Keeps.enter e m.supply).1.trans (key_eq hid he)))
  unfold QueryManager.enter
  simp only
  split
  · refine hset.trans (spawn ?_)
    rw [QueryManager.concernsOther_attempt, hset.own_live hid]
    rfl
  · exact hset

theorem callInstance (ht : m.Owns keys key t) (haddr : c.addressee.key? keys = some key)
    (hid : m.otherLive? key id = none) {x : Option Lease}
    (hx : ∀ y ∈ x, y.key = key ∧ m.otherLive? key y.id = none) :
    Spares keys key m (m.callInstance t c id x) := by
  unfold QueryManager.callInstance
  split
  · exact refl m
  rename_i e he
  have henter : Spares keys key m (m.enter id e).1 := enter hid he
  have ht₁ := henter.owns ht
  have hid₁ := henter.own_live hid
  have hx₁ : ∀ y ∈ x, y.key = key ∧ (m.enter id e).1.otherLive? key y.id = none :=
    fun y hy => ⟨(hx y hy).1, henter.own_live (hx y hy).2⟩
  split <;> rename_i m₁ n hm₁ <;> simp only [hm₁] at henter ht₁ hid₁ hx₁
  · exact henter.trans (finishCaller ht₁ haddr hx₁ n)
  · exact henter.trans (awaitAttempt ht₁ haddr hid₁ n hx₁)
  · exact henter.trans (awaitAttempt ht₁ haddr hid₁ n hx₁)

/-- The block of a caller of the key closes the live query that was leased, or does nothing. -/
theorem blocked (c : Caller) {x : Lease} (hid : m.otherLive? key x.id = none) :
    Spares keys key m (m.blocked c x) := by
  unfold QueryManager.blocked
  split
  · exact closeInstance hid
  · exact refl m

theorem failBlock (ht : m.Owns keys key t) (haddr : c.addressee.key? keys = some key) {x : Lease}
    (hx : x.key = key) (hid : m.otherLive? key x.id = none) : Spares keys key m (m.failBlock t c x) := by
  have hreleased : Spares keys key m (m.releaseLease x).1 := releaseLease hx hid
  unfold QueryManager.failBlock
  -- it is remarked when the lease cannot be given up
  cases (m.releaseLease x).2 with
  | none => exact hreleased.trans (endCaller (hreleased.owns ht) haddr _)
  | some text =>
    have hremark : Spares keys key m ((m.releaseLease x).1.note (.failed text)) :=
      hreleased.trans (note fun u hu => by simp [Note.task?] at hu)
    exact hremark.trans (endCaller (hremark.owns ht) haddr _)

theorem arriveWith (ht : m.Owns keys key t) (haddr : c.addressee.key? keys = some key) {x : Lease}
    (hx : x.key = key) (hid : m.otherLive? key x.id = none) : Spares keys key m (m.arriveWith t c x) := by
  have hblocked : Spares keys key m (m.blocked c x) := blocked c hid
  have ht₁ := hblocked.owns ht
  have hid₁ := hblocked.own_live hid
  unfold QueryManager.arriveWith
  split
  · exact hblocked.trans (failBlock ht₁ haddr hx hid₁)
  · refine hblocked.trans (callInstance ht₁ haddr hid₁ fun y hy => ?_)
    obtain rfl := Option.some.inj hy
    exact ⟨hx, hid₁⟩

theorem arrive (hr : Registered m) (ht : m.Owns keys key t)
    (haddr : c.addressee.key? keys = some key)
    (hid : ∀ id, c.addressee = .direct id → m.otherLive? key id = none) :
    Spares keys key m (m.arrive t c) := by
  cases hc : c.addressee with
  | direct id =>
    unfold QueryManager.arrive
    simp only [hc]
    exact callInstance ht haddr (hid id hc) (by simp)
  | leased spec =>
    have hkey : spec.key = key := by
      rw [hc] at haddr
      exact Option.some.inj haddr
    obtain ⟨hacquired, hx, hopen⟩ := @acquire keys key m spec hr hkey
    rw [QueryManager.arrive_leased hc]
    exact hacquired.trans (arriveWith (hacquired.owns ht) haddr hx hopen)

/-! ## Subscriptions -/

theorem endSubscription (ht : m.Owns keys key t) (hkey : s.lease.key = key)
    (hid : m.otherLive? key s.lease.id = none) : Spares keys key m (m.endSubscription t s) := by
  have hreleased : Spares keys key m (m.releaseLease s.lease).1 := releaseLease hkey hid
  have hset : ∀ stage, Spares keys key m
      ((m.releaseLease s.lease).1.setTask t (.subscription { s with stage })) :=
    fun stage => hreleased.trans (setTask (hreleased.owns ht) (by simp [hkey]))
  unfold QueryManager.endSubscription
  split <;> rename_i m₁ _ <;> rename_i hm₁ <;> simp only [hm₁] at hset
  · refine (hset .completed).trans (note fun u hu => ?_)
    rw [← Option.some.inj hu]
    exact (hset .completed).owns ht
  · exact hset _

theorem deliver (t : TaskId) (fuel : ℕ) : ∀ {m : QueryManager} {s : Subscription},
    m.Owns keys key t → s.lease.key = key → m.otherLive? key s.lease.id = none →
    Spares keys key m (QueryManager.deliver fuel m t s) := by
  induction fuel with
  | zero => exact fun ht hkey _ => setTask ht (by simp [hkey])
  | succ fuel ih =>
    intro m s ht hkey hid
    unfold QueryManager.deliver
    split
    · exact endSubscription ht hkey hid
    cases m.executor? s.lease.id with
    | none => exact setTask ht (by simp [hkey])
    | some e =>
      simp only
      cases s.updates.next e with
      | mk updates o =>
        cases o with
        | none => exact setTask ht (by simp [hkey])
        | some o =>
          have hhand : Spares keys key m (m.note (.handed t ⟨o, updates.source o⟩)) := by
            refine note fun u hu => ?_
            rw [← Option.some.inj hu]
            exact ht
          simp only
          split
          · have hremark : Spares keys key m ((m.note (.handed t ⟨o, updates.source o⟩)).note
                (.failed (QueryManager.handlerPanicked s.lease.key))) :=
              hhand.trans (note fun u hu => by simp [Note.task?] at hu)
            exact hremark.trans (endSubscription (s := { s with updates, cancelled := _ })
              (hremark.owns ht) hkey (hremark.own_live hid))
          · exact hhand.trans (ih (s := { s with updates, cancelled := _ }) (hhand.owns ht) hkey
              (hhand.own_live hid))

/-! ## Tasks -/

/-- The instance that a caller of the key asks directly is one of the key. -/
theorem asks (hkeys : ∀ id e, m.executor? id = some e → keys id = some e.key)
    (haddr : c.addressee.key? keys = some key) (hc : c.addressee = .direct id) :
    m.otherLive? key id = none := by
  rw [hc] at haddr
  refine otherLive?_eq_none.2 fun q hq => ?_
  have hagree := hkeys id q.executor (QueryManager.executor?_eq_some.2 ⟨q, hq, rfl⟩)
  exact Option.some.inj (hagree.symm.trans haddr)

/-- The instance that a caller of the key waits for is one of the key, and so is that of its lease. -/
theorem waits (hc : Coherent m) (hkeys : ∀ id e, m.executor? id = some e → keys id = some e.key)
    (htask : m.tasks[t]? = some (.caller c)) (haddr : c.addressee.key? keys = some key) {n : Int}
    {lease : Option Lease} (hst : c.stage = .waiting id n lease) : m.otherLive? key id = none ∧
      ∀ y ∈ lease, y.key = key ∧ m.otherLive? key y.id = none := by
  obtain ⟨hasks, -⟩ := (hc.caller htask).waiting id n lease hst
  cases hasks with
  | direct hdirect => exact ⟨asks hkeys haddr hdirect, by simp⟩
  | @leased spec y e hleased hy he hk =>
    rw [hleased] at haddr
    have hkey : y.key = key := hy.trans (Option.some.inj haddr)
    have hid := otherLive?_of_key he (hk.trans hkey)
    refine ⟨hid, fun z hz => ?_⟩
    obtain rfl := Option.some.inj hz
    exact ⟨hkey, hid⟩

/-- **What a task of the key does** leaves all that concerns other keys as it is. -/
theorem runTask (hc : Coherent m) (ht : m.Owns keys key t)
    (hkeys : ∀ id e, m.executor? id = some e → keys id = some e.key) : Spares keys key m (m.runTask t) := by
  unfold QueryManager.runTask
  cases htask : m.tasks[t]? with
  | none => exact refl m
  | some x =>
    have hown : m.concernsOther keys key x = false := by
      have hother := ht.2
      unfold QueryManager.otherTask? at hother
      rw [htask] at hother
      simpa using hother
    cases x with
    | attempt id n =>
      have hid : m.otherLive? key id = none := by simpa using hown
      simp only
      cases he : m.executor? id with
      | none => exact refl m
      | some e =>
        have hkey := key_eq hid he
        have hresume : Spares keys key m (m.setExecutor id (e.resume n)) :=
          setExecutor hid ((Executor.Keeps.resume e n).1.trans hkey)
        have hbegin : Spares keys key m (m.setExecutor id (e.begin n)) :=
          setExecutor hid ((Executor.Keeps.begin e n).1.trans hkey)
        simp only
        split
        · split
          · refine hbegin.trans (note fun u hu => ?_)
            rw [← Option.some.inj hu]
            exact hbegin.owns ht
          · exact hbegin
        · exact hresume
    | caller c =>
      have haddr : c.addressee.key? keys = some key := by simpa using hown
      simp only
      cases hst : c.stage with
      | arriving => exact arrive hc.registered ht haddr fun id => asks hkeys haddr
      | ended ending => exact refl m
      | waiting id n lease =>
        obtain ⟨hid, hlease⟩ := waits hc hkeys htask haddr hst
        exact awaitAttempt ht haddr hid n hlease
    | subscription s =>
      have hkey : s.lease.key = key := by simpa using hown
      obtain ⟨e, he, hek, -⟩ := hc.subscription htask
      simp only
      split
      · exact deliver t _ ht hkey (otherLive?_of_key he (hek.trans hkey))
      · exact refl m

end Spares

end QueryClient
