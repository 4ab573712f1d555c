import QueryClient.Proofs.Manager.Winding

/-!
# Who holds live queries

An execution that has begun holds one lease until it ends, and so does a subscription; users hold
those that they took. Nobody else does, so a live query is closed when the last of them is gone.

* `QueryManager.pendingCalls`, `QueryManager.openSubscriptions`, `Lending.heldOn`: who holds leases on
  a key.
* `Coherent.balance`: the leases that tasks hold are those of executions and of subscriptions.
* `Lending.Proper.winds`: what an event closes is closed by the release of a last lease.
* `Unclaimed`: nobody is about to use a key again; `Unclaimed.turns`.
* `holders_law`: **no lease is leaked, and none is given up early.**
-/

namespace QueryClient

variable {m m' m'' : QueryManager} {t u : TaskId} {id : InstanceId} {e e' : Executor} {x : Task}
variable {c : Caller} {key : QueryKey} {spec : QuerySpec} {l : Lending} {ev : ManagerEvent} {held : List Lease}

/-! ## Who holds a lease -/

def Caller.isPending (c : Caller) : Bool :=
  match c.stage with
  | .ended _ => false
  | _ => true

def Subscription.isOpen (s : Subscription) : Bool :=
  match s.stage with
  | .running => true
  | _ => false

/-- An execution of the key's query that has not ended. -/
def Task.isCallOn (key : QueryKey) : Task → Bool
  | .caller c => c.isPending && c.key? = some key
  | _ => false

/-- A subscription on the key that has not ended. -/
def Task.isSubscriptionOn (key : QueryKey) : Task → Bool
  | .subscription s => s.isOpen && s.lease.key = key
  | _ => false

namespace QueryManager

/-- How many executions of the key's query are pending. -/
def pendingCalls (m : QueryManager) (key : QueryKey) : ℕ := m.tasks.countP (Task.isCallOn key)

/-- How many of them have not begun. -/
def arrivals (m : QueryManager) (key : QueryKey) : ℕ := m.tasks.countP (Task.isArrivalOn key)

/-- How many subscriptions on the key have not ended. -/
def openSubscriptions (m : QueryManager) (key : QueryKey) : ℕ :=
  m.tasks.countP (Task.isSubscriptionOn key)

end QueryManager

/-- How many leases on the key users hold. -/
def Lending.heldOn (l : Lending) (key : QueryKey) : ℕ := l.held.countP fun x => x.key = key

theorem countP_balance {α : Type} {p q r s : α → Bool} {xs : List α}
    (h : ∀ x ∈ xs, (p x).toNat + (q x).toNat = (r x).toNat + (s x).toNat) :
    xs.countP p + xs.countP q = xs.countP r + xs.countP s := by
  have hcons : ∀ (f : α → Bool) (x : α) (xs : List α), (x :: xs).countP f = xs.countP f + (f x).toNat := by
    intro f x xs
    rw [List.countP_cons]
    cases f x <;> rfl
  induction xs with
  | nil => rfl
  | cons x xs ih =>
    obtain ⟨hx, hxs⟩ := List.forall_mem_cons.1 h
    have := ih hxs
    simp only [hcons]
    omega

/-- **A task that holds a lease** is an execution that has begun, or a subscription. -/
theorem TaskOK.balance (h : TaskOK m x) (key : QueryKey) :
    (x.lease?.any fun y => y.key = key).toNat + (x.isArrivalOn key).toNat =
      (x.isCallOn key).toNat + (x.isSubscriptionOn key).toNat := by
  cases x with
  | attempt id n => rfl
  | caller c =>
    cases hst : c.stage with
    | arriving => simp [Task.lease?, Caller.lease?, Task.isArrivalOn, Task.isCallOn, Task.isSubscriptionOn,
        Caller.isArriving, Caller.isPending, hst]
    | ended ending => simp [Task.lease?, Caller.lease?, Task.isArrivalOn, Task.isCallOn, Task.isSubscriptionOn,
        Caller.isArriving, Caller.isPending, hst]
    | waiting id n lease =>
      have hcaller : CallerOK m c := h
      obtain ⟨hasks, -⟩ := hcaller.waiting id n lease hst
      -- one who asks an instance directly has no lease
      cases hasks with
      | direct haddr => simp [Task.lease?, Caller.lease?, Task.isArrivalOn, Task.isCallOn,
          Task.isSubscriptionOn, Caller.isArriving, Caller.key?, haddr, hst]
      | leased haddr hkey => simp [Task.lease?, Caller.lease?, Task.isArrivalOn, Task.isCallOn,
          Task.isSubscriptionOn, Caller.isArriving, Caller.isPending, Caller.key?, haddr, hst, hkey]
  | subscription s =>
    cases hst : s.stage <;> simp [Task.lease?, Subscription.lease?, Task.isArrivalOn, Task.isCallOn,
      Task.isSubscriptionOn, Subscription.isOpen, hst]

theorem Coherent.balance (h : Coherent m) (key : QueryKey) :
    (m.taskLeases.countP fun x => x.key = key) + m.arrivals key =
      m.pendingCalls key + m.openSubscriptions key := by
  have hleases : (m.taskLeases.countP fun x => x.key = key) =
      m.tasks.countP fun x => x.lease?.any fun y => y.key = key := by
    unfold QueryManager.taskLeases
    rw [List.countP_filterMap]
    refine congrArg (fun p => m.tasks.countP p) (funext fun x => ?_)
    cases x.lease? <;> rfl
  rw [hleases]
  refine countP_balance fun x hx => ?_
  obtain ⟨i, hi⟩ := List.mem_iff_getElem?.1 hx
  exact (h.tasks i x hi).balance key

/-- **All who hold leases,** with the executions that have not begun. -/
theorem Lending.Proper.balance (h : l.Proper) (key : QueryKey) :
    l.manager.registry.users key + l.manager.arrivals key =
      l.manager.pendingCalls key + l.manager.openSubscriptions key + l.heldOn key := by
  have hbalance := h.coherent.balance key
  rw [h.orderly.leases.books.users, List.countP_append]
  unfold Lending.heldOn
  omega

/-- Once nothing can go on, every execution has begun. -/
theorem Lending.Proper.begun (h : l.Proper) (hq : l.manager.queue = []) (key : QueryKey)
    (hx : l.manager.tasks[u]? = some x) : x.isArrivalOn key = false := by
  cases x with
  | attempt id n => rfl
  | subscription s => rfl
  | caller c =>
    cases hst : c.stage with
    | arriving =>
      have hready : l.manager.isReady (.caller c) := by simp only [QueryManager.isReady, hst]
      have hmem := h.awake u _ hx hready
      rw [hq] at hmem
      simp at hmem
    | waiting id n lease => simp [Task.isArrivalOn, Caller.isArriving, hst]
    | ended ending => simp [Task.isArrivalOn, Caller.isArriving, hst]

theorem Lending.Proper.arrivals_eq_zero (h : l.Proper) (hq : l.manager.queue = []) (key : QueryKey) :
    l.manager.arrivals key = 0 := by
  refine List.countP_eq_zero.2 fun x hx => ?_
  obtain ⟨u, hu⟩ := List.mem_iff_getElem?.1 hx
  rw [h.begun hq key hu]
  exact Bool.false_ne_true

/-! ## What closes a live query -/

/-- Taking a lease leaves the executors that there are as they are. -/
theorem executor?_acquire (hr : Registered m) (he : m.executor? id = some e) (spec : QuerySpec) :
    (m.acquire spec).1.executor? id = some e := by
  rcases acquire_cases hr spec with ⟨cnt, f, -, -, -, hacq⟩ | ⟨-, hacq⟩ <;> rw [hacq]
  · exact he
  · obtain ⟨q, hq, -⟩ := QueryManager.executor?_eq_some.1 he
    have hne := Nat.ne_of_lt (List.getElem?_eq_some_iff.1 hq).1
    exact (executor?_openInstance _ spec id).trans ((if_neg hne).trans he)

/-- **What an event closes** is closed by the release of a last lease, when a lease may have been
taken before. -/
theorem Lending.Proper.winds (h : l.Proper) (hev : ev.closes = false) (hne : ev ≠ .cancel)
    (hask : ∀ addressee block, ev ≠ .ask addressee block) :
    ∃ m₁, (∀ id e, l.manager.executor? id = some e → m₁.executor? id = some e) ∧
      m₁.tasks = l.manager.tasks ∧ Winds m₁ (l.next ev).manager := by
  have hr := h.coherent.registered
  have hsame : Winds l.manager (l.next ev).manager → ∃ m₁,
      (∀ id e, l.manager.executor? id = some e → m₁.executor? id = some e) ∧
        m₁.tasks = l.manager.tasks ∧ Winds m₁ (l.next ev).manager :=
    fun hw => ⟨_, fun _ _ he => he, rfl, hw⟩
  rcases l.next_step ev with heq | ⟨-, heq⟩
  swap
  · exact hsame (by rw [heq]; exact .refl _)
  cases ev with
  | close id => simp [ManagerEvent.closes] at hev
  | closeExecutor id => simp [ManagerEvent.closes] at hev
  | cancel => exact absurd rfl hne
  | drawn numbers requests =>
    exact hsame (by rw [heq]; exact .of_tasks rfl rfl fun _ _ _ hx _ => hx)
  | acquire spec =>
    refine ⟨_, fun id e he => executor?_acquire hr he spec, tasks_acquire _ spec, ?_⟩
    rw [heq]
    exact .refl _
  | release x => exact hsame (by rw [heq]; exact (Winds.releaseLease hr x).trans (.queued (.wake _)))
  | ask addressee block => exact absurd rfl (hask addressee block)
  | subscribe spec executes react =>
    refine ⟨_, fun id e he => executor?_acquire hr he spec, tasks_acquire _ spec, ?_⟩
    rw [heq]
    exact .subscribe l.manager spec executes react
  | favour u => exact hsame (by rw [heq]; exact .queued (.favour l.manager u))
  | abort u => exact hsame (by rw [heq]; exact .abort hr u)
  | unsubscribe u => exact hsame (by rw [heq]; exact .unsubscribe _ u)
  | answer u reply => exact hsame (by rw [heq]; exact (Winds.answer l.manager u reply).1)
  | answerNow u reply => exact hsame (by rw [heq]; exact (Winds.answer l.manager u reply).2)
  | poll =>
    cases hq : l.manager.queue with
    | nil =>
      refine hsame ?_
      rw [heq, show l.manager.step .poll = _ from poll_nil hq]
      exact .refl _
    | cons u rest =>
      rw [heq, show l.manager.step .poll = _ from poll_eq hq]
      rcases Winds.runTask_cases (m := l.manager.taken) hr u (fun x hx => h.orderly.mild u x hx) with
        hw | ⟨c, spec, -, -, -, hw⟩
      · exact ⟨l.manager.taken, fun _ _ he => he, rfl, hw.trans (.queued (.wake _))⟩
      · exact ⟨_, fun _ _ he => executor?_acquire (m := l.manager.taken) hr he spec,
          tasks_acquire _ spec, hw.trans (.queued (.wake _))⟩

/-- Nobody uses the key, but for executions that have not begun. -/
structure Lending.Unused (l : Lending) (key : QueryKey) : Prop where
  users : l.manager.registry.users key = 0
  calls : l.manager.pendingCalls key = l.manager.arrivals key
  subscriptions : l.manager.openSubscriptions key = 0
  held : l.heldOn key = 0

theorem Lending.Proper.unused (h : l.Proper) (hnone : l.manager.registry.entry? key = none) : l.Unused key := by
  have hbalance := h.balance key
  have husers : l.manager.registry.users key = 0 := by
    unfold Registry.users
    rw [hnone]
    rfl
  have hle : l.manager.arrivals key ≤ l.manager.pendingCalls key := by
    refine List.countP_mono_left fun x _ hx => ?_
    cases x with
    | caller c =>
      simp only [Task.isArrivalOn, Task.isCallOn, Caller.isArriving, Caller.isPending] at hx ⊢
      cases hst : c.stage <;> simp_all
    | _ => simp [Task.isArrivalOn] at hx
  exact ⟨husers, by omega, by omega, by omega⟩

/-! ## Nobody is about to use the key again -/

/-- A live query of the key is open, or the key is not in use; no caller is about to arrive. -/
structure Unclaimed (m : QueryManager) (key : QueryKey) (id : InstanceId) : Prop where
  executor : ∃ e, m.executor? id = some e ∧ e.key = key ∧
    (e.closed = false ∨ m.registry.entry? key = none)
  arrivals : ∀ (u : TaskId) (x : Task), m.tasks[u]? = some x → x.isArrivalOn key = false

namespace Unclaimed

theorem winds (h : Unclaimed m key id) (hw : Winds m m') : Unclaimed m' key id := by
  obtain ⟨e, he, hk, hopen⟩ := h.executor
  obtain ⟨e', he', hk', hclosed⟩ := hw.executors id e he
  rw [hk] at hclosed
  refine ⟨⟨e', he', hk'.trans hk, ?_⟩, fun u x hx => ?_⟩
  · rcases hclosed with hclosed | hnone
    · exact hopen.imp hclosed.trans (hw.unused key)
    · exact .inr hnone
  · cases harr : x.isArrivalOn key with
    | false => rfl
    | true =>
      have hno := h.arrivals u x (hw.arrivals u x key hx harr)
      rw [harr] at hno
      exact hno

/-- A lease is taken on another key. -/
theorem acquire (h : Unclaimed m key id) (hr : Registered m) (hk : spec.key ≠ key) :
    Unclaimed (m.acquire spec).1 key id := by
  obtain ⟨e, he, hek, hopen⟩ := h.executor
  refine ⟨⟨e, executor?_acquire hr he spec, hek, hopen.imp_right fun hnone => ?_⟩, ?_⟩
  · rcases acquire_cases hr spec with ⟨cnt, f, hcnt, -, -, hacq⟩ | ⟨hnew, hacq⟩
    · rw [hacq]
      exact (Registry.entry?_setEntry hcnt _ key).trans ((if_neg hk.symm).trans hnone)
    · have hreg : (m.acquire spec).1.registry = (m.registry.acquire spec.key m.lives.length).1 := by
        rw [hacq]
        rfl
      rw [hreg]
      unfold Registry.acquire
      rw [hnew]
      exact (Registry.entry?_append hnew _ key).trans ((if_neg hk.symm).trans hnone)
  · rw [tasks_acquire]
    exact h.arrivals

/-- **A task runs,** and nobody takes a lease on the key. -/
theorem poll (hl : l.Proper) (h : Unclaimed l.manager key id) : Unclaimed (l.next .poll).manager key id := by
  have hr := hl.coherent.registered
  show Unclaimed l.manager.poll key id
  cases hq : l.manager.queue with
  | nil =>
    rw [poll_nil hq]
    exact h
  | cons u rest =>
    rw [poll_eq hq]
    have htaken : Unclaimed l.manager.taken key id := ⟨h.executor, h.arrivals⟩
    rcases Winds.runTask_cases (m := l.manager.taken) hr u (fun x hx => hl.orderly.mild u x hx) with
      hw | ⟨c, spec, htask, hst, haddr, hw⟩
    · exact htaken.winds (hw.trans (.queued (.wake _)))
    · -- the caller that arrives is interested in another key
      have hk : spec.key ≠ key := by
        intro hk
        have hno := h.arrivals u _ htask
        simp [Task.isArrivalOn, Caller.isArriving, Caller.key?, hst, haddr, hk] at hno
      exact (htaken.acquire (m := l.manager.taken) hr hk).winds (hw.trans (.queued (.wake _)))

/-- **Tasks run in any order,** and nobody takes a lease on the key. -/
theorem turns {es : List ManagerEvent} (hes : ∀ ev ∈ es, ev.IsTurn) : ∀ {l : Lending}, l.Proper →
    Unclaimed l.manager key id → Unclaimed (l.after es).manager key id := by
  induction es with
  | nil => exact fun _ h => h
  | cons ev es ih =>
    intro l hl h
    obtain ⟨hev, hrest⟩ := List.forall_mem_cons.1 hes
    cases ev with
    | poll => exact ih hrest (hl.next rfl) (h.poll hl)
    | favour t =>
      refine ih hrest (hl.next rfl) ?_
      show Unclaimed (l.manager.favour t) key id
      rw [favour_frame]
      exact ⟨h.executor, h.arrivals⟩
    | _ => exact hev.elim

/-- **A caller arrives** for a live query that is open. -/
theorem arrive (hl : l.Proper) (hq : l.manager.queue = []) (he : l.manager.executor? id = some e)
    (hopen : e.closed = false) {addressee : Addressee} {block : Block} (hblock : block.closes = false) :
    Unclaimed ((l.next (.ask addressee block)).next .poll).manager e.key id := by
  have hnone : ∀ (u : TaskId) (x : Task), l.manager.tasks[u]? = some x → x.isArrivalOn e.key = false :=
    fun u x hx => hl.begun hq e.key hx
  have hproper : (l.next (.ask addressee block)).Proper := hl.next hblock
  have htasks : ∀ u, (l.next (.ask addressee block)).manager.tasks[u]? =
      if u = l.manager.tasks.length then some (.caller { addressee, block }) else l.manager.tasks[u]? :=
    getElem?_spawn l.manager _
  cases harr : Task.isArrivalOn e.key (.caller { addressee, block }) with
  | false =>
    refine Unclaimed.poll hproper ⟨⟨e, he, rfl, .inl hopen⟩, fun u x hx => ?_⟩
    rw [htasks] at hx
    split at hx
    · rw [← Option.some.inj hx]
      exact harr
    · exact hnone u x hx
  | true =>
    -- the caller is the only one that can go on, and takes a lease on the open live query
    obtain ⟨spec, rfl⟩ : ∃ spec, addressee = .leased spec := by
      cases addressee with
      | direct i => simp [Task.isArrivalOn, Caller.key?] at harr
      | leased spec => exact ⟨spec, rfl⟩
    have hr := hproper.coherent.registered
    have hself : (l.next (.ask (.leased spec) block)).manager.taken.tasks[l.manager.tasks.length]? =
        some (.caller { addressee := .leased spec, block }) := (htasks _).trans (if_pos rfl)
    have hqueue : (l.next (.ask (.leased spec) block)).manager.queue = [l.manager.tasks.length] := by
      show l.manager.queue ++ [_] = _
      rw [hq]
      rfl
    have hw := Winds.arrive (m := (l.next (.ask (.leased spec) block)).manager.taken) hr hself rfl rfl hblock
    have hbegun := QueryManager.Begun.runTask (m := (l.next (.ask (.leased spec) block)).manager.taken)
      hr hself rfl rfl hblock
    have hpoll : ((l.next (.ask (.leased spec) block)).next .poll).manager =
        ((l.next (.ask (.leased spec) block)).manager.taken.runTask l.manager.tasks.length).wake :=
      poll_eq hqueue
    obtain ⟨e', he', hk, hclosed⟩ := hw.executors id e
      (executor?_acquire (m := (l.next (.ask (.leased spec) block)).manager.taken) hr he spec)
    rw [hpoll]
    refine Unclaimed.winds ⟨⟨e', he', hk, hclosed.imp_left (Eq.trans · hopen)⟩, fun u x hx => ?_⟩
      (.queued (.wake _))
    by_cases hu : u = l.manager.tasks.length
    · subst hu
      exact hbegun x e.key hx
    · cases hx' : x.isArrivalOn e.key with
      | false => rfl
      | true =>
        have hbefore := hw.arrivals u x e.key hx hx'
        rw [tasks_acquire] at hbefore
        rw [← hx']
        exact hnone u x (((htasks u).trans (if_neg hu)).symm.trans hbefore)

/-- A caller arrives, and others run, in any order, until nobody can go on. -/
theorem arrives (hl : l.Proper) (hq : l.manager.queue = []) (he : l.manager.executor? id = some e)
    (hopen : e.closed = false) {addressee : Addressee} {block : Block} (hblock : block.closes = false)
    {es : List ManagerEvent} (hes : ∀ ev ∈ es, ev.IsTurn)
    (hq' : ((l.next (.ask addressee block)).after es).manager.queue = []) :
    Unclaimed ((l.next (.ask addressee block)).after es).manager e.key id := by
  have hproper : (l.next (.ask addressee block)).Proper := hl.next hblock
  have hqueue : (l.next (.ask addressee block)).manager.queue = [l.manager.tasks.length] := by
    show l.manager.queue ++ [_] = _
    rw [hq]
    rfl
  induction es with
  | nil =>
    have hnew : (l.next (.ask addressee block)).manager.queue = [] := hq'
    rw [hqueue] at hnew
    simp at hnew
  | cons ev es ih =>
    obtain ⟨hev, hrest⟩ := List.forall_mem_cons.1 hes
    cases ev with
    | poll =>
      have hpolled : ((l.next (.ask addressee block)).next .poll).Proper := hproper.next rfl
      exact .turns hrest hpolled (.arrive hl hq he hopen hblock)
    | favour t =>
      -- nobody but the caller can go on
      have hsame : (l.next (.ask addressee block)).next (.favour t) = l.next (.ask addressee block) := by
        show ({ l.next (.ask addressee block) with
          manager := (l.next (.ask addressee block)).manager.favour t } : Lending) = _
        rw [favour_of_singleton hqueue]
      rw [Lending.after, List.foldl_cons, hsame] at hq' ⊢
      exact ih hrest hq'
    | _ => exact hev.elim

end Unclaimed

/-! ## The law -/

/-- **No lease is leaked, and none is given up early.** -/
structure HoldersLaw (l : Lending) : Prop where
  /-- Once nothing can go on, a key has as many users as there are pending executions, subscriptions
  that have not ended, and leases that users hold. -/
  count : l.manager.queue = [] → ∀ key, l.manager.registry.users key =
    l.manager.pendingCalls key + l.manager.openSubscriptions key + l.heldOn key
  /-- No key is in use when all of them are gone. -/
  empty : l.manager.queue = [] → (∀ key, l.manager.pendingCalls key = 0 ∧
    l.manager.openSubscriptions key = 0 ∧ l.heldOn key = 0) → l.manager.registry.size = 0
  /-- A live query that is used is open, unless the manager was cancelled. -/
  kept : l.manager.cancelled = false → ∀ spec id, l.Uses spec id →
    ∃ e, l.manager.executor? id = some e ∧ e.key = spec.key ∧ e.closed = false
  /-- When a live query is closed, nobody uses its key any more, unless the manager is cancelled. -/
  closed : ∀ ev, ev.closes = false → ∀ id e e', l.manager.executor? id = some e →
    (l.next ev).manager.executor? id = some e' → e.closed = false → e'.closed = true →
    ev = .cancel ∨ (l.next ev).Unused e.key
  /-- From a state in which nothing can go on to the next one, in whatever order tasks run, a live query is
  closed only if nobody is left who uses its key, unless the manager is cancelled. -/
  settled : l.manager.queue = [] → ∀ ev turns, ev.closes = false → ev ≠ .cancel →
    (∀ turn ∈ turns, ManagerEvent.IsTurn turn) → ((l.next ev).after turns).manager.queue = [] →
    ∀ id e e', l.manager.executor? id = some e → ((l.next ev).after turns).manager.executor? id = some e' →
    e.closed = false → e'.closed = true →
    ((l.next ev).after turns).manager.pendingCalls e.key = 0 ∧
    ((l.next ev).after turns).manager.openSubscriptions e.key = 0 ∧
    ((l.next ev).after turns).heldOn e.key = 0

namespace Lending.Proper

theorem count (h : l.Proper) (hq : l.manager.queue = []) (key : QueryKey) : l.manager.registry.users key =
    l.manager.pendingCalls key + l.manager.openSubscriptions key + l.heldOn key := by
  rw [← h.balance key, h.arrivals_eq_zero hq key, Nat.add_zero]

theorem empty (h : l.Proper) (hnone : ∀ key, l.manager.registry.users key = 0) :
    l.manager.registry.size = 0 := by
  have hleases : l.manager.taskLeases ++ l.held = [] := by
    refine List.eq_nil_iff_forall_not_mem.2 fun x hx => ?_
    have hpos : 0 < (l.manager.taskLeases ++ l.held).countP fun y => y.key = x.key :=
      List.countP_pos_iff.2 ⟨x, hx, by simp⟩
    rw [← h.orderly.leases.books.users, hnone] at hpos
    simp at hpos
  rw [h.orderly.leases.books.size, hleases]
  rfl

/-- A live query that is used is open. -/
theorem kept (h : l.Proper) (hcancel : l.manager.cancelled = false) (huses : l.Uses spec id) :
    ∃ e, l.manager.executor? id = some e ∧ e.key = spec.key ∧ e.closed = false := by
  have hsound : l.Sound := ⟨h.ok, h.coherent, h.orderly.leases.books⟩
  obtain ⟨x, hx, hxk, rfl⟩ := hsound.uses_lease huses
  obtain ⟨q, hq, hk⟩ := h.orderly.leases.lives x hx
  have hopen : q.closed = false := by
    cases hc : q.closed with
    | false => rfl
    | true => exact absurd rfl ((h.orderly.leases.marked _ q hq).1 hc x hx)
  refine ⟨q.executor, QueryManager.executor?_eq_some.2 ⟨q, hq, rfl⟩, hk.trans hxk, ?_⟩
  rw [h.orderly.leases.closed _ q hq, hopen, hcancel]
  rfl

theorem closed (h : l.Proper) (hev : ev.closes = false) (he : l.manager.executor? id = some e)
    (he' : (l.next ev).manager.executor? id = some e') (hopen : e.closed = false)
    (hclosed : e'.closed = true) : ev = .cancel ∨ (l.next ev).Unused e.key := by
  by_cases hne : ev = .cancel
  · exact .inl hne
  by_cases hask : ∃ addressee block, ev = .ask addressee block
  · -- a new caller leaves the executors as they are
    obtain ⟨addressee, block, rfl⟩ := hask
    obtain rfl := Option.some.inj (he.symm.trans he')
    rw [hopen] at hclosed
    simp at hclosed
  obtain ⟨m₁, hkeep, -, hw⟩ := h.winds hev hne fun addressee block heq => hask ⟨addressee, block, heq⟩
  obtain ⟨f, hf, -, hshut⟩ := hw.executors id e (hkeep id e he)
  obtain rfl := Option.some.inj (he'.symm.trans hf)
  rcases hshut with hsame | hnone
  · rw [hclosed, hopen] at hsame
    simp at hsame
  · exact .inr ((h.next hev).unused hnone)

theorem settled (h : l.Proper) (hq : l.manager.queue = []) {turns : List ManagerEvent}
    (hev : ev.closes = false) (hne : ev ≠ .cancel) (hturns : ∀ turn ∈ turns, turn.IsTurn)
    (hq' : ((l.next ev).after turns).manager.queue = []) (he : l.manager.executor? id = some e)
    (he' : ((l.next ev).after turns).manager.executor? id = some e')
    (hopen : e.closed = false) (hclosed : e'.closed = true) :
    ((l.next ev).after turns).manager.pendingCalls e.key = 0 ∧
    ((l.next ev).after turns).manager.openSubscriptions e.key = 0 ∧
    ((l.next ev).after turns).heldOn e.key = 0 := by
  have hcloses : ∀ turn ∈ turns, turn.closes = false := by
    intro turn hturn
    have hrun := hturns turn hturn
    cases turn with
    | poll | favour => rfl
    | _ => exact hrun.elim
  have hproper : ((l.next ev).after turns).Proper := (h.next hev).after _ hcloses
  have hunclaimed : Unclaimed ((l.next ev).after turns).manager e.key id := by
    by_cases hask : ∃ addressee block, ev = .ask addressee block
    · obtain ⟨addressee, block, rfl⟩ := hask
      exact .arrives h hq he hopen hev hturns hq'
    · obtain ⟨m₁, hkeep, htasks, hw⟩ := h.winds hev hne fun addressee block heq => hask ⟨addressee, block, heq⟩
      refine .turns hturns (h.next hev)
        (Unclaimed.winds ⟨⟨e, hkeep id e he, rfl, .inl hopen⟩, fun u x hx => ?_⟩ hw)
      rw [htasks] at hx
      exact h.begun hq e.key hx
  obtain ⟨f, hf, -, hend⟩ := hunclaimed.executor
  obtain rfl := Option.some.inj (he'.symm.trans hf)
  have hunused := hproper.unused (hend.resolve_left (by simp [hclosed]))
  exact ⟨hunused.calls.trans (hproper.arrivals_eq_zero hq' e.key), hunused.subscriptions, hunused.held⟩

end Lending.Proper

/-- **In every run in which nobody closes live queries, no lease is leaked, and none is given up
early.** -/
theorem holders_law (es : List ManagerEvent) (hes : ∀ ev ∈ es, ev.closes = false) :
    HoldersLaw (({} : Lending).after es) := by
  have h := Lending.Proper.init.after es hes
  refine ⟨h.count, fun hq hgone => h.empty fun key => ?_, fun hc spec id => h.kept hc,
    fun ev hev id e e' => h.closed hev,
    fun hq ev turns hev hne hturns hq' id e e' => h.settled hq hev hne hturns hq'⟩
  obtain ⟨hcalls, hsubscriptions, hheld⟩ := hgone key
  rw [h.count hq, hcalls, hsubscriptions, hheld]

/-- A user, an execution and a subscription that asks for a result are interested in one query. -/
def matinee : List ManagerEvent :=
  let spec : QuerySpec := ⟨"GetMovie", [("id", .int 1)]⟩
  [.acquire spec, .ask (.leased spec) {}, .subscribe spec true fun _ => {}, .poll, .poll, .poll, .poll]

theorem holders_law_matinee : (∀ ev ∈ matinee, ev.closes = false) ∧
    ((({} : Lending).after matinee).manager.queue = [] ∧
      (({} : Lending).after matinee).manager.registry.users (QuerySpec.key ⟨"GetMovie", [("id", .int 1)]⟩) = 3) ∧
    HoldersLaw (({} : Lending).after matinee) :=
  ⟨by decide, by decide +kernel, holders_law matinee (by decide)⟩

end QueryClient
