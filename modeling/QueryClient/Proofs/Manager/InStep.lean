import QueryClient.Proofs.Manager.Concerns
import QueryClient.Proofs.Manager.Mirror
import QueryClient.Proofs.Manager.Orderly

/-!
# Managers that stay in step

One manager goes through a run, another through what is left of it without the events of one key. They
stay in step: what both go through does the same in both, and what only the first goes through changes
nothing of what they have in common.

* `Renaming.Alike`: events that are the same under other names.
* `Mirrors.wake`: the same tasks are queued, in the same order.
* `Mirrors.spares`: what concerns the key leaves them in step.
* `Agrees`: managers in step, with the leases that users hold.
* `Agrees.next`, `Agrees.skip`: **they stay in step,** whether both go through an event or only one does.
-/

namespace QueryClient

/-- Once all that can go on are queued, there is nothing to do. -/
theorem Awake.wake_eq {m : QueryManager} (h : Awake m) : m.wake = m := by
  have hnothing : ∀ us : List TaskId, us.foldl QueryManager.wakeTask m = m := by
    intro us
    induction us with
    | nil => rfl
    | cons u us ih =>
      have hwake : m.wakeTask u = m := by
        unfold QueryManager.wakeTask
        cases hx : m.tasks[u]? with
        | none => rfl
        | some x =>
          by_cases hr : m.isReady x
          · have hmem := h u x hx hr
            simp [hmem]
          · simp [hr]
      rw [List.foldl_cons, hwake]
      exact ih
  exact hnothing _

namespace Renaming

variable {g : Renaming} {keys : InstanceId → Option QueryKey} {key : QueryKey} {m' m m₁ M : QueryManager}
variable {t u : TaskId} {id : InstanceId} {e : Executor} {c : Caller} {x x' : Task} {s : Subscription}
variable {l' l : Lending} {ev' ev : ManagerEvent} {spec : QuerySpec}

/-- **Events that are the same under other names.** Handlers react to results under other names. -/
inductive Alike (g : Renaming) : ManagerEvent → ManagerEvent → Prop where
  | drawn (numbers requests : ℕ) : Alike g (.drawn numbers requests) (.drawn numbers requests)
  | poll : Alike g .poll .poll
  | favour (t : TaskId) : Alike g (.favour t) (.favour (g.task t))
  | acquire (spec : QuerySpec) : Alike g (.acquire spec) (.acquire spec)
  | release (x : Lease) : Alike g (.release x) (.release (g.lease x))
  | close (id : InstanceId) : Alike g (.close id) (.close (g.inst id))
  | closeExecutor (id : InstanceId) : Alike g (.closeExecutor id) (.closeExecutor (g.inst id))
  | ask (addressee : Addressee) (block : Block) :
      Alike g (.ask addressee block) (.ask (g.addressee addressee) block)
  | abort (t : TaskId) : Alike g (.abort t) (.abort (g.task t))
  | subscribe (spec : QuerySpec) (executes : Bool) (react : Delivery → Reaction) :
      Alike g (.subscribe spec executes fun d => react (g.delivery d)) (.subscribe spec executes react)
  | unsubscribe (t : TaskId) : Alike g (.unsubscribe t) (.unsubscribe (g.task t))
  | answer (t : TaskId) (reply : Reply) : Alike g (.answer t reply) (.answer (g.task t) reply)
  | answerNow (t : TaskId) (reply : Reply) : Alike g (.answerNow t reply) (.answerNow (g.task t) reply)
  | cancel : Alike g .cancel .cancel

/-! ## Which tasks can go on -/

/-- What is there up to a point, by the names that it had. -/
theorem filterMap_range (f : ℕ ↪o ℕ) {n' n : ℕ} (h : ∀ i, i < n' ↔ f i < n) :
    (List.range n).filterMap (Function.partialInv f) = List.range n' := by
  have hinv : ∀ i j, Function.partialInv f j = some i ↔ f i = j := Function.Injective.isPartialInv f.injective
  induction n generalizing n' with
  | zero =>
    have hzero : n' = 0 := Nat.eq_zero_of_not_pos fun hpos => Nat.not_lt_zero _ ((h 0).1 hpos)
    rw [hzero]
    rfl
  | succ n ih =>
    rw [List.range_succ, List.filterMap_append]
    cases hn : Function.partialInv f n with
    | none =>
      -- the last one had no name
      have hne : ∀ i, f i ≠ n := fun i heq => by
        have := (hinv i n).2 heq
        rw [hn] at this
        simp at this
      have hbelow : ∀ i, i < n' ↔ f i < n := fun i =>
        (h i).trans ⟨fun hlt => Nat.lt_of_le_of_ne (Nat.le_of_lt_succ hlt) (hne i), Nat.lt_succ_of_lt⟩
      rw [ih hbelow]
      simp [hn]
    | some i =>
      obtain rfl := (hinv i n).1 hn
      have hlast : n' = i + 1 := by
        have h₀ := (h i).2 (Nat.lt_succ_self _)
        have h₁ := mt (h (i + 1)).1 (Nat.not_lt.2 (f.lt_iff_lt.2 (Nat.lt_succ_self i)))
        omega
      rw [hlast, List.range_succ, ih fun _ => f.lt_iff_lt.symm]
      simp [hn]

namespace Mirrors

theorem of_queue (h : g.Mirrors keys key m' m) {queue' queue : List TaskId}
    (hq : queue.filterMap g.origin? = queue') :
    g.Mirrors keys key { m' with queue := queue' } { m with queue } :=
  ⟨h.cancelled, h.supply, h.lives, h.others, h.length, h.tasks, h.registry, hq, h.journal⟩

theorem isReady (h : g.Mirrors keys key m' m) (hx : g.TaskLike keys key x' x) :
    m.isReady x = m'.isReady x' := by
  cases hx with
  | attempt id n =>
    simp only [QueryManager.isReady, h.executor?]
    cases m'.executor? id with
    | none => rfl
    | some e => exact executor_attemptReady g e n
  | caller c haddr hlease =>
    simp only [QueryManager.isReady, show (g.caller c).stage = g.callerStage c.stage from rfl]
    cases c.stage with
    | waiting id n lease =>
      simp only [callerStage, h.executor?]
      cases m'.executor? id with
      | none => rfl
      | some e => exact executor_awaitReady g e n
    | _ => rfl
  | subscription s react hreact hkey =>
    simp only [QueryManager.isReady, show (g.subscription s react).stage = s.stage from rfl,
      show (g.subscription s react).cancelled = s.cancelled from rfl, ← h.cancelled,
      show (g.subscription s react).lease.id = g.inst s.lease.id from rfl, h.executor?,
      show (g.subscription s react).updates = g.updates s.updates from rfl]
    cases m'.executor? s.lease.id with
    | none => rfl
    | some e => simp only [Option.map_some, Option.any_some, updates_ready]

theorem contains_queue (h : g.Mirrors keys key m' m) (t : TaskId) :
    m.queue.contains (g.task t) = m'.queue.contains t := by
  rw [← h.queue, Bool.eq_iff_iff, List.contains_iff_mem, List.contains_iff_mem, List.mem_filterMap]
  constructor
  · exact fun hmem => ⟨_, hmem, origin?_task g t⟩
  · rintro ⟨u, hmem, hu⟩
    rw [origin?_eq_some.1 hu]
    exact hmem

theorem wakeTask (h : g.Mirrors keys key m' m) (t : TaskId) :
    g.Mirrors keys key (m'.wakeTask t) (m.wakeTask (g.task t)) := by
  have hready : (m.tasks[g.task t]?).any m.isReady = (m'.tasks[t]?).any m'.isReady := by
    cases hx' : m'.tasks[t]? with
    | none => rw [h.no_task hx']; rfl
    | some x' =>
      obtain ⟨x, hx, hlike⟩ := h.tasks t x' hx'
      rw [hx]
      exact h.isReady hlike
  unfold QueryManager.wakeTask
  rw [hready, h.contains_queue]
  split
  · refine h.of_queue ?_
    rw [List.filterMap_append, h.queue]
    simp
  · exact h

/-- A task that has no other name is queued. -/
theorem wakeTask_hidden (h : g.Mirrors keys key m' m) (hu : g.origin? u = none) :
    g.Mirrors keys key m' (m.wakeTask u) := by
  unfold QueryManager.wakeTask
  split
  · refine h.of_queue ?_
    rw [List.filterMap_append, h.queue]
    simp [hu]
  · exact h

/-- Tasks are queued one after the other; those without a name are passed over. -/
theorem foldl_wakeTask (us : List TaskId) : ∀ {m' m : QueryManager}, g.Mirrors keys key m' m →
    g.Mirrors keys key ((us.filterMap g.origin?).foldl QueryManager.wakeTask m')
      (us.foldl QueryManager.wakeTask m) := by
  induction us with
  | nil => exact fun h => h
  | cons u us ih =>
    intro m' m h
    cases hu : g.origin? u with
    | none =>
      rw [List.filterMap_cons_none hu]
      exact ih (h.wakeTask_hidden hu)
    | some t =>
      rw [List.filterMap_cons_some hu]
      obtain rfl := origin?_eq_some.1 hu
      exact ih (h.wakeTask t)

theorem ofRank (h : g.Mirrors keys key m' m) (r : ℕ) :
    (m.ofRank r).filterMap g.origin? = m'.ofRank r := by
  unfold QueryManager.ofRank
  rw [← filterMap_range g.task h.length, List.filterMap_filter, List.filter_filterMap]
  refine List.filterMap_congr fun u _ => ?_
  show (if _ then g.origin? u else none) = (g.origin? u).filter _
  cases hu : g.origin? u with
  | none => simp
  | some t =>
    obtain rfl := origin?_eq_some.1 hu
    have hrank : ((m.tasks[g.task t]?).any fun x => QueryManager.rank x == r) =
        (m'.tasks[t]?).any fun x => QueryManager.rank x == r := by
      cases hx' : m'.tasks[t]? with
      | none => rw [h.no_task hx']
      | some x' =>
        obtain ⟨x, hx, hlike⟩ := h.tasks t x' hx'
        rw [hx]
        cases hlike <;> rfl
    rw [hrank, Option.filter_some]

/-- **The same tasks are queued, in the same order.** -/
theorem wake (h : g.Mirrors keys key m' m) : g.Mirrors keys key m'.wake m.wake := by
  have hwoken := h.foldl_wakeTask (m.ofRank 0 ++ m.ofRank 1 ++ m.ofRank 2)
  rw [List.filterMap_append, List.filterMap_append, h.ofRank, h.ofRank, h.ofRank] at hwoken
  exact hwoken

/-! ## What concerns the key -/

/-- A task that both have concerns another key. -/
theorem other (h : g.Mirrors keys key m' m) (hc : Coherent m') (ht : t < m'.tasks.length) :
    ∃ x, m.tasks[g.task t]? = some x ∧ m.concernsOther keys key x ∧ g.TaskLike keys key m'.tasks[t] x := by
  obtain ⟨x, hx, hlike⟩ := h.tasks t _ (List.getElem?_eq_getElem ht)
  refine ⟨x, hx, ?_, hlike⟩
  have hok := hc.tasks t _ (List.getElem?_eq_getElem ht)
  generalize m'.tasks[t] = x' at hlike hok
  cases hlike with
  | attempt id n =>
    obtain ⟨e, he, -⟩ := hok
    obtain ⟨q, hq, -⟩ := QueryManager.executor?_eq_some.1 he
    have hother : (g.live q).key ≠ key := h.others id q hq
    rw [QueryManager.concernsOther_attempt]
    unfold QueryManager.otherLive?
    rw [h.lives, hq]
    simp [hother]
  | caller c haddr hlease => exact decide_eq_true haddr
  | subscription s react hreact hkey => exact decide_eq_true hkey

/-- No task that both have is one of the key. -/
theorem not_owns (h : g.Mirrors keys key m' m) (hc : Coherent m') (t : TaskId) :
    ¬ m.Owns keys key (g.task t) := by
  rintro ⟨hlt, hnone⟩
  obtain ⟨x, hx, hother, -⟩ := h.other hc ((h.length t).2 hlt)
  unfold QueryManager.otherTask? at hnone
  rw [hx, Option.filter_some, if_pos hother] at hnone
  simp at hnone

end Mirrors

/-- What is new in the second manager has no other name. -/
structure Avoids (g : Renaming) (m m₁ : QueryManager) : Prop where
  number : ∀ k, m.supply.number < g.number k → ¬ g.number k ≤ m₁.supply.number
  request : ∀ k, m.supply.request < g.request k → ¬ g.request k ≤ m₁.supply.request
  inst : ∀ i, m.lives.length ≤ g.inst i → ¬ g.inst i < m₁.lives.length
  task : ∀ t, m.tasks.length ≤ g.task t → ¬ g.task t < m₁.tasks.length

namespace Mirrors

theorem filterMap_filter_origin? (queue : List TaskId) :
    (queue.filter fun u => (g.origin? u).isSome).filterMap g.origin? = queue.filterMap g.origin? := by
  rw [List.filterMap_filter]
  refine List.filterMap_congr fun u _ => ?_
  cases g.origin? u <;> rfl

/-- **What concerns the key** changes nothing of what they have in common. -/
theorem spares (h : g.Mirrors keys key m' m) (hc : Coherent m') (hs : Spares keys key m m₁)
    (hnew : g.Avoids m m₁) : g.Mirrors keys key m' m₁ := by
  have htasks : ∀ t, t < m'.tasks.length → m₁.tasks[g.task t]? = m.tasks[g.task t]? := by
    intro t ht
    obtain ⟨x, hx, hother, -⟩ := h.other hc ht
    have hkept := congrFun hs.tasks (g.task t)
    unfold QueryManager.otherTask? at hkept
    rw [hx, Option.filter_some, if_pos hother] at hkept
    rw [hx]
    exact (Option.filter_eq_some_iff.1 hkept).1
  have hlength : ∀ t, t < m'.tasks.length ↔ g.task t < m₁.tasks.length := by
    intro t
    refine (h.length t).trans ⟨fun hlt => hlt.trans_le hs.grows.tasks, fun hlt => ?_⟩
    exact Nat.lt_of_not_le fun hge => hnew.task t hge hlt
  -- none of the common tasks is one of the key, so that neither the queue nor what is noted of them changes
  have hown : ∀ u, m₁.Owns keys key u → (g.origin? u).isSome = false := by
    rintro u ⟨hlt, hnone⟩
    cases hu : g.origin? u with
    | none => rfl
    | some t =>
      obtain rfl := origin?_eq_some.1 hu
      have ht := (hlength t).2 hlt
      exact absurd ⟨(h.length t).1 ht, by rw [← hs.tasks]; exact hnone⟩ (h.not_owns hc t)
  refine ⟨h.cancelled.trans hs.cancelled.symm, ⟨fun k => ?_, fun k => ?_⟩, fun i => ?_, h.others, hlength,
    fun t x' hx' => ?_, fun k hk => (hs.registry k hk).trans (h.registry k hk), ?_, ?_⟩
  · refine (h.supply.number k).trans ⟨fun hle => hle.trans hs.grows.number, fun hle => ?_⟩
    exact le_of_not_gt fun hgt => hnew.number k hgt hle
  · refine (h.supply.request k).trans ⟨fun hle => hle.trans hs.grows.request, fun hle => ?_⟩
    exact le_of_not_gt fun hgt => hnew.request k hgt hle
  · cases hq : m'.lives[i]? with
    | none =>
      have hi : m.lives.length ≤ g.inst i := by
        have hnot := mt (h.lives_length i).2 (Nat.not_lt.2 (List.getElem?_eq_none_iff.1 hq))
        exact Nat.not_lt.1 hnot
      exact List.getElem?_eq_none_iff.2 (Nat.not_lt.1 (hnew.inst i hi))
    | some q =>
      have hother : (g.live q).key ≠ key := h.others i q hq
      have hkept := congrFun hs.lives (g.inst i)
      unfold QueryManager.otherLive? at hkept
      rw [h.lives, hq, Option.map_some, Option.filter_some, if_pos (by simpa using hother)] at hkept
      exact (Option.filter_eq_some_iff.1 hkept).1
  · rw [htasks t (lt_of_task hx')]
    exact h.tasks t x' hx'
  · rw [← filterMap_filter_origin?, hs.queue _ hown, filterMap_filter_origin?]
    exact h.queue
  · exact (hs.journal _ hown).trans h.journal

end Mirrors

/-! ## Events -/

namespace Level

variable {s' s : Supply}

/-- Others draw numbers and requests. -/
theorem drawn (h : g.Level s' s) {numbers requests : ℕ}
    (hnames : g.Names s ⟨s.number + numbers, s.request + requests⟩) :
    g.Level ⟨s'.number + numbers, s'.request + requests⟩ ⟨s.number + numbers, s.request + requests⟩ := by
  -- one after the other, so that each is the next one when it is drawn
  have hnumbers : ∀ n ≤ numbers, ∀ k, k ≤ s'.number + n ↔ g.number k ≤ s.number + n := by
    intro n
    induction n with
    | zero => simpa using h.number
    | succ n ih =>
      intro hn
      have hlevel : g.Level ⟨s'.number + n, s'.request⟩ ⟨s.number + n, s.request⟩ :=
        ⟨ih (Nat.le_of_succ_le hn), h.request⟩
      have hname := hnames.number (s.number + n + 1) (by omega) (by show _ ≤ s.number + _; omega)
      intro k
      rw [Int.natCast_succ, ← Int.add_assoc, ← Int.add_assoc]
      exact (hlevel.next_number hname).2 k
  have hrequests : ∀ n ≤ requests, ∀ k, k ≤ s'.request + n ↔ g.request k ≤ s.request + n := by
    intro n
    induction n with
    | zero => simpa using h.request
    | succ n ih =>
      intro hn
      have hlevel : g.Level ⟨s'.number, s'.request + n⟩ ⟨s.number, s.request + n⟩ :=
        ⟨h.number, ih (Nat.le_of_succ_le hn)⟩
      have hname := hnames.request (s.request + n + 1) (by omega) (by show _ ≤ s.request + _; omega)
      exact (hlevel.next_request hname).2
  exact ⟨hnumbers numbers le_rfl, hrequests requests le_rfl⟩

end Level

namespace Mirrors

theorem closeExecutor (h : g.Mirrors keys key m' m) (id : InstanceId) :
    g.Mirrors keys key (m'.closeExecutor id) (m.closeExecutor (g.inst id)) :=
  wake (h.of_modify id (fun _ => rfl) fun _ hq => hq)

/-- Both managers are cancelled. -/
theorem cancel (h : g.Mirrors keys key m' m) : g.Mirrors keys key m'.cancel m.cancel := by
  have hclosed : g.Mirrors keys key
      { m' with cancelled := true, lives := m'.lives.map fun q => { q with executor := q.executor.close } }
      { m with cancelled := true, lives := m.lives.map fun q => { q with executor := q.executor.close } } := by
    refine ⟨rfl, h.supply, fun i => ?_, fun i q hq => ?_, h.length, h.tasks, h.registry, h.queue, h.journal⟩
    · rw [List.getElem?_map, List.getElem?_map, h.lives]
      cases m'.lives[i]? <;> rfl
    · rw [List.getElem?_map] at hq
      obtain ⟨p, hp, rfl⟩ := Option.map_eq_some_iff.1 hq
      exact h.others i p hp
  have hnames : (List.range m.tasks.length).filterMap g.origin? = List.range m'.tasks.length :=
    filterMap_range g.task h.length
  have hwoken := hclosed.foldl_wakeTask (List.range m.tasks.length).reverse
  rw [List.filterMap_reverse, hnames] at hwoken
  exact hwoken

theorem ask (h : g.Mirrors keys key m' m) {addressee : Addressee} {block : Block}
    (haddr : (g.addressee addressee).key? keys ≠ some key)
    (hnew : g.Covers m (m.ask (g.addressee addressee) block).1) :
    g.Mirrors keys key (m'.ask addressee block).1 (m.ask (g.addressee addressee) block).1 :=
  h.spawn (.caller { addressee, block } haddr (by simp [Caller.lease?])) hnew.spawn

/-- A caller loses interest. -/
theorem abort (h : g.Mirrors keys key m' m) (t : TaskId) :
    g.Mirrors keys key (m'.abort t) (m.abort (g.task t)) := by
  unfold QueryManager.abort
  cases hx' : m'.tasks[t]? with
  | none =>
    rw [h.no_task hx']
    exact h
  | some x' =>
    obtain ⟨x, hx, hlike⟩ := h.tasks t x' hx'
    rw [hx]
    cases hlike with
    | attempt id n => exact h
    | subscription s react hreact hkey => exact h
    | caller c haddr hlease =>
      simp only [show (g.caller c).stage = g.callerStage c.stage from rfl]
      cases hst : c.stage with
      | arriving => exact h.endCaller t haddr .dropped
      | ended ending => exact h
      | waiting id n lease =>
        have hlease' : ∀ y ∈ lease, y.key ≠ key := by simpa only [Caller.lease?, hst] using hlease
        obtain ⟨hreleased, hfault⟩ := h.releaseLease? hlease'
        simp only [callerStage, hfault]
        have hend := (hreleased.endCaller t haddr ((m'.releaseLease? lease).2.elim .dropped .panicked)).wake
        cases hf : (m'.releaseLease? lease).2 <;> rw [hf] at hend <;> exact hend

/-- The handle of a subscription is given up. -/
theorem unsubscribe (h : g.Mirrors keys key m' m) (t : TaskId) :
    g.Mirrors keys key (m'.unsubscribe t) (m.unsubscribe (g.task t)) := by
  unfold QueryManager.unsubscribe
  cases hx' : m'.tasks[t]? with
  | none =>
    rw [h.no_task hx']
    exact h
  | some x' =>
    obtain ⟨x, hx, hlike⟩ := h.tasks t x' hx'
    rw [hx]
    cases hlike with
    | attempt id n => exact h
    | caller c haddr hlease => exact h
    | subscription s react hreact hkey =>
      exact (h.setTask t (.subscription { s with cancelled := true } react hreact hkey)).wake

/-- The backend answers, and what it answers is put in. -/
theorem answered (h : g.Mirrors keys key m' m) (t : TaskId) {f : Int → Executor → Executor}
    (hf : ∀ n e, f (g.number n) (g.executor e) = g.executor (f n e)) (hkey : ∀ n e, (f n e).key = e.key) :
    g.Mirrors keys key
      (match m'.tasks[t]? with
        | some (.attempt id n) =>
          match m'.executor? id with
          | some e => (m'.setExecutor id (f n e)).wake
          | none => m'
        | _ => m')
      (match m.tasks[g.task t]? with
        | some (.attempt id n) =>
          match m.executor? id with
          | some e => (m.setExecutor id (f n e)).wake
          | none => m
        | _ => m) := by
  cases hx' : m'.tasks[t]? with
  | none =>
    rw [h.no_task hx']
    exact h
  | some x' =>
    obtain ⟨x, hx, hlike⟩ := h.tasks t x' hx'
    rw [hx]
    cases hlike with
    | caller c haddr hlease => exact h
    | subscription s react hreact hkey => exact h
    | attempt id n =>
      simp only [h.executor?]
      cases he : m'.executor? id with
      | none => exact h
      | some e =>
        simp only [Option.map_some, hf]
        refine (h.setExecutor id ?_).wake
        rw [hkey]
        exact h.key_ne he

theorem answer (h : g.Mirrors keys key m' m) (t : TaskId) (reply : Reply) :
    g.Mirrors keys key (m'.answer t reply) (m.answer (g.task t) reply) :=
  h.answered t (f := fun n e => e.answer n reply) (fun n e => executor_answer g e n reply)
    fun n e => (Executor.Keeps.answer e n reply).1

theorem answerNow (h : g.Mirrors keys key m' m) (t : TaskId) (reply : Reply) :
    g.Mirrors keys key (m'.answerNow t reply) (m.answerNow (g.task t) reply) := by
  refine h.answered t (f := fun n e => (e.answer n reply).resume n) (fun n e => ?_) fun n e => ?_
  · rw [executor_answer, executor_resume]
  · exact ((Executor.Keeps.answer e n reply).trans (.resume _ n)).1

/-- A new subscription in both. -/
theorem subscribe (h : g.Mirrors keys key m' m) (hr' : Registered m') (hr : Registered m)
    (hkey : spec.key ≠ key) {executes : Bool} {react : Delivery → Reaction}
    (hkeys : keys (m.acquire spec).2.id ≠ some key)
    (hnew : g.Covers m (m.subscribe spec executes react).1) :
    g.Mirrors keys key (m'.subscribe spec executes fun d => react (g.delivery d)).1
      (m.subscribe spec executes react).1 := by
  have hkey' : (m'.acquire spec).2.key ≠ key := hkey
  obtain ⟨-, e', he', -⟩ := hr'.acquire spec
  have hgrown : Grows (m.acquire spec).1 (m.subscribe spec executes react).1 := by
    unfold QueryManager.subscribe
    simp only
    split
    · exact .refl _
    · refine Grows.trans ?_ (.spawn _ _)
      split
      · exact .spawn _ _
      · exact .refl _
  obtain ⟨hacquired, hlease⟩ := h.acquire hr' hr hkey (hnew.left hgrown)
  have he : (m.acquire spec).1.executor? (m.acquire spec).2.id = some (g.executor e') := by
    rw [hlease]
    exact (hacquired.executor? _).trans (by rw [he']; rfl)
  have hrest := hnew.right (.acquire m spec)
  unfold QueryManager.subscribe at hrest ⊢
  simp only [he, he', updates_open] at hrest ⊢
  rw [hlease] at hkeys hrest ⊢
  have hsubscription : g.TaskLike keys key
      (.subscription ⟨(m'.acquire spec).2, .open e', fun d => react (g.delivery d), false, .running⟩)
      (.subscription ⟨g.lease (m'.acquire spec).2, g.updates (.open e'), react, false, .running⟩) :=
    .subscription ⟨_, .open e', fun d => react (g.delivery d), false, .running⟩ react rfl hkey'
  cases executes with
  | false =>
    simp only [Bool.false_eq_true, if_false] at hrest ⊢
    exact hacquired.spawn hsubscription hrest.spawn
  | true =>
    simp only [if_true] at hrest ⊢
    have hasked := @ask _ _ _ _ _ hacquired (.direct (m'.acquire spec).2.id) {} hkeys (hrest.left (.spawn _ _))
    exact hasked.spawn hsubscription (hrest.right (.spawn _ _)).spawn

/-- A task is taken out of both queues. -/
theorem filterMap_erase (us : List TaskId) (t : TaskId) :
    (us.erase (g.task t)).filterMap g.origin? = (us.filterMap g.origin?).erase t := by
  induction us with
  | nil => rfl
  | cons u us ih =>
    by_cases hu : u = g.task t
    · subst hu
      rw [List.erase_cons_head, List.filterMap_cons_some (origin?_task g t), List.erase_cons_head]
    · rw [List.erase_cons_tail (by simpa using hu)]
      cases horigin : g.origin? u with
      | none => rw [List.filterMap_cons_none horigin, List.filterMap_cons_none horigin, ih]
      | some v =>
        have hv : v ≠ t := fun hvt => hu (hvt ▸ (origin?_eq_some.1 horigin).symm)
        rw [List.filterMap_cons_some horigin, List.filterMap_cons_some horigin,
          List.erase_cons_tail (by simpa using hv), ih]

/-- **A task is favoured** in both. -/
theorem favour (h : g.Mirrors keys key m' m) (t : TaskId) :
    g.Mirrors keys key (m'.favour t) (m.favour (g.task t)) := by
  have hmem : t ∈ m'.queue ↔ g.task t ∈ m.queue := by
    rw [← h.queue, List.mem_filterMap]
    constructor
    · rintro ⟨u, hu, horigin⟩
      rw [origin?_eq_some.1 horigin]
      exact hu
    · exact fun hu => ⟨_, hu, origin?_task g t⟩
  unfold QueryManager.favour
  by_cases ht : t ∈ m'.queue
  · rw [if_pos ht, if_pos (hmem.1 ht)]
    refine h.of_queue ?_
    rw [List.filterMap_cons_some (origin?_task g t), filterMap_erase, h.queue]
  · rw [if_neg ht, if_neg (mt hmem.2 ht)]
    exact h

/-- The first task of the queue runs. -/
theorem poll (h : g.Mirrors keys key m' m) (hr' : Registered m') (hr : Registered m)
    (hhead : ∀ u, m.queue.head? = some u → ∃ t, g.task t = u) (hnew : g.Covers m m.poll) :
    g.Mirrors keys key m'.poll m.poll := by
  cases hq : m.queue with
  | nil =>
    have hq' : m'.queue = [] := by
      rw [← h.queue, hq]
      rfl
    rw [poll_nil hq, poll_nil hq']
    exact h
  | cons u rest =>
    obtain ⟨t, rfl⟩ := hhead u (by rw [hq]; rfl)
    have hq' : m'.queue = t :: rest.filterMap g.origin? := by
      rw [← h.queue, hq, List.filterMap_cons_some (origin?_task g t)]
    have htaken : g.Mirrors keys key m'.taken m.taken := by
      refine h.of_queue ?_
      rw [hq, hq']
      rfl
    rw [poll_eq hq] at hnew
    rw [poll_eq hq, poll_eq hq']
    -- waking draws and starts nothing
    have hwoken : Grows (m.taken.runTask (g.task t)) (m.taken.runTask (g.task t)).wake := .queued (.wake _)
    have htaking : Grows m m.taken := ⟨le_rfl, le_rfl, le_rfl, le_rfl⟩
    exact (htaken.runTask hr' hr t ((hnew.left hwoken).right htaking)).wake

end Mirrors

/-! ## Runs -/

/-- **Two managers in step,** with the leases that users hold. -/
structure Agrees (g : Renaming) (keys : InstanceId → Option QueryKey) (key : QueryKey) (l' l : Lending) :
    Prop where
  manager : g.Mirrors keys key l'.manager l.manager
  held : (l.held.filter fun x => x.key ≠ key) = l'.held.map g.lease

theorem Avoids.left {m₂ : QueryManager} (h : g.Avoids m m₂) (hg : Grows m₁ m₂) : g.Avoids m m₁ :=
  ⟨fun k hk hle => h.number k hk (hle.trans hg.number), fun k hk hle => h.request k hk (hle.trans hg.request),
    fun i hi hlt => h.inst i hi (hlt.trans_le hg.lives), fun t ht hlt => h.task t ht (hlt.trans_le hg.tasks)⟩

namespace Agrees

theorem lease_injective (g : Renaming) : Function.Injective g.lease := by
  rintro ⟨key, id⟩ ⟨key', id'⟩ heq
  obtain ⟨hkey, hid⟩ := Lease.mk.inj heq
  exact congrArg₂ Lease.mk hkey (g.inst.injective hid)

theorem mem_held (h : g.Agrees keys key l' l) {x : Lease} (hx : x.key ≠ key) :
    g.lease x ∈ l.held ↔ x ∈ l'.held := by
  have hfilter : g.lease x ∈ l.held ↔ g.lease x ∈ l.held.filter fun y => y.key ≠ key := by
    rw [List.mem_filter]
    exact ⟨fun hmem => ⟨hmem, decide_eq_true hx⟩, And.left⟩
  rw [hfilter, h.held]
  exact List.mem_map_of_injective (lease_injective g)

/-- A lease is given up in both, if it is held. -/
theorem release (h : g.Agrees keys key l' l) {x : Lease} (hx : x.key ≠ key) :
    g.Agrees keys key (l'.next (.release x)) (l.next (.release (g.lease x))) := by
  by_cases hmem : x ∈ l'.held
  · have hmem' := (h.mem_held hx).2 hmem
    have hnext' : l'.next (.release x) = ⟨l'.manager.step (.release x), l'.held.erase x,
        l'.faults ++ (l'.manager.release x).2.toList⟩ := if_pos hmem
    have hnext : l.next (.release (g.lease x)) = ⟨l.manager.step (.release (g.lease x)),
        l.held.erase (g.lease x), l.faults ++ (l.manager.release (g.lease x)).2.toList⟩ := if_pos hmem'
    rw [hnext, hnext']
    refine ⟨(h.manager.releaseLease hx).1.wake, ?_⟩
    rw [← List.erase_filter, h.held, List.map_erase (lease_injective g)]
  · have hnext' : l'.next (.release x) = l' := if_neg hmem
    have hnext : l.next (.release (g.lease x)) = l := if_neg (mt (h.mem_held hx).1 hmem)
    rw [hnext, hnext']
    exact h

/-- **Both go through an event** that does not concern the key. -/
theorem next (h : g.Agrees M.instanceKey? key l' l) (hs' : l'.Sound) (hs : l.Sound) (hev : g.Alike ev' ev)
    (hnot : ¬ ev.Concerns M key l.manager) (hM : Retains (l.next ev).manager M)
    (hnames : ∀ u, M.taskKey? u ≠ some key → ∃ t, g.task t = u)
    (hnew : g.Covers l.manager (l.next ev).manager) :
    g.Agrees M.instanceKey? key (l'.next ev') (l.next ev) := by
  have hr' := hs'.coherent.registered
  have hr := hs.coherent.registered
  cases hev with
  | drawn numbers requests => exact ⟨h.manager.of_supply (h.manager.supply.drawn hnew.supply), h.held⟩
  | poll => exact ⟨h.manager.poll hr' hr (fun u hu => hnames u fun hkey => hnot ⟨u, hu, hkey⟩) hnew, h.held⟩
  | favour t => exact ⟨h.manager.favour t, h.held⟩
  | acquire spec =>
    have hkey : spec.key ≠ key := hnot
    obtain ⟨hacquired, hlease⟩ := h.manager.acquire hr' hr hkey hnew
    refine ⟨hacquired, ?_⟩
    show ((l.manager.acquire spec).2 :: l.held).filter _ = ((l'.manager.acquire spec).2 :: l'.held).map g.lease
    rw [List.filter_cons, h.held, List.map_cons, ← hlease,
      if_pos (decide_eq_true (show (l.manager.acquire spec).2.key ≠ key from hkey))]
  | release x => exact h.release fun hkey => hnot (.inl hkey)
  | close id => exact ⟨(h.manager.closeInstance id).1.wake, h.held⟩
  | closeExecutor id => exact ⟨h.manager.closeExecutor id, h.held⟩
  | ask addressee block => exact ⟨h.manager.ask hnot hnew, h.held⟩
  | abort t => exact ⟨h.manager.abort t, h.held⟩
  | subscribe spec executes react =>
    have hkey : spec.key ≠ key := hnot
    refine ⟨h.manager.subscribe hr' hr hkey ?_ hnew, h.held⟩
    rw [Retains.leased hr hM]
    exact fun heq => hkey (Option.some.inj heq)
  | unsubscribe t => exact ⟨h.manager.unsubscribe t, h.held⟩
  | answer t reply => exact ⟨h.manager.answer t reply, h.held⟩
  | answerNow t reply => exact ⟨h.manager.answerNow t reply, h.held⟩
  | cancel => exact ⟨h.manager.cancel, h.held⟩

/-- **Only one goes through an event,** which concerns the key. -/
theorem skip (h : g.Agrees M.instanceKey? key l' l) (hs' : l'.Sound) (hs : l.Sound) (ha' : Awake l'.manager)
    (hev : ev.Concerns M key l.manager) (hM : Retains (l.next ev).manager M)
    (hnew : g.Avoids l.manager (l.next ev).manager) : g.Agrees M.instanceKey? key l' (l.next ev) := by
  obtain ⟨⟨m₁, hspares, hsettles⟩, hheld⟩ := hs.spares hM hev
  have hspared := h.manager.spares hs'.coherent hspares (hnew.left (.queued hsettles.queued))
  refine ⟨?_, hheld.trans h.held⟩
  rcases hsettles with heq | heq <;> rw [heq]
  · exact hspared
  · -- nothing that both have is queued
    have hwoken := hspared.wake
    rw [ha'.wake_eq] at hwoken
    exact hwoken

end Agrees

end Renaming

end QueryClient
