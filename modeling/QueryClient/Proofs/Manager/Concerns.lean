import QueryClient.Proofs.Manager.Apart
import QueryClient.Proofs.Manager.Origins

/-!
# Events that concern one key

Instances and tasks keep the key that they have, so that the manager at the end of a run tells what an
event is about.

* `QueryManager.instanceKey?`, `QueryManager.taskKey?`: the key that an instance, or a task, is about.
* `ManagerEvent.Concerns`: **the event concerns the key.**
* `Lending.Sound.spares`: **an event that concerns a key leaves all that concerns other keys as it is.**
-/

namespace QueryClient

variable {key : QueryKey} {m m' M : QueryManager} {t u : TaskId} {id : InstanceId} {e : Executor} {x : Task}
variable {l : Lending} {ev : ManagerEvent} {spec : QuerySpec}

/-! ## What an event is about -/

/-- The key that a task is about, given the keys of the instances. -/
def Task.key? (keys : InstanceId → Option QueryKey) : Task → Option QueryKey
  | .attempt id _ => keys id
  | .caller c => c.addressee.key? keys
  | .subscription s => some s.lease.key

namespace QueryManager

/-- The key of an instance. -/
def instanceKey? (m : QueryManager) (id : InstanceId) : Option QueryKey := (m.executor? id).map (·.key)

/-- The key that a task is about. -/
def taskKey? (m : QueryManager) (t : TaskId) : Option QueryKey :=
  (m.tasks[t]?).bind (Task.key? m.instanceKey?)

end QueryManager

/-- **The event concerns the key.** At the end of the run, the manager `M` tells the keys of instances
and of tasks. -/
def ManagerEvent.Concerns (M : QueryManager) (key : QueryKey) (m : QueryManager) : ManagerEvent → Prop
  | .poll => ∃ t, m.queue.head? = some t ∧ M.taskKey? t = some key
  | .acquire spec | .subscribe spec _ _ => spec.key = key
  | .release x => x.key = key ∨ M.instanceKey? x.id = some key
  | .close id | .closeExecutor id => M.instanceKey? id = some key
  | .ask addressee _ => addressee.key? M.instanceKey? = some key
  | .favour t | .abort t | .unsubscribe t | .answer t _ | .answerNow t _ => M.taskKey? t = some key
  | .drawn _ _ | .cancel => False

/-! ## Keys are kept -/

namespace SameTask

theorem key? {x y : Task} (h : SameTask x y) (keys : InstanceId → Option QueryKey) :
    y.key? keys = x.key? keys := by
  cases h with
  | attempt id n => rfl
  | caller haddr hend => exact congrArg (Addressee.key? keys) haddr
  | subscription hlease hreact => exact congrArg (fun y => some y.key) hlease

end SameTask

namespace Retains

theorem instanceKey? (h : Retains m M) (he : m.executor? id = some e) : M.instanceKey? id = some e.key := by
  obtain ⟨f, hf, hext⟩ := h.executors id e he
  unfold QueryManager.instanceKey?
  rw [hf]
  exact congrArg some hext.key

theorem taskKey? (h : Retains m M) (hx : m.tasks[t]? = some x) : M.taskKey? t = x.key? M.instanceKey? := by
  obtain ⟨y, hy, hsame⟩ := h.tasks t x hx
  unfold QueryManager.taskKey?
  rw [hy]
  exact hsame.key? _

/-- What key an instance is of is known for good. -/
theorem instanceKey?_of (h : Retains m M) (hid : m.instanceKey? id = some key) :
    M.instanceKey? id = some key := by
  obtain ⟨e, he, rfl⟩ := Option.map_eq_some_iff.1 hid
  exact h.instanceKey? he

/-- What key a task is about is known for good. -/
theorem taskKey?_of (h : Retains m M) (ht : m.taskKey? t = some key) : M.taskKey? t = some key := by
  obtain ⟨x, hx, hkey⟩ := Option.bind_eq_some_iff.1 ht
  rw [h.taskKey? hx]
  cases x with
  | attempt id n => exact h.instanceKey?_of hkey
  | subscription s => exact hkey
  | caller c =>
    have haddr : c.addressee.key? m.instanceKey? = some key := hkey
    show c.addressee.key? M.instanceKey? = some key
    cases hc : c.addressee with
    | direct id =>
      rw [hc] at haddr
      exact h.instanceKey?_of haddr
    | leased spec =>
      rw [hc] at haddr
      exact haddr

/-- The live query is one of the key, if there is one. -/
theorem own_live (h : Retains m M) (hid : M.instanceKey? id = some key) : m.otherLive? key id = none := by
  refine Spares.otherLive?_eq_none.2 fun q hq => ?_
  have hkept := h.instanceKey? (QueryManager.executor?_eq_some.2 ⟨q, hq, rfl⟩)
  exact Option.some.inj (hkept.symm.trans hid)

theorem concernsOther (h : Retains m M) (hx : x.key? M.instanceKey? = some key) :
    m.concernsOther M.instanceKey? key x = false := by
  cases x with
  | attempt id n =>
    rw [QueryManager.concernsOther_attempt, h.own_live hx]
    rfl
  | caller c =>
    have haddr : c.addressee.key? M.instanceKey? = some key := hx
    simp [haddr]
  | subscription s =>
    have hkey : s.lease.key = key := Option.some.inj hx
    simp [hkey]

/-- The task is one of the key. -/
theorem owns (h : Retains m M) (ht : M.taskKey? t = some key) (hx : m.tasks[t]? = some x) :
    m.Owns M.instanceKey? key t := by
  refine ⟨lt_of_task hx, ?_⟩
  unfold QueryManager.otherTask?
  rw [hx, Option.filter_some, h.concernsOther ((h.taskKey? hx).symm.trans ht)]
  rfl

/-- The live query that a new subscription leases is one of its query's key. -/
theorem leased (hr : Registered m) {executes : Bool} {react : Delivery → Reaction}
    (h : Retains (m.subscribe spec executes react).1 M) :
    M.instanceKey? (m.acquire spec).2.id = some spec.key := by
  obtain ⟨-, e, he, hk⟩ := hr.acquire spec
  have hafter : (m.subscribe spec executes react).1.executor? (m.acquire spec).2.id = some e := by
    unfold QueryManager.subscribe
    simp only [he]
    split
    · exact he
    · exact he
  rw [h.instanceKey? hafter, hk]
  rfl

end Retains

/-! ## What an event of the key does -/

/-- What is left of the event is to queue the tasks that can go on, if any. -/
def Settles (m m' : QueryManager) : Prop := m' = m ∨ m' = m.wake

theorem Settles.queued (h : Settles m m') : Queued m m' := by
  rcases h with rfl | rfl
  · exact .refl _
  · exact .wake _

namespace Spares

variable {keys : InstanceId → Option QueryKey}

theorem closeExecutor (hid : m.otherLive? key id = none) : Spares keys key m { m with
    lives := m.lives.modify id fun q => { q with executor := q.executor.close } } :=
  of_modify hid (otherLive?_eq_none.1 hid)

theorem ask {addressee : Addressee} {block : Block} (h : addressee.key? keys = some key) :
    Spares keys key m (m.ask addressee block).1 := spawn (by simp [h])

/-- A task of the key is taken from the queue. -/
theorem taken {rest : List TaskId} (hq : m.queue = t :: rest) (ht : m.Owns keys key t) :
    Spares keys key m m.taken := by
  refine of_queue fun p hp => ?_
  rw [hq, List.tail_cons, List.filter_cons, hp t ht]
  simp

/-- A task of the key is favoured. -/
theorem favour (ht : m.Owns keys key t) : Spares keys key m (m.favour t) := by
  rw [favour_frame]
  refine of_queue fun p hp => ?_
  have hnot : t ∉ m.queue.filter p := by simp [hp t ht]
  rw [filter_favour, if_neg hnot]

theorem subscribe (hr : Registered m) (hkey : spec.key = key) {executes : Bool} {react : Delivery → Reaction}
    (hkeys : keys (m.acquire spec).2.id = some key) :
    Spares keys key m (m.subscribe spec executes react).1 := by
  obtain ⟨hacquired, hx, -⟩ := @acquire keys key m spec hr hkey
  unfold QueryManager.subscribe
  simp only
  split
  · exact hacquired
  · -- a result is asked for first, or not
    have hasked : Spares keys key m
        (if executes then ((m.acquire spec).1.ask (.direct (m.acquire spec).2.id) {}).1
          else (m.acquire spec).1) := by
      split
      · exact hacquired.trans (ask hkeys)
      · exact hacquired
    exact hasked.trans (spawn (by simp [hx]))

/-- A caller of the key loses interest. -/
theorem abort (hc : Coherent m) (hM : Retains m M) (ht : M.taskKey? t = some key) :
    ∃ m₁, Spares M.instanceKey? key m m₁ ∧ Settles m₁ (m.abort t) := by
  unfold QueryManager.abort
  split
  · rename_i c hcaller
    have hown := hM.owns ht hcaller
    have haddr : c.addressee.key? M.instanceKey? = some key := (hM.taskKey? hcaller).symm.trans ht
    split
    · exact ⟨_, .endCaller hown haddr _, .inl rfl⟩
    · rename_i id n lease hst
      have hwaits := Spares.waits hc (fun id e he => hM.instanceKey? he) hcaller haddr hst
      have hreleased : Spares M.instanceKey? key m (m.releaseLease? lease).1 := .releaseLease? hwaits.2
      exact ⟨_, hreleased.trans (.endCaller (hreleased.owns hown) haddr _), .inr rfl⟩
    · exact ⟨_, .refl _, .inl rfl⟩
  · exact ⟨_, .refl _, .inl rfl⟩

/-- The handle of a subscription of the key is given up. -/
theorem unsubscribe (hM : Retains m M) (ht : M.taskKey? t = some key) :
    ∃ m₁, Spares M.instanceKey? key m m₁ ∧ Settles m₁ (m.unsubscribe t) := by
  unfold QueryManager.unsubscribe
  split
  · rename_i s hs
    have hkey : s.lease.key = key := Option.some.inj ((hM.taskKey? hs).symm.trans ht)
    exact ⟨_, .setTask (hM.owns ht hs) (by simp [hkey]), .inr rfl⟩
  · exact ⟨_, .refl _, .inl rfl⟩

/-- The backend answers an attempt of the key. -/
theorem answer (hM : Retains m M) (ht : M.taskKey? t = some key) (reply : Reply) :
    (∃ m₁, Spares M.instanceKey? key m m₁ ∧ Settles m₁ (m.answer t reply)) ∧
      ∃ m₁, Spares M.instanceKey? key m m₁ ∧ Settles m₁ (m.answerNow t reply) := by
  rcases answer_eq m t reply with ⟨hanswer, hnow⟩ | ⟨id, n, e, htask, he, hanswer, hnow⟩
  · exact ⟨⟨_, .refl _, .inl hanswer⟩, ⟨_, .refl _, .inl hnow⟩⟩
  · have hid := hM.own_live ((hM.taskKey? htask).symm.trans ht)
    have hset : ∀ {e'}, e.Keeps e' → Spares M.instanceKey? key m (m.setExecutor id e') :=
      fun hkeeps => .setExecutor hid (hkeeps.1.trans (key_eq hid he))
    have hkeeps := Executor.Keeps.answer e n reply
    exact ⟨⟨_, hset hkeeps, .inr hanswer⟩, ⟨_, hset (hkeeps.trans (.resume _ n)), .inr hnow⟩⟩

end Spares

namespace Lending.Sound

/-- A lease that users hold is on an instance of its key. -/
theorem held_key (h : l.Sound) {x : Lease} (hx : x ∈ l.held) :
    ∃ e, l.manager.executor? x.id = some e ∧ e.key = x.key := by
  obtain ⟨cnt, hcnt, hobj⟩ := h.books.entry?_held (List.mem_append_right _ hx)
  exact h.coherent.registered _ _ ⟨cnt, LeaseStep.mem_of_entry? hcnt, hobj⟩

theorem filter_erase {x : Lease} {held : List Lease} (hx : x.key = key) :
    (held.erase x).filter (fun y => y.key ≠ key) = held.filter fun y => y.key ≠ key := by
  rw [← List.erase_filter]
  exact List.erase_of_not_mem (by simp [hx])

/-- A lease on the key is given up, if it is held. -/
theorem spares_release (h : l.Sound) {keys : InstanceId → Option QueryKey}
    (hkeys : ∀ id e, l.manager.executor? id = some e → keys id = some e.key) {x : Lease}
    (hx : x.key = key ∨ keys x.id = some key) :
    (∃ m₁, Spares keys key l.manager m₁ ∧ Settles m₁ (l.next (.release x)).manager) ∧
      ((l.next (.release x)).held.filter fun y => y.key ≠ key) = l.held.filter fun y => y.key ≠ key := by
  by_cases hmem : x ∈ l.held
  · obtain ⟨e, he, hk⟩ := h.held_key hmem
    have hkey : x.key = key := by
      rcases hx with hkey | hid
      · exact hkey
      · rw [← hk]
        exact Option.some.inj ((hkeys _ e he).symm.trans hid)
    have hnext : l.next (.release x) = ⟨l.manager.step (.release x), l.held.erase x,
        l.faults ++ (l.manager.release x).2.toList⟩ := if_pos hmem
    rw [hnext]
    have hid := Spares.otherLive?_of_key he (hk.trans hkey)
    exact ⟨⟨_, .releaseLease hkey hid, .inr rfl⟩, filter_erase hkey⟩
  · have hnext : l.next (.release x) = l := if_neg hmem
    rw [hnext]
    exact ⟨⟨_, .refl _, .inl rfl⟩, rfl⟩

/-- **An event that concerns a key leaves all that concerns other keys as it is.** -/
theorem spares (h : l.Sound) (hM : Retains (l.next ev).manager M) (hev : ev.Concerns M key l.manager) :
    (∃ m₁, Spares M.instanceKey? key l.manager m₁ ∧ Settles m₁ (l.next ev).manager) ∧
      ((l.next ev).held.filter fun y => y.key ≠ key) = l.held.filter fun y => y.key ≠ key := by
  have hretains : Retains l.manager M := (Retains.next h ev).trans hM
  have hkeys : ∀ id e, l.manager.executor? id = some e → M.instanceKey? id = some e.key :=
    fun id e he => hretains.instanceKey? he
  cases ev with
  | drawn numbers requests => exact hev.elim
  | cancel => exact hev.elim
  | poll =>
    obtain ⟨t, hhead, ht⟩ := hev
    refine ⟨?_, rfl⟩
    obtain ⟨rest, hq⟩ := List.head?_eq_some_iff.1 hhead
    have hlt : t < l.manager.tasks.length := h.ok.bounded t (by rw [hq]; exact List.mem_cons_self)
    have hown := hretains.owns ht (List.getElem?_eq_getElem hlt)
    have htaken := Spares.taken hq hown
    refine ⟨_, htaken.trans (.runTask h.coherent.taken (htaken.owns hown) hkeys), .inr ?_⟩
    exact poll_eq hq
  | favour u =>
    refine ⟨?_, rfl⟩
    by_cases hu : u ∈ l.manager.queue
    · have hown := hretains.owns hev (List.getElem?_eq_getElem (h.ok.bounded u hu))
      exact ⟨_, .favour hown, .inl rfl⟩
    · have hsame : l.manager.favour u = l.manager := if_neg hu
      refine ⟨_, .refl _, .inl ?_⟩
      exact hsame
  | acquire spec =>
    refine ⟨⟨_, (Spares.acquire h.coherent.registered hev).1, .inl rfl⟩, ?_⟩
    have hkey : (l.manager.acquire spec).2.key = key := hev
    show ((l.manager.acquire spec).2 :: l.held).filter _ = _
    rw [List.filter_cons]
    simp [hkey]
  | release x => exact h.spares_release hkeys hev
  | close id => exact ⟨⟨_, .closeInstance (hretains.own_live hev), .inr rfl⟩, rfl⟩
  | closeExecutor id => exact ⟨⟨_, .closeExecutor (hretains.own_live hev), .inr rfl⟩, rfl⟩
  | ask addressee block => exact ⟨⟨_, .ask hev, .inl rfl⟩, rfl⟩
  | abort u => exact ⟨Spares.abort h.coherent hretains hev, rfl⟩
  | subscribe spec executes react =>
    refine ⟨⟨_, .subscribe h.coherent.registered hev ?_, .inl rfl⟩, rfl⟩
    rw [Retains.leased h.coherent.registered hM]
    exact congrArg some hev
  | unsubscribe u => exact ⟨Spares.unsubscribe hretains hev, rfl⟩
  | answer u reply => exact ⟨(Spares.answer hretains hev reply).1, rfl⟩
  | answerNow u reply => exact ⟨(Spares.answer hretains hev reply).2, rfl⟩

end Lending.Sound

end QueryClient
