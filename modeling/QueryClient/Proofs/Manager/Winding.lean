import QueryClient.Proofs.Manager.Orderly
import QueryClient.Proofs.Manager.Steady

/-!
# How live queries are closed

As long as nobody closes live queries and the manager is not cancelled, a live query is closed by the
release of the last lease on it, and by nothing else. Its key has no entry from then on, until a
caller arrives, or a user comes, who is interested in it.

* `Winds`: no live query is closed otherwise, and no key comes into use.
* `Winds.releaseLease`, …, `Winds.deliver`: what tasks do once they have begun is of this kind.
* `Winds.runTask`, `Winds.arrive`: a run of a task, after the lease that an arriving caller takes.
-/

namespace QueryClient

variable {m m' m'' : QueryManager} {t u : TaskId} {id : InstanceId} {e e' : Executor} {x : Task}
variable {c : Caller} {key : QueryKey} {spec : QuerySpec}

/-- The key that a caller leases. -/
def Caller.key? (c : Caller) : Option QueryKey :=
  match c.addressee with
  | .direct _ => none
  | .leased spec => some spec.key

/-- The caller has not run yet. -/
def Caller.isArriving (c : Caller) : Bool :=
  match c.stage with
  | .arriving => true
  | _ => false

/-- An execution of the key's query that has not begun. -/
def Task.isArrivalOn (key : QueryKey) : Task → Bool
  | .caller c => c.isArriving && c.key? = some key
  | _ => false

/-! ## How live queries are closed -/

/-- The executor's key and closure stay as they are. -/
def Executor.Keeps (e e' : Executor) : Prop := e'.key = e.key ∧ e'.closed = e.closed

namespace Executor.Keeps

theorem publish (e : Executor) (o : NumberedOutcome) : e.Keeps (e.publish o) := by
  unfold Executor.publish
  split <;> exact ⟨rfl, rfl⟩

theorem settle (e : Executor) (a : Attempt) (result : Except Error OperationResult) :
    e.Keeps (e.settle a result) :=
  publish { e with slot := if e.slot = some (e.outcomeOf a result).number then none else e.slot } _

theorem begin (e : Executor) (n : Int) : e.Keeps (e.begin n) := by
  unfold Executor.begin
  split
  · split
    · split
      · exact settle e _ _
      · exact ⟨rfl, rfl⟩
    · exact ⟨rfl, rfl⟩
  · exact ⟨rfl, rfl⟩

theorem answer (e : Executor) (n : Int) (reply : Reply) : e.Keeps (e.answer n reply) := by
  unfold Executor.answer
  split <;> exact ⟨rfl, rfl⟩

theorem resume (e : Executor) (n : Int) : e.Keeps (e.resume n) := by
  unfold Executor.resume
  split
  · split
    · split
      · exact settle e _ _
      · exact ⟨rfl, rfl⟩
    · split
      · exact settle e _ _
      · split
        · exact settle e _ _
        · exact ⟨rfl, rfl⟩
    · exact ⟨rfl, rfl⟩
  · exact ⟨rfl, rfl⟩

theorem trans {e'' : Executor} (h : e.Keeps e') (h' : e'.Keeps e'') : e.Keeps e'' :=
  ⟨h'.1.trans h.1, h'.2.trans h.2⟩

theorem await {n : Int} {o : NumberedOutcome} {madeUp : Bool} (h : e.await? n = some (e', o, madeUp)) :
    e.Keeps e' := by
  unfold Executor.await? at h
  split at h
  · split at h
    · obtain ⟨rfl, -⟩ := Prod.mk.inj (Option.some.inj h)
      exact ⟨rfl, rfl⟩
    · obtain ⟨rfl, -⟩ := Prod.mk.inj (Option.some.inj h)
      exact settle e _ _
    · simp at h
  · simp at h

theorem enter (e : Executor) (s : Supply) : e.Keeps (e.enter s).1 := by
  unfold Executor.enter
  rcases e.join_cases s.drawNumber.1 s.drawNumber.2 with ⟨o, hj, -⟩ | ⟨n, hj, -⟩ | ⟨hj, -⟩ <;>
    simp only [hj] <;> exact ⟨rfl, rfl⟩

end Executor.Keeps

/-- The last user of an instance takes the entry away. -/
theorem Registry.release_last {r : Registry} {key : QueryKey} {id : InstanceId}
    (h : (r.release key id).2 = .last) : r.Has key id ∧ Registry.entry? (r.release key id).1 key = none := by
  unfold Registry.release at h ⊢
  cases hc : r.entry? key with
  | none => simp [hc] at h
  | some c =>
    simp only [hc] at h ⊢
    by_cases hobj : c.object ≠ id
    · simp [hobj] at h
    rw [if_neg hobj] at h ⊢
    cases hd : c.decrement? with
    | none => simp [hd] at h
    | some c' =>
      simp only [hd] at h ⊢
      by_cases hzero : c'.count = 0
      · rw [if_pos hzero]
        exact ⟨⟨c, LeaseStep.mem_of_entry? hc, not_not.1 hobj⟩, (Registry.entry?_remove ..).trans (if_pos rfl)⟩
      · simp [hzero] at h

/-- **Nothing but the release of a last lease closes a live query,** and the key has no entry then. No
key comes into use, and no caller arrives. -/
structure Winds (m m' : QueryManager) : Prop where
  executors : ∀ id e, m.executor? id = some e → ∃ e', m'.executor? id = some e' ∧ e'.key = e.key ∧
    (e'.closed = e.closed ∨ m'.registry.entry? e.key = none)
  unused : ∀ key, m.registry.entry? key = none → m'.registry.entry? key = none
  has : ∀ key id, m'.registry.Has key id → m.registry.Has key id
  arrivals : ∀ (u : TaskId) (x : Task) key,
    m'.tasks[u]? = some x → x.isArrivalOn key → m.tasks[u]? = some x

namespace Winds

theorem trans (h : Winds m m') (h' : Winds m' m'') : Winds m m'' := by
  refine ⟨fun id e he => ?_, fun key hk => h'.unused key (h.unused key hk),
    fun key id hk => h.has key id (h'.has key id hk),
    fun u x key hu hx => h.arrivals u x key (h'.arrivals u x key hu hx) hx⟩
  obtain ⟨e₁, he₁, hk₁, hc₁⟩ := h.executors id e he
  obtain ⟨e₂, he₂, hk₂, hc₂⟩ := h'.executors id e₁ he₁
  refine ⟨e₂, he₂, hk₂.trans hk₁, ?_⟩
  rcases hc₁ with hc₁ | hnone
  · rw [hk₁] at hc₂
    exact hc₂.imp_left fun hc₂ => hc₂.trans hc₁
  · exact .inr (h'.unused _ hnone)

/-- Neither live queries nor the registry change. -/
theorem of_tasks (hlives : m'.lives = m.lives) (hreg : m'.registry = m.registry)
    (htasks : ∀ (u : TaskId) (x : Task) key,
      m'.tasks[u]? = some x → x.isArrivalOn key → m.tasks[u]? = some x) : Winds m m' := by
  refine ⟨fun id e he => ⟨e, ?_, rfl, .inl rfl⟩, fun key hk => by rw [hreg]; exact hk,
    fun key id hk => by rw [← hreg]; exact hk, htasks⟩
  unfold QueryManager.executor?
  rw [hlives]
  exact he

theorem refl (m : QueryManager) : Winds m m := of_tasks rfl rfl fun _ _ _ h _ => h

theorem note (m : QueryManager) (n : Note) : Winds m (m.note n) := of_tasks rfl rfl fun _ _ _ h _ => h

theorem queued (h : Queued m m') : Winds m m' := by
  rw [h.frame]
  exact of_tasks rfl rfl fun _ _ _ h _ => h

theorem setTask {y : Task} (m : QueryManager) (t : TaskId) (hy : ∀ key, y.isArrivalOn key = false) :
    Winds m (m.setTask t y) := by
  refine of_tasks rfl rfl fun u x key hu hx => ?_
  have hu' : (m.tasks.set t y)[u]? = some x := hu
  rw [List.getElem?_set] at hu'
  split at hu'
  · split at hu'
    · rw [← Option.some.inj hu', hy key] at hx
      simp at hx
    · simp at hu'
  · exact hu'

theorem spawn {y : Task} (m : QueryManager) (hy : ∀ key, y.isArrivalOn key = false) :
    Winds m (m.spawn y).1 := by
  refine of_tasks rfl rfl fun u x key hu hx => ?_
  rw [getElem?_spawn] at hu
  split at hu
  · rw [← Option.some.inj hu, hy key] at hx
    simp at hx
  · exact hu

theorem setExecutor (he : m.executor? id = some e) (hk : e.Keeps e') : Winds m (m.setExecutor id e') := by
  refine ⟨fun i f hf => ?_, fun _ h => h, fun _ _ h => h, fun _ _ _ h _ => h⟩
  by_cases hi : id = i
  · subst hi
    obtain rfl := Option.some.inj (he.symm.trans hf)
    exact ⟨e', QueryManager.executor?_setExecutor_self he e', hk.1, .inl hk.2⟩
  · exact ⟨f, (QueryManager.executor?_setExecutor_ne hi e').trans hf, rfl, .inl rfl⟩

theorem registered (h : Winds m m') (hr : Registered m) : Registered m' := by
  intro key id hhas
  obtain ⟨e, he, hk⟩ := hr key id (h.has key id hhas)
  obtain ⟨e', he', hk', -⟩ := h.executors id e he
  exact ⟨e', he', hk'.trans hk⟩

/-- A live query is closed whose key is not in use. -/
theorem closeInstance (he : m.executor? id = some e) (hnone : m.registry.entry? e.key = none) :
    Winds m (m.closeInstance id).1 := by
  obtain ⟨q, hq, rfl⟩ := QueryManager.executor?_eq_some.1 he
  unfold QueryManager.closeInstance
  simp only [hq]
  refine ⟨fun i f hf => ?_, fun _ h => h, fun _ _ h => h, fun _ _ _ h _ => h⟩
  by_cases hi : id = i
  · subst hi
    obtain rfl := Option.some.inj (he.symm.trans hf)
    refine ⟨q.close.1.executor, ?_, ?_, .inr hnone⟩
    · show ((m.lives.set id q.close.1)[id]?).map _ = _
      rw [List.getElem?_set_self (List.getElem?_eq_some_iff.1 hq).1]
      rfl
    · unfold LiveQuery.close
      split <;> rfl
  · refine ⟨f, ?_, rfl, .inl rfl⟩
    show ((m.lives.set id q.close.1)[i]?).map _ = _
    rw [List.getElem?_set_ne hi]
    exact hf

/-- One user less, and nobody more. -/
theorem release (m : QueryManager) (key : QueryKey) (id : InstanceId) :
    Winds m { m with registry := (m.registry.release key id).1 } := by
  refine ⟨fun i e he => ⟨e, he, rfl, .inl rfl⟩, fun k hk => ?_, fun k i h => h.of_release, fun _ _ _ h _ => h⟩
  cases hkey : Registry.entry? (m.registry.release key id).1 k with
  | none => rfl
  | some c =>
    obtain ⟨c', hc', -⟩ := Registry.Has.of_release ⟨c, LeaseStep.mem_of_entry? hkey, rfl⟩
    have hsome := Registry.mem_keys.1 (List.mem_map.2 ⟨_, hc', rfl⟩)
    rw [hk] at hsome
    simp at hsome

/-- **A lease is given up.** -/
theorem releaseLease (hr : Registered m) (x : Lease) : Winds m (m.releaseLease x).1 := by
  have hreg := release m x.key x.id
  unfold QueryManager.releaseLease
  simp only
  split
  · rename_i hlast
    -- the live query that is closed is that of the key, which has no entry any more
    obtain ⟨hhas, hgone⟩ := Registry.release_last hlast
    obtain ⟨e, he, hk⟩ := hr _ _ hhas
    refine hreg.trans (closeInstance he ?_)
    rw [hk]
    exact hgone
  · exact hreg

theorem releaseLease? (hr : Registered m) (x : Option Lease) : Winds m (m.releaseLease? x).1 := by
  cases x with
  | none => exact refl m
  | some x => exact releaseLease hr x

theorem endCaller (m : QueryManager) (t : TaskId) (c : Caller) (ending : Ending NumberedOutcome) :
    Winds m (m.endCaller t c ending) :=
  (setTask m t fun _ => rfl).trans (note _ _)

theorem finishCaller (hr : Registered m) (t : TaskId) (c : Caller) (x : Option Lease)
    (o : NumberedOutcome) : Winds m (m.finishCaller t c x o) :=
  (releaseLease? hr x).trans (endCaller _ t c _)

theorem awaitAttempt (hr : Registered m) (t : TaskId) (c : Caller) (id : InstanceId) (n : Int)
    (x : Option Lease) : Winds m (m.awaitAttempt t c id n x) := by
  have hwait : Winds m (m.setTask t (.caller { c with stage := .waiting id n x })) :=
    setTask m t fun _ => rfl
  unfold QueryManager.awaitAttempt
  cases he : m.executor? id with
  | none => exact hwait
  | some e =>
    simp only
    cases hw : e.await? n with
    | none => exact hwait
    | some w =>
      obtain ⟨e', o, madeUp⟩ := w
      have hset := setExecutor he (.await hw)
      have hset' : Winds m (if madeUp then (m.setExecutor id e').note (.warned e'.droppedText)
          else m.setExecutor id e') := by
        split
        · exact hset.trans (note _ _)
        · exact hset
      exact hset'.trans (finishCaller (hset'.registered hr) t c x o)

theorem callInstance (hr : Registered m) (t : TaskId) (c : Caller) (id : InstanceId)
    (x : Option Lease) : Winds m (m.callInstance t c id x) := by
  unfold QueryManager.callInstance
  cases he : m.executor? id with
  | none => exact refl m
  | some e =>
    have hdraw : Winds m { m with supply := (e.enter m.supply).2.1 } := of_tasks rfl rfl fun _ _ _ h _ => h
    have hset := hdraw.trans (setExecutor he (.enter e m.supply))
    simp only [QueryManager.enter]
    generalize e.enter m.supply = r at hset
    obtain ⟨e', supply, entry⟩ := r
    cases entry with
    | found o => exact hset.trans (finishCaller (hset.registered hr) t c x o)
    | joined n => exact hset.trans (awaitAttempt (hset.registered hr) t c id n x)
    | started n =>
      have hspawn := hset.trans (spawn (y := .attempt id n) _ fun _ => rfl)
      exact hspawn.trans (awaitAttempt (hspawn.registered hr) t c id n x)

theorem endSubscription (hr : Registered m) (t : TaskId) (s : Subscription) :
    Winds m (m.endSubscription t s) := by
  have h := releaseLease hr s.lease
  unfold QueryManager.endSubscription
  split
  · rename_i m₁ hm₁
    rw [hm₁] at h
    exact h.trans ((setTask m₁ t fun _ => rfl).trans (note _ _))
  · rename_i m₁ text hm₁
    rw [hm₁] at h
    exact h.trans (setTask m₁ t fun _ => rfl)

theorem deliver (t : TaskId) (fuel : ℕ) : ∀ {m : QueryManager} (s : Subscription), Registered m →
    Winds m (QueryManager.deliver fuel m t s) := by
  have hset : ∀ (m : QueryManager) (s : Subscription), Winds m (m.setTask t (.subscription s)) :=
    fun m s => setTask m t fun _ => rfl
  induction fuel with
  | zero => exact fun s _ => hset _ s
  | succ fuel ih =>
    intro m s hr
    unfold QueryManager.deliver
    split
    · exact endSubscription hr t s
    cases m.executor? s.lease.id with
    | none => exact hset m s
    | some e =>
      simp only
      cases s.updates.next e with
      | mk updates o =>
        cases o with
        | none => exact hset m _
        | some o =>
          simp only
          split
          · refine (note m _).trans ((note _ _).trans (endSubscription ?_ t _))
            exact hr
          · exact (note m _).trans (ih _ hr)

/-- **An arriving caller** takes a lease; the rest is of this kind. -/
theorem arrive (hr : Registered m) (htask : m.tasks[t]? = some (.caller c)) (hst : c.stage = .arriving)
    (haddr : c.addressee = .leased spec) (hopen : c.block.closes = false) :
    Winds (m.acquire spec).1 (m.runTask t) := by
  have hr' := (hr.acquire spec).1
  unfold QueryManager.runTask
  simp only [htask, hst]
  unfold QueryManager.arrive
  simp only [haddr, hopen]
  split
  · have h := releaseLease hr' (m.acquire spec).2
    simp only [Bool.false_eq_true, if_false]
    cases ((m.acquire spec).1.releaseLease (m.acquire spec).2).2 with
    | none => exact h.trans (endCaller _ t c _)
    | some text => exact (h.trans (note _ _)).trans (endCaller _ t c _)
  · exact callInstance hr' t c _ _

/-- **A run of any other task** is of this kind. -/
theorem runTask (hr : Registered m) (t : TaskId)
    (hnot : ∀ x key, m.tasks[t]? = some x → x.isArrivalOn key = false) : Winds m (m.runTask t) := by
  unfold QueryManager.runTask
  split
  · exact refl m
  · split
    · exact refl m
    · rename_i id n _ _ e he
      split
      · have h := setExecutor he (.begin e n)
        simp only
        split
        · exact h.trans (note _ _)
        · exact h
      · exact setExecutor he (.resume e n)
  · rename_i c htask
    split
    · rename_i hst
      unfold QueryManager.arrive
      split
      · exact callInstance hr t c _ none
      · rename_i spec haddr
        have hno := hnot _ spec.key htask
        simp [Task.isArrivalOn, Caller.isArriving, Caller.key?, hst, haddr] at hno
    · exact awaitAttempt hr t c _ _ _
    · exact refl m
  · split
    · exact deliver t _ _ hr
    · exact refl m

/-- **A run of a task** is of this kind, after the lease that the task takes if it is a caller that
arrives. -/
theorem runTask_cases (hr : Registered m) (t : TaskId)
    (hmild : ∀ x, m.tasks[t]? = some x → x.Mild) : Winds m (m.runTask t) ∨
      ∃ c spec, m.tasks[t]? = some (.caller c) ∧ c.stage = .arriving ∧ c.addressee = .leased spec ∧
        Winds (m.acquire spec).1 (m.runTask t) := by
  by_cases harr : ∃ c spec, m.tasks[t]? = some (.caller c) ∧ c.stage = .arriving ∧ c.addressee = .leased spec
  · obtain ⟨c, spec, htask, hst, haddr⟩ := harr
    exact .inr ⟨c, spec, htask, hst, haddr, arrive hr htask hst haddr (hmild _ htask)⟩
  · refine .inl (runTask hr t fun x key hx => ?_)
    cases x with
    | attempt id n => rfl
    | subscription s => rfl
    | caller c =>
      cases hst : c.stage with
      | arriving =>
        cases haddr : c.addressee with
        | direct id => simp [Task.isArrivalOn, Caller.key?, haddr]
        | leased spec => exact absurd ⟨c, spec, hx, hst, haddr⟩ harr
      | waiting id n lease => simp [Task.isArrivalOn, Caller.isArriving, hst]
      | ended ending => simp [Task.isArrivalOn, Caller.isArriving, hst]

/-! ## What users and the backend do -/

/-- **A new subscription** takes a lease; the rest is of this kind. -/
theorem subscribe (m : QueryManager) (spec : QuerySpec) (executes : Bool) (react : Delivery → Reaction) :
    Winds (m.acquire spec).1 (m.subscribe spec executes react).1 := by
  unfold QueryManager.subscribe
  simp only
  split
  · exact refl _
  · split
    · exact (spawn _ fun _ => by simp [Task.isArrivalOn, Caller.key?]).trans (spawn _ fun _ => rfl)
    · exact spawn _ fun _ => rfl

theorem abort (hr : Registered m) (t : TaskId) : Winds m (m.abort t) := by
  unfold QueryManager.abort
  split
  · split
    · exact endCaller _ t _ _
    · rename_i lease _
      exact ((releaseLease? hr lease).trans (endCaller _ t _ _)).trans (queued (.wake _))
    · exact refl m
  · exact refl m

theorem unsubscribe (m : QueryManager) (t : TaskId) : Winds m (m.unsubscribe t) := by
  unfold QueryManager.unsubscribe
  split
  · exact (setTask _ t fun _ => rfl).trans (queued (.wake _))
  · exact refl m

theorem answer (m : QueryManager) (t : TaskId) (reply : Reply) :
    Winds m (m.answer t reply) ∧ Winds m (m.answerNow t reply) := by
  rcases answer_eq m t reply with ⟨hanswer, hnow⟩ | ⟨id, n, e, -, he, hanswer, hnow⟩ <;>
    rw [hanswer, hnow]
  · exact ⟨refl m, refl m⟩
  · have hkeeps := Executor.Keeps.answer e n reply
    exact ⟨(setExecutor he hkeeps).trans (queued (.wake _)),
      (setExecutor he (hkeeps.trans (.resume _ n))).trans (queued (.wake _))⟩

end Winds

/-! ## A caller that has arrived -/

/-- The task is no caller that has yet to arrive. -/
def QueryManager.Begun (m : QueryManager) (t : TaskId) : Prop :=
  ∀ x key, m.tasks[t]? = some x → x.isArrivalOn key = false

namespace QueryManager.Begun

theorem setTask {y : Task} (m : QueryManager) (t : TaskId) (hy : ∀ key, y.isArrivalOn key = false) :
    (m.setTask t y).Begun t := by
  intro x key hx
  have hx' : (m.tasks.set t y)[t]? = some x := hx
  rw [List.getElem?_set] at hx'
  simp only [if_true] at hx'
  split at hx'
  · rw [← Option.some.inj hx']
    exact hy key
  · simp at hx'

theorem finishCaller (m : QueryManager) (t : TaskId) (c : Caller) (x : Option Lease)
    (o : NumberedOutcome) : (m.finishCaller t c x o).Begun t :=
  setTask (m.releaseLease? x).1 t fun _ => rfl

theorem awaitAttempt (m : QueryManager) (t : TaskId) (c : Caller) (id : InstanceId) (n : Int)
    (x : Option Lease) : (m.awaitAttempt t c id n x).Begun t := by
  have hwait : (m.setTask t (.caller { c with stage := .waiting id n x })).Begun t :=
    setTask m t fun _ => rfl
  unfold QueryManager.awaitAttempt
  cases m.executor? id with
  | none => exact hwait
  | some e =>
    simp only
    cases e.await? n with
    | none => exact hwait
    | some w => exact finishCaller _ t c x _

/-- **A caller that has run has begun.** -/
theorem runTask (hr : Registered m) (htask : m.tasks[t]? = some (.caller c)) (hst : c.stage = .arriving)
    (haddr : c.addressee = .leased spec) (hopen : c.block.closes = false) : (m.runTask t).Begun t := by
  obtain ⟨-, e, he, -⟩ := hr.acquire spec
  unfold QueryManager.runTask
  simp only [htask, hst]
  unfold QueryManager.arrive
  simp only [haddr, hopen]
  split
  · exact setTask _ t fun _ => rfl
  · simp only [Bool.false_eq_true, if_false]
    unfold QueryManager.callInstance
    simp only [he, QueryManager.enter]
    generalize e.enter (m.acquire spec).1.supply = r
    obtain ⟨e', supply, entry⟩ := r
    cases entry with
    | found o => exact finishCaller _ t c _ o
    | joined n => exact awaitAttempt _ t c _ n _
    | started n => exact awaitAttempt _ t c _ n _

end QueryManager.Begun

end QueryClient
