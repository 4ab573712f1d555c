import QueryClient.Proofs.Manager.Winding

/-!
# What becomes of a lease

A task that runs gives up the lease that it holds at most, once, and closes no live query otherwise;
what it panics with is what was wrong with that lease. A caller that arrives has taken a lease
before, and may have closed its live query.

* `QueryManager.isOpen`: nobody has closed the live query.
* `QueryManager.faultOf?`: what a task panicked with.
* `closeInstance_isOpen`, `releaseLease_isOpen`, `releaseLease_fault`: what is closed, and what is wrong.
* `SameLeases`, `Still`: no lease is given up and nothing is closed.
* `Turnout`: **the lease in the hands of a task is kept, or is given up.**
* `Turnout.finishCaller`, …, `Turnout.runTask`: the parts of a task's run are of this kind.
-/

namespace QueryClient

variable {m m' m'' m₁ : QueryManager} {t u : TaskId} {id i : InstanceId} {e e' : Executor}
variable {c : Caller} {x : Option Lease} {lease : Lease} {spec : QuerySpec} {key : QueryKey}

/-- Nobody has closed the live query. -/
def QueryManager.isOpen (m : QueryManager) (id : InstanceId) : Bool :=
  (m.lives[id]?).any fun q => !q.closed

/-- What the task panicked with. -/
def Task.fault? : Task → Option String
  | .attempt .. => none
  | .caller c =>
    match c.stage with
    | .ended (.panicked text) => some text
    | _ => none
  | .subscription s =>
    match s.stage with
    | .panicked text => some text
    | _ => none

/-- What the task of the given name panicked with. -/
def QueryManager.faultOf? (m : QueryManager) (u : TaskId) : Option String :=
  (m.tasks[u]?).bind Task.fault?

/-! ## What is closed -/

/-- **A live query that is closed is open no more,** and all others stay as they are. -/
theorem closeInstance_isOpen (m : QueryManager) (id i : InstanceId) :
    (m.closeInstance id).1.isOpen i = (m.isOpen i && decide (i ≠ id)) := by
  unfold QueryManager.closeInstance
  cases hq : m.lives[id]? with
  | none =>
    by_cases hi : i = id
    · subst hi
      simp [QueryManager.isOpen, hq]
    · simp [hi]
  | some q =>
    have hclosed : q.close.1.closed = true := by
      unfold LiveQuery.close
      split <;> simp_all
    show ((m.lives.set id q.close.1)[i]?).any (fun q => !q.closed) = _
    by_cases hi : i = id
    · subst hi
      rw [List.getElem?_set_self (List.getElem?_eq_some_iff.1 hq).1]
      simp [hclosed]
    · rw [List.getElem?_set_ne (Ne.symm hi)]
      simp [QueryManager.isOpen, hi]

/-- Closing says whether the live query was open. -/
theorem closeInstance_snd (m : QueryManager) (id : InstanceId) : (m.closeInstance id).2 = m.isOpen id := by
  unfold QueryManager.closeInstance QueryManager.isOpen
  cases m.lives[id]? with
  | none => rfl
  | some q =>
    show q.close.2 = !q.closed
    unfold LiveQuery.close
    cases q.closed <;> rfl

/-- The release of the last lease closes the live query, and no other release closes one. -/
theorem releaseLease_isOpen (m : QueryManager) (x : Lease) (i : InstanceId) :
    (m.releaseLease x).1.isOpen i = (m.isOpen i &&
      !(decide ((m.registry.release x.key x.id).2 = .last) && decide (i = x.id))) := by
  unfold QueryManager.releaseLease
  by_cases hlast : (m.registry.release x.key x.id).2 = .last
  · simp only [hlast, if_true, closeInstance_isOpen]
    simp [QueryManager.isOpen]
  · simp only [hlast, if_false]
    simp [QueryManager.isOpen]

/-- What is wrong with a lease depends on the registry, and on whether its live query is open. -/
theorem releaseLease_fault (m : QueryManager) (x : Lease) :
    (m.releaseLease x).2 =
      Registry.fault? x.key (m.isOpen x.id) (m.registry.release x.key x.id).2 := by
  unfold QueryManager.releaseLease
  cases hout : (m.registry.release x.key x.id).2 with
  | last =>
    simp only [hout, if_true, closeInstance_snd]
    rfl
  | _ => simp [hout, Registry.fault?]

/-! ## Nothing is given up -/

/-- **No lease is taken or given up, and no live query is closed.** -/
structure SameLeases (m m' : QueryManager) : Prop where
  registry : m'.registry = m.registry
  isOpen : ∀ id, m'.isOpen id = m.isOpen id

namespace SameLeases

theorem refl (m : QueryManager) : SameLeases m m := ⟨rfl, fun _ => rfl⟩

theorem trans (h : SameLeases m m') (h' : SameLeases m' m'') : SameLeases m m'' :=
  ⟨h'.registry.trans h.registry, fun id => (h'.isOpen id).trans (h.isOpen id)⟩

theorem of_lives (hreg : m'.registry = m.registry) (hlives : m'.lives = m.lives) : SameLeases m m' := by
  refine ⟨hreg, fun id => ?_⟩
  unfold QueryManager.isOpen
  rw [hlives]

/-- Executors go on, and their live queries stay open or closed. -/
theorem of_closed (hreg : m'.registry = m.registry)
    (hlives : ∀ id : InstanceId, (m'.lives[id]?).map LiveQuery.closed = (m.lives[id]?).map LiveQuery.closed) :
    SameLeases m m' := by
  refine ⟨hreg, fun id => ?_⟩
  unfold QueryManager.isOpen
  have hclosed := hlives id
  cases hq : m.lives[id]? <;> cases hq' : m'.lives[id]? <;> simp_all

theorem note (m : QueryManager) (n : Note) : SameLeases m (m.note n) := of_lives rfl rfl

theorem setTask (m : QueryManager) (t : TaskId) (y : Task) : SameLeases m (m.setTask t y) :=
  of_lives rfl rfl

theorem queued (h : Queued m m') : SameLeases m m' := by
  rw [h.frame]
  exact of_lives rfl rfl

theorem setExecutor (m : QueryManager) (id : InstanceId) (e : Executor) :
    SameLeases m (m.setExecutor id e) := by
  refine of_closed rfl fun i => ?_
  unfold QueryManager.setExecutor
  rw [List.getElem?_modify]
  cases m.lives[i]? with
  | none => rfl
  | some q => by_cases hi : id = i <;> simp [hi]

/-- A lease comes to the same. -/
theorem releaseLease (h : SameLeases m m') (x : Lease) :
    SameLeases (m.releaseLease x).1 (m'.releaseLease x).1 ∧
      (m'.releaseLease x).2 = (m.releaseLease x).2 := by
  refine ⟨⟨?_, fun i => ?_⟩, ?_⟩
  · rw [registry_releaseLease, registry_releaseLease, h.registry]
  · rw [releaseLease_isOpen, releaseLease_isOpen, h.registry, h.isOpen]
  · rw [releaseLease_fault, releaseLease_fault, h.registry, h.isOpen]

end SameLeases

/-- **No lease is given up,** and no task panics. -/
structure Still (m m' : QueryManager) : Prop where
  leases : SameLeases m m'
  faults : ∀ u text, m'.faultOf? u = some text → m.faultOf? u = some text

/-- What tasks panicked with after one of them changed. -/
theorem faultOf?_setTask {y : Task} {text : String} (h : (m.setTask t y).faultOf? u = some text) :
    m.faultOf? u = some text ∨
      u = t ∧ (m.setTask t y).tasks[u]? = some y ∧ y.fault? = some text := by
  have hget : (m.setTask t y).tasks[u]? = if t = u then if t < m.tasks.length then some y else none
      else m.tasks[u]? := List.getElem?_set
  unfold QueryManager.faultOf? at h ⊢
  rw [hget] at h ⊢
  by_cases hu : t = u
  · rw [if_pos hu] at h ⊢
    by_cases hlt : t < m.tasks.length
    · rw [if_pos hlt] at h ⊢
      exact .inr ⟨hu.symm, rfl, h⟩
    · rw [if_neg hlt] at h
      simp at h
  · rw [if_neg hu] at h
    exact .inl h

namespace Still

theorem refl (m : QueryManager) : Still m m := ⟨.refl m, fun _ _ h => h⟩

theorem trans (h : Still m m') (h' : Still m' m'') : Still m m'' :=
  ⟨h.leases.trans h'.leases, fun u text hu => h.faults u text (h'.faults u text hu)⟩

theorem of_tasks (h : SameLeases m m') (htasks : m'.tasks = m.tasks) : Still m m' := by
  refine ⟨h, fun u text hu => ?_⟩
  unfold QueryManager.faultOf? at hu ⊢
  rw [← htasks]
  exact hu

theorem note (m : QueryManager) (n : Note) : Still m (m.note n) := .of_tasks (.note m n) rfl

theorem queued (h : Queued m m') : Still m m' := .of_tasks (.queued h) (by rw [h.frame])

theorem setExecutor (m : QueryManager) (id : InstanceId) (e : Executor) : Still m (m.setExecutor id e) :=
  .of_tasks (.setExecutor m id e) rfl

theorem setTask (m : QueryManager) (t : TaskId) {y : Task} (hy : y.fault? = none) :
    Still m (m.setTask t y) := by
  refine ⟨.setTask m t y, fun u text hu => ?_⟩
  rcases faultOf?_setTask hu with hold | ⟨-, -, hnew⟩
  · exact hold
  · rw [hy] at hnew
    simp at hnew

theorem spawn (m : QueryManager) {y : Task} (hy : y.fault? = none) : Still m (m.spawn y).1 := by
  refine ⟨.of_lives rfl rfl, fun u text hu => ?_⟩
  unfold QueryManager.faultOf? at hu ⊢
  rw [getElem?_spawn] at hu
  split at hu
  · rw [Option.bind_some, hy] at hu
    simp at hu
  · exact hu

theorem endCaller (m : QueryManager) (t : TaskId) (c : Caller) {ending : Ending NumberedOutcome}
    (hend : ∀ text, ending ≠ .panicked text) : Still m (m.endCaller t c ending) := by
  refine (setTask m t ?_).trans (note _ _)
  show Task.fault? (.caller { c with stage := .ended ending }) = none
  cases ending with
  | panicked text => exact absurd rfl (hend text)
  | _ => rfl

end Still

/-! ## The lease of a task -/

/-- The caller of the given name has panicked in its own block. -/
def QueryManager.BlockFailed (m : QueryManager) (u : TaskId) (text : String) : Prop :=
  text = blockFailed ∧ ∃ c, m.tasks[u]? = some (.caller c) ∧ c.block.panics ∧
    c.stage = .ended (.panicked blockFailed)

/-- **The task with the given lease in its hands keeps it, or gives it up once.** What it panics with
is what was wrong with it, unless it has panicked before. -/
inductive Turnout (m : QueryManager) : Option Lease → QueryManager → Prop where
  | keeps {x : Option Lease} {m' : QueryManager} (h : Still m m') : Turnout m x m'
  | drops {lease : Lease} {m' : QueryManager} (h : SameLeases (m.releaseLease lease).1 m')
      (hf : ∀ u text, m'.faultOf? u = some text → m.faultOf? u = some text ∨
        (m.releaseLease lease).2 = some text ∨ m'.BlockFailed u text) : Turnout m (some lease) m'

theorem faultOf?_releaseLease (m : QueryManager) (x : Lease) (u : TaskId) :
    (m.releaseLease x).1.faultOf? u = m.faultOf? u := by
  unfold QueryManager.faultOf?
  rw [tasks_releaseLease]

namespace Turnout

/-- Something happens before that concerns no lease. -/
theorem after (h : Still m m₁) (h' : Turnout m₁ x m') : Turnout m x m' := by
  cases h' with
  | keeps h' => exact .keeps (h.trans h')
  | drops h' hf =>
    obtain ⟨hsame, hfault⟩ := h.leases.releaseLease _
    refine .drops (hsame.trans h') fun u text hu => ?_
    rw [← hfault]
    exact (hf u text hu).imp_left (h.faults u text)

/-- Tasks are queued after it. -/
theorem queued (h : Turnout m x m') (hq : Queued m' m'') : Turnout m x m'' := by
  have hstill := Still.queued hq
  cases h with
  | keeps h => exact .keeps (h.trans hstill)
  | drops h hf =>
    refine .drops (h.trans hstill.leases) fun u text hu => ?_
    unfold QueryManager.BlockFailed
    rw [hq.frame]
    exact hf u text (hstill.faults u text hu)

/-- A caller gives up its lease and ends, in a panic if there was something wrong with the lease. -/
theorem endCaller (m : QueryManager) (t : TaskId) (c : Caller) (lease : Lease)
    {ending : Ending NumberedOutcome} (hend : ∀ text, ending ≠ .panicked text) :
    Turnout m (some lease) ((m.releaseLease lease).1.endCaller t c
      ((m.releaseLease lease).2.elim ending .panicked)) := by
  refine .drops ((SameLeases.setTask _ t _).trans (.note _ _)) fun u text hu => ?_
  have hu : ((m.releaseLease lease).1.setTask t (.caller { c with
      stage := .ended ((m.releaseLease lease).2.elim ending .panicked) })).faultOf? u = some text := hu
  rcases faultOf?_setTask hu with hold | ⟨-, -, hnew⟩
  · rw [faultOf?_releaseLease] at hold
    exact .inl hold
  · refine .inr (.inl ?_)
    cases hfault : (m.releaseLease lease).2 with
    | some text' => simpa [hfault, Task.fault?] using hnew
    | none =>
      rw [hfault] at hnew
      cases ending with
      | panicked text => exact absurd rfl (hend text)
      | _ => simp [Task.fault?] at hnew

/-- A caller whose block panics gives up its lease while it does. -/
theorem failBlock (m : QueryManager) (t : TaskId) (c : Caller) (lease : Lease) (hc : c.block.panics) :
    Turnout m (some lease) (m.failBlock t c lease) := by
  -- what was wrong with the lease is only noted
  have hnoted : ∃ m₁, ((m.releaseLease lease).2.elim (m.releaseLease lease).1 fun text =>
      (m.releaseLease lease).1.note (.failed text)) = m₁ ∧ Still (m.releaseLease lease).1 m₁ := by
    refine ⟨_, rfl, ?_⟩
    cases (m.releaseLease lease).2 with
    | none => exact .refl _
    | some text => exact .note _ _
  obtain ⟨m₁, heq, hstill⟩ := hnoted
  unfold QueryManager.failBlock
  rw [heq]
  refine .drops (hstill.leases.trans ((SameLeases.setTask m₁ t _).trans (.note _ _))) fun u text hu => ?_
  have hu : (m₁.setTask t (.caller { c with
      stage := .ended (.panicked QueryManager.blockFailed) })).faultOf? u = some text := hu
  rcases faultOf?_setTask hu with hold | ⟨-, htask, hnew⟩
  · have hold := hstill.faults u text hold
    rw [faultOf?_releaseLease] at hold
    exact .inl hold
  · have htext : QueryManager.blockFailed = text := by simpa [Task.fault?] using hnew
    exact .inr (.inr ⟨htext.symm, _, htask, hc, rfl⟩)

/-- A caller has its result. -/
theorem finishCaller (m : QueryManager) (t : TaskId) (c : Caller) (x : Option Lease)
    (o : NumberedOutcome) : Turnout m x (m.finishCaller t c x o) := by
  cases x with
  | none => exact .keeps (.endCaller m t c (by simp))
  | some lease => exact endCaller m t c lease (by simp)

/-- A caller waits for an attempt, or has its result. -/
theorem awaitAttempt (m : QueryManager) (t : TaskId) (c : Caller) (id : InstanceId) (n : Int)
    (x : Option Lease) : Turnout m x (m.awaitAttempt t c id n x) := by
  have hwait : Still m (m.setTask t (.caller { c with stage := .waiting id n x })) := .setTask m t rfl
  unfold QueryManager.awaitAttempt
  cases m.executor? id with
  | none => exact .keeps hwait
  | some e =>
    simp only
    cases e.await? n with
    | none => exact .keeps hwait
    | some w =>
      obtain ⟨e', o, madeUp⟩ := w
      refine after ?_ (finishCaller _ t c x o)
      cases madeUp with
      | false => exact .setExecutor m id e'
      | true => exact (Still.setExecutor m id e').trans (.note _ _)

/-- A caller asks an instance. -/
theorem callInstance (m : QueryManager) (t : TaskId) (c : Caller) (id : InstanceId)
    (x : Option Lease) : Turnout m x (m.callInstance t c id x) := by
  unfold QueryManager.callInstance
  cases m.executor? id with
  | none => exact .keeps (.refl m)
  | some e =>
    have hdraw : Still m { m with supply := (e.enter m.supply).2.1 } := .of_tasks (.of_lives rfl rfl) rfl
    have hset := hdraw.trans (.setExecutor _ id (e.enter m.supply).1)
    simp only [QueryManager.enter]
    generalize e.enter m.supply = r at hset
    obtain ⟨e', supply, entry⟩ := r
    cases entry with
    | found o => exact after hset (finishCaller _ t c x o)
    | joined n => exact after hset (awaitAttempt _ t c id n x)
    | started n =>
      exact after (hset.trans (.spawn (y := .attempt id n) _ rfl)) (awaitAttempt _ t c id n x)

/-- A subscription gives up its lease. -/
theorem endSubscription (m : QueryManager) (t : TaskId) (s : Subscription) :
    Turnout m (some s.lease) (m.endSubscription t s) := by
  have htasks := faultOf?_releaseLease m s.lease
  unfold QueryManager.endSubscription
  split
  · rename_i m₁ hm₁
    rw [hm₁] at htasks
    refine .drops ?_ fun u text hu => .inl ?_
    · rw [hm₁]
      exact (SameLeases.setTask m₁ t _).trans (.note _ _)
    · rw [← htasks]
      exact (Still.setTask m₁ t rfl).faults u text hu
  · rename_i m₁ fault hm₁
    rw [hm₁] at htasks
    refine .drops ?_ fun u text hu => ?_
    · rw [hm₁]
      exact .setTask m₁ t _
    · rw [← htasks, hm₁]
      exact (faultOf?_setTask hu).imp_right fun ⟨_, _, hnew⟩ => .inl hnew

/-- A subscription hands over what there is, or ends. -/
theorem deliver (t : TaskId) (fuel : ℕ) : ∀ (m : QueryManager) (s : Subscription),
    s.stage = .running → Turnout m (some s.lease) (QueryManager.deliver fuel m t s) := by
  have hset : ∀ (m : QueryManager) (s : Subscription), s.stage = .running →
      Still m (m.setTask t (.subscription s)) := by
    intro m s hrun
    refine .setTask m t ?_
    simp only [Task.fault?, hrun]
  induction fuel with
  | zero => exact fun m s hrun => .keeps (hset m s hrun)
  | succ fuel ih =>
    intro m s hrun
    unfold QueryManager.deliver
    split
    · exact endSubscription m t s
    cases m.executor? s.lease.id with
    | none => exact .keeps (hset m s hrun)
    | some e =>
      simp only
      cases s.updates.next e with
      | mk updates o =>
        cases o with
        | none => exact .keeps (hset m { s with updates } hrun)
        | some o =>
          simp only
          split
          · exact after ((Still.note m _).trans (.note _ _)) (endSubscription _ t { s with updates, cancelled := _ })
          · exact after (.note m _) (ih _ { s with updates, cancelled := _ } hrun)

/-- **A task that runs keeps its lease or gives it up,** unless it is a caller that arrives and takes
one. -/
theorem runTask (m : QueryManager) (t : TaskId)
    (hnot : ∀ c spec, m.tasks[t]? = some (.caller c) → c.stage = .arriving → c.addressee ≠ .leased spec) :
    Turnout m (m.leaseOf? t) (m.runTask t) := by
  unfold QueryManager.runTask
  split
  · exact .keeps (.refl m)
  · split
    · exact .keeps (.refl m)
    · rename_i id n _ _ e he
      refine .keeps ?_
      split
      · simp only
        split
        · exact (Still.setExecutor m id _).trans (.note _ _)
        · exact .setExecutor m id _
      · exact .setExecutor m id _
  · rename_i c htask
    rw [leaseOf?_of_task htask]
    split
    · rename_i hst
      unfold QueryManager.arrive
      split
      · have hnone : Task.lease? (.caller c) = none := by simp only [Task.lease?, Caller.lease?, hst]
        rw [hnone]
        exact callInstance m t c _ none
      · exact absurd ‹_› (hnot c _ htask hst)
    · rename_i id n lease hst
      have hlease : Task.lease? (.caller c) = lease := by simp only [Task.lease?, Caller.lease?, hst]
      rw [hlease]
      exact awaitAttempt m t c id n lease
    · exact .keeps (.refl m)
  · rename_i s htask
    rw [leaseOf?_of_task htask]
    split
    · rename_i hst
      have hlease : Task.lease? (.subscription s) = some s.lease := by
        simp only [Task.lease?, Subscription.lease?, hst]
      rw [hlease]
      exact deliver t _ m s hst
    · exact .keeps (.refl m)

/-- A caller that loses interest gives up its lease. -/
theorem abort (m : QueryManager) (u : TaskId) : Turnout m (m.leaseOf? u) (m.abort u) := by
  unfold QueryManager.abort
  split
  · rename_i c htask
    rw [leaseOf?_of_task htask]
    split
    · exact .keeps (.endCaller m u c (by simp))
    · rename_i id n lease hst
      have hlease : Task.lease? (.caller c) = lease := by simp only [Task.lease?, Caller.lease?, hst]
      rw [hlease]
      refine queued ?_ (.wake _)
      cases lease with
      | none => exact .keeps (.endCaller m u c (by simp))
      | some lease => exact endCaller m u c lease (by simp)
    · exact .keeps (.refl m)
  · exact .keeps (.refl m)

end Turnout

end QueryClient
