import QueryClient.Proofs.Executor.Attempts
import QueryClient.Query.Manager

/-!
# What happens to a manager

All that a manager's tasks and its users do to it is made of a few small changes. A run of a task is
a sequence of them in which an attempt is started, and then a result is stored, at most once
(`Effect`); after it, the tasks that can go on are queued (`Queued`).

* `ManagerOK`: a manager is well formed.
* `LeaseStep`: leases are taken and given up, and live queries closed.
* `Calm`, `Start`, `Store`: the small changes.
* `Effect.ok`, `Queued.ok`: a manager stays well formed.
* `Effect.executor`: what becomes of an executor.
-/

namespace QueryClient

/-- A manager is well formed. -/
structure ManagerOK (m : QueryManager) : Prop where
  executors : ∀ q ∈ m.lives, ExecutorOK m.supply q.executor
  numbered : ∀ id n, Task.attempt id n ∈ m.tasks → n ≤ m.supply.number
  nodup : m.queue.Nodup
  bounded : ∀ t ∈ m.queue, t < m.tasks.length
  registry : ∀ x ∈ m.registry.entries, x.2.object < m.lives.length
  handed : ∀ t d, Note.handed t d ∈ m.journal → t < m.tasks.length

variable {m m' m'' : QueryManager} {t u : TaskId} {id i : InstanceId} {e e' : Executor}

/-! ## Executors of a manager -/

namespace QueryManager

theorem executor?_eq_some : m.executor? id = some e ↔ ∃ q, m.lives[id]? = some q ∧ q.executor = e := by
  unfold executor?
  rw [Option.map_eq_some_iff]

theorem executor?_setExecutor (m : QueryManager) (id i : InstanceId) (e : Executor) :
    (m.setExecutor id e).executor? i =
      if id = i then (m.executor? i).map fun _ => e else m.executor? i := by
  unfold executor? setExecutor
  simp only [List.getElem?_modify]
  split
  · simp only [Option.map_eq_map, Option.map_map]; rfl
  · simp

theorem executor?_setExecutor_self (he : m.executor? id = some e) (e' : Executor) :
    (m.setExecutor id e').executor? id = some e' := by
  rw [executor?_setExecutor, if_pos rfl, he]
  rfl

theorem executor?_setExecutor_ne (hne : id ≠ i) (e : Executor) :
    (m.setExecutor id e).executor? i = m.executor? i := by
  rw [executor?_setExecutor, if_neg hne]

theorem setExecutor_self (he : m.executor? id = some e) : m.setExecutor id e = m := by
  obtain ⟨q, hq, rfl⟩ := executor?_eq_some.1 he
  have hlives : (m.lives.modify id fun p => { p with executor := q.executor }) = m.lives := by
    refine List.ext_getElem? fun j => ?_
    rw [List.getElem?_modify]
    split
    · rename_i hj
      rw [← hj, hq]
      rfl
    · simp
  unfold setExecutor
  rw [hlives]

theorem setExecutor_setExecutor (m : QueryManager) (id : InstanceId) (e e' : Executor) :
    (m.setExecutor id e).setExecutor id e' = m.setExecutor id e' := by
  unfold setExecutor
  rw [List.modify_modify_eq]
  rfl

/-- Whatever holds of the executors and of the one that is put in holds of all. -/
theorem forall_setExecutor {P : Executor → Prop} (hm : ∀ q ∈ m.lives, P q.executor) (he : P e) :
    ∀ q ∈ (m.setExecutor id e).lives, P q.executor := by
  intro q hq
  obtain ⟨j, hj⟩ := List.mem_iff_getElem?.1 hq
  unfold setExecutor at hj
  rw [List.getElem?_modify] at hj
  obtain ⟨p, hp, hpq⟩ := Option.map_eq_some_iff.1 hj
  split at hpq
  · rw [← hpq]; exact he
  · rw [← hpq]; exact hm p (List.mem_of_getElem? hp)

end QueryManager

theorem ManagerOK.executor (h : ManagerOK m) (he : m.executor? id = some e) : ExecutorOK m.supply e := by
  obtain ⟨q, hq, rfl⟩ := QueryManager.executor?_eq_some.1 he
  exact h.executors q (List.mem_of_getElem? hq)

/-! ## Leases -/

/-- Leases are taken and given up, live queries are opened and closed; nothing else happens. -/
structure LeaseStep (m m' : QueryManager) : Prop where
  frame : m' = { m with registry := m'.registry, lives := m'.lives }
  kept : ∀ id e, m.executor? id = some e →
    ∃ e', m'.executor? id = some e' ∧ (e' = e ∨ e' = e.close)
  opened : ∀ q ∈ m'.lives, (∃ p ∈ m.lives, q.executor = p.executor ∨ q.executor = p.executor.close) ∨
    ∃ spec closed, q.executor = .ofSpec spec closed
  registry : (∀ x ∈ m.registry.entries, x.2.object < m.lives.length) →
    ∀ x ∈ m'.registry.entries, x.2.object < m'.lives.length

namespace LeaseStep

theorem refl (m : QueryManager) : LeaseStep m m :=
  ⟨rfl, fun _ e he => ⟨e, he, .inl rfl⟩, fun q hq => .inl ⟨q, hq, .inl rfl⟩, fun h => h⟩

theorem trans (h : LeaseStep m m') (h' : LeaseStep m' m'') : LeaseStep m m'' := by
  refine ⟨?_, ?_, ?_, fun hr => h'.registry (h.registry hr)⟩
  · rw [h'.frame, h.frame]
  · intro id e he
    obtain ⟨e₁, he₁, h₁⟩ := h.kept id e he
    obtain ⟨e₂, he₂, h₂⟩ := h'.kept id e₁ he₁
    refine ⟨e₂, he₂, ?_⟩
    rcases h₁ with rfl | rfl <;> rcases h₂ with rfl | rfl
    · exact .inl rfl
    · exact .inr rfl
    · exact .inr rfl
    · exact .inr rfl
  · intro q hq
    rcases h'.opened q hq with ⟨p, hp, hqp⟩ | hnew
    · rcases h.opened p hp with ⟨r, hr, hpr⟩ | ⟨spec, closed, hpr⟩
      · refine .inl ⟨r, hr, ?_⟩
        rcases hqp with hqp | hqp <;> rcases hpr with hpr | hpr <;> rw [hqp, hpr]
        · exact .inl rfl
        · exact .inr rfl
        · exact .inr rfl
        · exact .inr rfl
      · refine .inr ?_
        rcases hqp with hqp | hqp <;> rw [hqp, hpr]
        · exact ⟨spec, closed, rfl⟩
        · exact ⟨spec, true, rfl⟩
    · exact .inr hnew

/-- The registry changes, and keeps to the instances that it had. -/
theorem of_registry (m : QueryManager) (r : Registry)
    (h : ∀ x ∈ r.entries, ∃ y ∈ m.registry.entries, y.2.object = x.2.object) :
    LeaseStep m { m with registry := r } := by
  refine ⟨rfl, fun _ e he => ⟨e, he, .inl rfl⟩, fun q hq => .inl ⟨q, hq, .inl rfl⟩, ?_⟩
  intro hr x hx
  obtain ⟨y, hy, hyx⟩ := h x hx
  rw [← hyx]
  exact hr y hy

/-- One live query is closed. -/
theorem of_close {q q' : LiveQuery} (hq : m.lives[id]? = some q)
    (hq' : q'.executor = q.executor.close) : LeaseStep m { m with lives := m.lives.set id q' } := by
  have hlt := (List.getElem?_eq_some_iff.1 hq).1
  refine ⟨rfl, ?_, ?_, ?_⟩
  · intro i e he
    obtain ⟨p, hp, rfl⟩ := QueryManager.executor?_eq_some.1 he
    by_cases hi : id = i
    · subst hi
      obtain rfl : q = p := Option.some.inj (hq.symm.trans hp)
      exact ⟨_, QueryManager.executor?_eq_some.2 ⟨q', List.getElem?_set_self hlt, rfl⟩, .inr hq'⟩
    · refine ⟨_, QueryManager.executor?_eq_some.2 ⟨p, ?_, rfl⟩, .inl rfl⟩
      show (m.lives.set id q')[i]? = some p
      rw [List.getElem?_set_ne hi]
      exact hp
  · intro p hp
    rcases List.mem_or_eq_of_mem_set hp with hp | rfl
    · exact .inl ⟨p, hp, .inl rfl⟩
    · exact .inl ⟨q, List.mem_of_getElem? hq, .inr hq'⟩
  · intro hr x hx
    show _ < (m.lives.set id q').length
    rw [List.length_set]
    exact hr x hx

theorem closeInstance (m : QueryManager) (id : InstanceId) : LeaseStep m (m.closeInstance id).1 := by
  unfold QueryManager.closeInstance
  cases hq : m.lives[id]? with
  | none => exact refl m
  | some q =>
    cases hc : q.closed with
    | false => exact of_close hq (by simp [LiveQuery.close, hc])
    | true =>
      -- closing again changes nothing
      have hset : m.lives.set id q.close.1 = m.lives := by
        rw [show q.close.1 = q by simp [LiveQuery.close, hc]]
        obtain ⟨hlt, rfl⟩ := List.getElem?_eq_some_iff.1 hq
        exact List.set_getElem_self hlt
      show LeaseStep m { m with lives := m.lives.set id q.close.1 }
      rw [hset]
      exact refl m

theorem closeExecutor (m : QueryManager) (id : InstanceId) :
    LeaseStep m { m with lives := m.lives.modify id fun q => { q with executor := q.executor.close } } := by
  cases hq : m.lives[id]? with
  | none =>
    rw [List.modify_eq_self (List.getElem?_eq_none_iff.1 hq)]
    exact refl m
  | some q =>
    have hset : (m.lives.modify id fun p => { p with executor := p.executor.close }) =
        m.lives.set id { q with executor := q.executor.close } := by
      refine List.ext_getElem? fun j => ?_
      rw [List.getElem?_modify, List.getElem?_set]
      by_cases hj : id = j
      · subst hj
        rw [hq, if_pos rfl, if_pos (List.getElem?_eq_some_iff.1 hq).1]
        simp
      · simp [hj]
    rw [hset]
    exact of_close hq rfl

theorem mem_of_entry? {r : Registry} {key : QueryKey} {c : Counted InstanceId}
    (h : r.entry? key = some c) : (key, c) ∈ r.entries := by
  unfold Registry.entry? at h
  obtain ⟨x, hx, rfl⟩ := Option.map_eq_some_iff.1 h
  have hkey : x.1 = key := by simpa using List.find?_some hx
  rw [← hkey]
  exact List.mem_of_find?_eq_some hx

/-- An entry is replaced by one of the same instance. -/
theorem setEntry_entries {r : Registry} {key : QueryKey} {c c' : Counted InstanceId}
    (h : r.entry? key = some c) (hc : c'.object = c.object) :
    ∀ x ∈ (r.setEntry key c').entries, ∃ y ∈ r.entries, y.2.object = x.2.object := by
  intro x hx
  obtain ⟨y, hy, rfl⟩ := List.mem_map.1 hx
  split
  · exact ⟨_, mem_of_entry? h, hc.symm⟩
  · exact ⟨y, hy, rfl⟩

theorem release_entries {r : Registry} {key : QueryKey} :
    ∀ x ∈ (r.release key id).1.entries, ∃ y ∈ r.entries, y.2.object = x.2.object := by
  have hrefl : ∀ x ∈ r.entries, ∃ y ∈ r.entries, y.2.object = x.2.object := fun x hx => ⟨x, hx, rfl⟩
  unfold Registry.release
  cases hc : r.entry? key with
  | none => exact hrefl
  | some c =>
    simp only
    split
    · exact hrefl
    cases hd : c.decrement? with
    | none => exact hrefl
    | some c' =>
      have hobj : c'.object = c.object := by
        unfold Counted.decrement? at hd
        split at hd
        · simp at hd
        · rw [← Option.some.inj hd]
      simp only
      split
      · exact fun x hx => ⟨x, List.mem_of_mem_filter hx, rfl⟩
      · exact setEntry_entries hc hobj

theorem releaseLease (m : QueryManager) (lease : Lease) : LeaseStep m (m.releaseLease lease).1 := by
  have hreg : LeaseStep m { m with registry := (m.registry.release lease.key lease.id).1 } :=
    of_registry m _ release_entries
  unfold QueryManager.releaseLease
  simp only
  split
  · exact hreg.trans (closeInstance _ _)
  · exact hreg

theorem releaseLease? (m : QueryManager) (lease : Option Lease) :
    LeaseStep m (m.releaseLease? lease).1 := by
  cases lease with
  | none => exact refl m
  | some lease => exact releaseLease m lease

theorem closeAll (m : QueryManager) :
    LeaseStep m { m with lives := m.lives.map fun q => { q with executor := q.executor.close } } := by
  refine ⟨rfl, ?_, ?_, ?_⟩
  · intro i e he
    obtain ⟨q, hq, rfl⟩ := QueryManager.executor?_eq_some.1 he
    refine ⟨q.executor.close, ?_, .inr rfl⟩
    simp [QueryManager.executor?, hq]
  · intro q hq
    obtain ⟨p, hp, rfl⟩ := List.mem_map.1 hq
    exact .inl ⟨p, hp, .inr rfl⟩
  · intro hr x hx
    show _ < (m.lives.map _).length
    rw [List.length_map]
    exact hr x hx

/-- A live query is opened; what the registry has beyond its instances is this one. -/
theorem of_open (m : QueryManager) (r : Registry) (spec : QuerySpec)
    (h : ∀ x ∈ r.entries, (∃ y ∈ m.registry.entries, y.2.object = x.2.object) ∨
      x.2.object = m.lives.length) :
    LeaseStep m ({ m with registry := r }.openInstance spec).1 := by
  refine ⟨rfl, ?_, ?_, ?_⟩
  · intro i e he
    obtain ⟨q, hq, rfl⟩ := QueryManager.executor?_eq_some.1 he
    refine ⟨_, QueryManager.executor?_eq_some.2 ⟨q, ?_, rfl⟩, .inl rfl⟩
    exact (List.getElem?_append_left (List.getElem?_eq_some_iff.1 hq).1).trans hq
  · intro q hq
    rcases List.mem_append.1 hq with hq | hq
    · exact .inl ⟨q, hq, .inl rfl⟩
    · rw [List.mem_singleton.1 hq]
      exact .inr ⟨spec, _, rfl⟩
  · intro hr x hx
    show _ < (m.lives ++ [_]).length
    rw [List.length_append, List.length_singleton]
    rcases h x hx with ⟨y, hy, hyx⟩ | hx
    · rw [← hyx]
      exact Nat.lt_succ_of_lt (hr y hy)
    · rw [hx]
      exact Nat.lt_succ_self _

theorem acquire (m : QueryManager) (spec : QuerySpec) : LeaseStep m (m.acquire spec).1 := by
  unfold QueryManager.acquire Registry.acquire
  cases hc : m.registry.entry? spec.key with
  | some c =>
    have hr := setEntry_entries hc (Eq.refl c.increment.object)
    simp only
    split
    · exact of_open m _ spec fun x hx => .inl (hr x hx)
    · exact of_registry m _ hr
  | none =>
    simp only [if_true]
    refine of_open m _ spec fun x hx => ?_
    rcases List.mem_append.1 hx with hx | hx
    · exact .inl ⟨x, hx, rfl⟩
    · rw [List.mem_singleton.1 hx]
      exact .inr rfl

end LeaseStep

/-! ## Small changes -/

/-- It is the turn of an attempt: its task runs, or has run already. -/
def QueryManager.HasTurn (m : QueryManager) (t : TaskId) (id : InstanceId) (a : Attempt) : Prop :=
  a.stage ≠ .spawned ∨ m.tasks[t]? = some (.attempt id a.number) ∧ t ∉ m.queue

theorem QueryManager.HasTurn.of_isCalling {a : Attempt} (h : a.isCalling) : m.HasTurn t id a := by
  unfold Attempt.isCalling at h
  refine .inl fun hst => ?_
  simp [hst] at h

/-- What does not concern results, while the given task runs. -/
inductive Calm (t : TaskId) (m : QueryManager) : QueryManager → Prop where
  | note (n : Note) (h : ∀ u d, n = .handed u d → u = t ∧ t < m.tasks.length) : Calm t m (m.note n)
  | setTask (x : Task) (h : ∀ id n, x ≠ .attempt id n) : Calm t m (m.setTask t x)
  | spawn (x : Task) (h : ∀ id n, x ≠ .attempt id n) : Calm t m (m.spawn x).1
  | cancel : Calm t m { m with cancelled := true }
  | draw (s : Supply) (hn : m.supply.number ≤ s.number) (hr : m.supply.request ≤ s.request) :
      Calm t m { m with supply := s }
  | leases {m' : QueryManager} (h : LeaseStep m m') : Calm t m m'
  | advance {id : InstanceId} {e : Executor} {a : Attempt} {rest : List Attempt} {st : Stage}
      (he : m.executor? id = some e) (hl : e.attempts = a :: rest) (hu : a.Unsettled)
      (hst : st.outcome? = none) (ht : m.HasTurn t id a) :
      Calm t m (m.setExecutor id (e.advance a rest st))

/-- An attempt is started, under numbers not drawn before, and gets a task. -/
inductive Start (m : QueryManager) : QueryManager → Prop where
  | intro {id : InstanceId} {e : Executor} {n : Int} {r : RequestId} {s : Supply}
      (he : m.executor? id = some e) (hs : e.slot = none)
      (hn : m.supply.number < n) (hr : m.supply.request < r.index)
      (hn' : n ≤ s.number) (hr' : r.index ≤ s.request) :
      Start m (({ m with supply := s }.setExecutor id (e.start n r)).spawn (.attempt id n)).1

/-- An attempt ends in a result, which is stored. -/
inductive Store (t : TaskId) (m : QueryManager) : QueryManager → Prop where
  | intro {id : InstanceId} {e : Executor} {a : Attempt} {rest : List Attempt}
      (result : Except Error OperationResult) (he : m.executor? id = some e)
      (hl : e.attempts = a :: rest) (hu : a.Unsettled) (ht : m.HasTurn t id a) :
      Store t m (m.setExecutor id (e.store a rest (e.outcomeOf a result)))

/-- **What happens while the given task runs.** The flag says whether a result was stored; after
that, no attempt is started and no other result is stored. -/
inductive Effect (t : TaskId) (m : QueryManager) : Bool → QueryManager → Prop where
  | refl : Effect t m false m
  | calm {b : Bool} {m' m'' : QueryManager} : Effect t m b m' → Calm t m' m'' → Effect t m b m''
  | start {m' m'' : QueryManager} : Effect t m false m' → Start m' m'' → Effect t m false m''
  | store {m' m'' : QueryManager} : Effect t m false m' → Store t m' m'' → Effect t m true m''

/-- Only the queue has changed: tasks that can go on were queued, and none has left it. -/
structure Queued (m m' : QueryManager) : Prop where
  frame : m' = { m with queue := m'.queue }
  queue : m.queue ⊆ m'.queue
  nodup : m.queue.Nodup → m'.queue.Nodup
  bounded : (∀ t ∈ m.queue, t < m.tasks.length) → ∀ t ∈ m'.queue, t < m.tasks.length

/-- Those that were queued stand behind the others. -/
structure Appended (m m' : QueryManager) : Prop extends Queued m m' where
  behind : m.queue <+: m'.queue

/-! ## A manager stays well formed -/

theorem nodup_spawn (h : m.queue.Nodup) (hb : ∀ u ∈ m.queue, u < m.tasks.length) :
    (m.queue ++ [m.tasks.length]).Nodup := by
  refine List.nodup_append.2 ⟨h, List.nodup_singleton _, ?_⟩
  intro u hu v hv
  rw [List.mem_singleton.1 hv]
  exact Nat.ne_of_lt (hb u hu)

theorem length_spawn (m : QueryManager) (x : Task) : m.tasks.length ≤ (m.spawn x).1.tasks.length := by
  simp [QueryManager.spawn]

theorem bounded_spawn (h : ∀ u ∈ m.queue, u < m.tasks.length) (x : Task) :
    ∀ u ∈ (m.spawn x).1.queue, u < (m.spawn x).1.tasks.length := by
  intro u hu
  rcases List.mem_append.1 hu with hu | hu
  · exact Nat.lt_of_lt_of_le (h u hu) (length_spawn m x)
  · rw [List.mem_singleton.1 hu]
    simp [QueryManager.spawn]

theorem registry_setExecutor (h : ∀ x ∈ m.registry.entries, x.2.object < m.lives.length) :
    ∀ x ∈ (m.setExecutor id e).registry.entries, x.2.object < (m.setExecutor id e).lives.length := by
  intro x hx
  rw [show (m.setExecutor id e).lives.length = m.lives.length from List.length_modify ..]
  exact h x hx

theorem Calm.ok (hc : Calm t m m') (h : ManagerOK m) : ManagerOK m' := by
  obtain ⟨hex, hnum, hnodup, hbound, hreg, hhand⟩ := h
  cases hc with
  | note n hn =>
    refine ⟨hex, hnum, hnodup, hbound, hreg, ?_⟩
    intro u d hd
    rcases List.mem_append.1 hd with hd | hd
    · exact hhand u d hd
    · obtain ⟨rfl, hlt⟩ := hn u d (List.mem_singleton.1 hd).symm
      exact hlt
  | setTask x hx =>
    refine ⟨hex, ?_, hnodup, ?_, hreg, ?_⟩
    · intro id n hmem
      rcases List.mem_or_eq_of_mem_set hmem with hmem | heq
      · exact hnum id n hmem
      · exact absurd heq.symm (hx id n)
    · intro u hu
      show u < (m.tasks.set t x).length
      rw [List.length_set]
      exact hbound u hu
    · intro u d hd
      show u < (m.tasks.set t x).length
      rw [List.length_set]
      exact hhand u d hd
  | spawn x hx =>
    refine ⟨hex, ?_, ?_, ?_, hreg, ?_⟩
    · intro id n hmem
      rcases List.mem_append.1 hmem with hmem | hmem
      · exact hnum id n hmem
      · exact absurd (List.mem_singleton.1 hmem).symm (hx id n)
    · exact nodup_spawn hnodup hbound
    · exact bounded_spawn hbound x
    · exact fun u d hd => Nat.lt_of_lt_of_le (hhand u d hd) (length_spawn m x)
  | cancel => exact ⟨hex, hnum, hnodup, hbound, hreg, hhand⟩
  | draw s hn hr =>
    exact ⟨fun q hq => (hex q hq).mono hn hr, fun id n hmem => Int.le_trans (hnum id n hmem) hn,
      hnodup, hbound, hreg, hhand⟩
  | leases hl =>
    rw [hl.frame]
    refine ⟨?_, hnum, hnodup, hbound, hl.registry hreg, hhand⟩
    intro q hq
    rcases hl.opened q hq with ⟨p, hp, hqp | hqp⟩ | ⟨spec, closed, hqp⟩ <;> rw [hqp]
    · exact hex p hp
    · exact (hex p hp).close
    · exact .fresh spec closed
  | advance he hl hu hst ht =>
    obtain ⟨q, hq, rfl⟩ := QueryManager.executor?_eq_some.1 he
    refine ⟨QueryManager.forall_setExecutor hex ?_, hnum, hnodup, hbound, ?_, hhand⟩
    · exact (hex q (List.mem_of_getElem? hq)).advance hl hu hst
    · exact registry_setExecutor hreg

theorem Start.ok (hs : Start m m') (h : ManagerOK m) : ManagerOK m' := by
  obtain ⟨hex, hnum, hnodup, hbound, hreg, hhand⟩ := h
  cases hs with
  | @intro id e n r s he hslot hn hr hn' hr' =>
    obtain ⟨q, hq, rfl⟩ := QueryManager.executor?_eq_some.1 he
    have hle : m.supply.number ≤ s.number := Int.le_trans (Int.le_of_lt hn) hn'
    have hle' : m.supply.request ≤ s.request := Nat.le_trans (Nat.le_of_lt hr) hr'
    refine ⟨QueryManager.forall_setExecutor (m := { m with supply := s })
      (fun p hp => (hex p hp).mono hle hle') ?_, ?_, nodup_spawn hnodup hbound,
      bounded_spawn (m := { m with supply := s }.setExecutor id _) hbound _,
      registry_setExecutor (m := { m with supply := s }) hreg, ?_⟩
    · exact (hex q (List.mem_of_getElem? hq)).start hslot hn hr hn' hr'
    · intro i k hmem
      rcases List.mem_append.1 hmem with hmem | hmem
      · exact Int.le_trans (hnum i k hmem) hle
      · injection List.mem_singleton.1 hmem with _ hk
        rw [hk]
        exact hn'
    · exact fun u d hd => Nat.lt_of_lt_of_le (hhand u d hd) (length_spawn m _)

theorem Store.ok (hs : Store t m m') (h : ManagerOK m) : ManagerOK m' := by
  obtain ⟨hex, hnum, hnodup, hbound, hreg, hhand⟩ := h
  cases hs with
  | intro result he hl hu ht =>
    obtain ⟨q, hq, rfl⟩ := QueryManager.executor?_eq_some.1 he
    refine ⟨QueryManager.forall_setExecutor hex ?_, hnum, hnodup, hbound, ?_, hhand⟩
    · exact (hex q (List.mem_of_getElem? hq)).store hl hu result
    · exact registry_setExecutor hreg

theorem Effect.ok {b : Bool} (hf : Effect t m b m') (h : ManagerOK m) : ManagerOK m' := by
  induction hf with
  | refl => exact h
  | calm _ hc ih => exact hc.ok ih
  | start _ hs ih => exact hs.ok ih
  | store _ hs ih => exact hs.ok ih

theorem Queued.ok (hq : Queued m m') (h : ManagerOK m) : ManagerOK m' := by
  rw [hq.frame]
  exact ⟨h.executors, h.numbered, hq.nodup h.nodup, hq.bounded h.bounded, h.registry, h.handed⟩

/-! ## What becomes of an executor -/

theorem Calm.executor (hc : Calm t m m') (he : m.executor? id = some e) :
    ∃ e', m'.executor? id = some e' ∧ e'.results = e.results := by
  cases hc with
  | note n hn => exact ⟨e, he, rfl⟩
  | setTask x hx => exact ⟨e, he, rfl⟩
  | spawn x hx => exact ⟨e, he, rfl⟩
  | cancel => exact ⟨e, he, rfl⟩
  | draw s hn hr => exact ⟨e, he, rfl⟩
  | leases hl =>
    obtain ⟨e', he', rfl | rfl⟩ := hl.kept id e he
    · exact ⟨_, he', rfl⟩
    · exact ⟨_, he', rfl⟩
  | @advance i f a rest st hf hl hu hst ht =>
    by_cases hi : i = id
    · subst hi
      obtain rfl : e = f := Option.some.inj (he.symm.trans hf)
      exact ⟨_, QueryManager.executor?_setExecutor_self he _, ExecutorOK.results_advance hl hu hst⟩
    · exact ⟨e, (QueryManager.executor?_setExecutor_ne hi _).trans he, rfl⟩

theorem Start.executor (hs : Start m m') (he : m.executor? id = some e) :
    ∃ e', m'.executor? id = some e' ∧ e'.results = e.results := by
  cases hs with
  | @intro i f n r s hf hslot hn hr hn' hr' =>
    by_cases hi : i = id
    · subst hi
      obtain rfl : e = f := Option.some.inj (he.symm.trans hf)
      exact ⟨_, QueryManager.executor?_setExecutor_self (m := { m with supply := s }) he _,
        List.filterMap_cons_none rfl⟩
    · exact ⟨e, (QueryManager.executor?_setExecutor_ne (m := { m with supply := s }) hi _).trans he, rfl⟩

theorem Store.executor (hs : Store t m m') (he : m.executor? id = some e) :
    ∃ e', m'.executor? id = some e' ∧ (e'.results = e.results ∨ ∃ o, e'.results = o :: e.results) := by
  cases hs with
  | @intro i f a rest result hf hl hu ht =>
    by_cases hi : i = id
    · subst hi
      obtain rfl : e = f := Option.some.inj (he.symm.trans hf)
      exact ⟨_, QueryManager.executor?_setExecutor_self he _, .inr ⟨_, ExecutorOK.results_store hl hu _⟩⟩
    · exact ⟨e, (QueryManager.executor?_setExecutor_ne hi _).trans he, .inl rfl⟩

/-- **While a task runs, an executor stores one result at most.** -/
theorem Effect.executor {b : Bool} (hf : Effect t m b m') (he : m.executor? id = some e) :
    ∃ e', m'.executor? id = some e' ∧
      (e'.results = e.results ∨ b = true ∧ ∃ o, e'.results = o :: e.results) := by
  induction hf with
  | refl => exact ⟨e, he, .inl rfl⟩
  | calm _ hc ih =>
    obtain ⟨e₁, he₁, h₁⟩ := ih
    obtain ⟨e₂, he₂, h₂⟩ := hc.executor he₁
    exact ⟨e₂, he₂, by rw [h₂]; exact h₁⟩
  | start _ hs ih =>
    obtain ⟨e₁, he₁, h₁⟩ := ih
    obtain ⟨e₂, he₂, h₂⟩ := hs.executor he₁
    exact ⟨e₂, he₂, by rw [h₂]; exact h₁⟩
  | store _ hs ih =>
    obtain ⟨e₁, he₁, h₁⟩ := ih
    obtain ⟨e₂, he₂, h₂⟩ := hs.executor he₁
    have hsame : e₁.results = e.results := by simpa using h₁
    rw [hsame] at h₂
    exact ⟨e₂, he₂, h₂.imp_right fun ho => ⟨rfl, ho⟩⟩

theorem Queued.executor (hq : Queued m m') : m'.executor? id = m.executor? id := by
  rw [hq.frame]
  rfl

end QueryClient
