import QueryClient.Proofs.Executor.Reader
import QueryClient.Proofs.Manager.Acts

/-!
# Everything in its place

Whatever happens to a manager, live queries, leases and tasks refer to each other as they should: a
key is registered with an instance of this key, who waits waits for an attempt of the instance that
it asked, and every attempt has one task.

* `Extends`, `SameTask`: executors, and tasks, keep what they have.
* `TaskOK`: a task refers to what is there.
* `Coherent`: all is in its place.
* `Act.coherent`: **every act keeps it so.**
-/

namespace QueryClient

variable {m m' m'' : QueryManager} {b b' : Bench} {t u v : TaskId} {given : Input}
variable {id : InstanceId} {e e' : Executor} {a : Attempt} {c c' : Caller} {s : Subscription}
variable {spec : QuerySpec} {n : Int} {x : Task}

/-! ## Executors keep what they have -/

theorem ExecutorExt.trans {e'' : Executor} (h : ExecutorExt e e') (h' : ExecutorExt e' e'') :
    ExecutorExt e e'' := by
  refine ⟨h'.spec.trans h.spec, h'.key.trans h.key, fun a ha => ?_, h.results.trans h'.results⟩
  obtain ⟨b, hb, hbn, hbr, hbs⟩ := h.attempts a ha
  obtain ⟨c, hc, hcn, hcr, hcs⟩ := h'.attempts b hb
  exact ⟨c, hc, hcn.trans hbn, hcr.trans hbr, fun o ho => hcs o (hbs o ho)⟩

/-- **The executors are still there,** and have what they had. -/
def Extends (m m' : QueryManager) : Prop :=
  ∀ id e, m.executor? id = some e → ∃ e', m'.executor? id = some e' ∧ ExecutorExt e e'

/-- An executor that was not there before has done nothing yet, and is one of a query that is
named. -/
def Opens (t : TaskId) (given : Input) (m m' : QueryManager) : Prop :=
  ∀ id e', m'.executor? id = some e' → m.executor? id = none →
    ∃ spec closed, e' = .ofSpec spec closed ∧ m.Names t given spec

namespace Extends

theorem refl (m : QueryManager) : Extends m m := fun _ e he => ⟨e, he, .refl e⟩

theorem trans (h : Extends m m') (h' : Extends m' m'') : Extends m m'' := by
  intro id e he
  obtain ⟨e₁, he₁, h₁⟩ := h id e he
  obtain ⟨e₂, he₂, h₂⟩ := h' id e₁ he₁
  exact ⟨e₂, he₂, h₁.trans h₂⟩

theorem of_leaseStep (h : LeaseStep m m') : Extends m m' := by
  intro id e he
  obtain ⟨e', he', rfl | rfl⟩ := h.kept id e he
  · exact ⟨_, he', .refl _⟩
  · exact ⟨_, he', .step .close⟩

theorem setExecutor (he : m.executor? id = some e) (hx : ExecutorExt e e') :
    Extends m (m.setExecutor id e') := by
  intro i f hf
  by_cases hi : id = i
  · subst hi
    obtain rfl : e = f := Option.some.inj (he.symm.trans hf)
    exact ⟨e', QueryManager.executor?_setExecutor_self he e', hx⟩
  · exact ⟨f, (QueryManager.executor?_setExecutor_ne hi e').trans hf, .refl f⟩

theorem calm {t : TaskId} (h : Calm t m m') : Extends m m' := by
  cases h with
  | note n hn => exact refl m
  | setTask x hx => exact refl m
  | spawn x hx => exact refl m
  | cancel => exact refl m
  | draw s hn hr => exact refl m
  | leases hl => exact of_leaseStep hl
  | advance he hl hu hst ht => exact setExecutor he (.step (.advance hl hu hst))

theorem effect {stored : Bool} (h : Effect t m stored m') : Extends m m' := by
  induction h with
  | refl => exact refl m
  | calm _ hc ih => exact ih.trans (calm hc)
  | start _ hs ih =>
    cases hs with
    | @intro id e n r s he hslot hn hr hn' hr' =>
      exact ih.trans (setExecutor (m := { (_ : QueryManager) with supply := s }) he (.start e n r))
  | store _ hs ih =>
    cases hs with
    | intro result he hl hu ht => exact ih.trans (setExecutor he (.step (.store result hl hu)))

end Extends

theorem Act.extends (h : Act t given b b') : Extends b.manager b'.manager := by
  obtain ⟨stored, hf⟩ := h.effect
  exact .effect hf

theorem Acts.extends (h : Acts t given b b') : Extends b.manager b'.manager := by
  induction h with
  | refl => exact .refl _
  | tail _ hact ih => exact ih.trans hact.extends

/-! ## Taking a lease -/

/-- What an entry of the registry says, but for the number of users. -/
def Registry.Has (r : Registry) (key : QueryKey) (id : InstanceId) : Prop :=
  ∃ c, (key, c) ∈ r.entries ∧ c.object = id

theorem Registry.Has.of_setEntry {r : Registry} {key k : QueryKey} {cnt d : Counted InstanceId}
    (hc : r.entry? key = some cnt) (hobj : d.object = cnt.object)
    (h : (r.setEntry key d).Has k id) : r.Has k id := by
  obtain ⟨x, hx, hid⟩ := h
  obtain ⟨y, hy, hyx⟩ := List.mem_map.1 hx
  split at hyx
  · obtain ⟨rfl, rfl⟩ := Prod.mk.inj hyx
    exact ⟨cnt, LeaseStep.mem_of_entry? hc, hobj.symm.trans hid⟩
  · rw [hyx] at hy
    exact ⟨x, hy, hid⟩

theorem Registry.Has.of_release {r : Registry} {key k : QueryKey} {i : InstanceId}
    (h : (r.release key i).1.Has k id) : r.Has k id := by
  unfold Registry.release at h
  cases hc : r.entry? key with
  | none => simpa [hc] using h
  | some cnt =>
    simp only [hc] at h
    split at h
    · exact h
    cases hd : cnt.decrement? with
    | none => simpa [hd] using h
    | some cnt' =>
      have hobj : cnt'.object = cnt.object := by
        unfold Counted.decrement? at hd
        split at hd
        · simp at hd
        · rw [← Option.some.inj hd]
      simp only [hd] at h
      split at h
      · obtain ⟨x, hx, hid⟩ := h
        exact ⟨x, List.mem_of_mem_filter hx, hid⟩
      · exact h.of_setEntry hc hobj

/-- Every registered key is that of its instance. -/
def Registered (m : QueryManager) : Prop :=
  ∀ key id, m.registry.Has key id → ∃ e, m.executor? id = some e ∧ e.key = key

theorem Registered.mono (h : Registered m) (hx : Extends m m')
    (hr : ∀ key id, m'.registry.Has key id → m.registry.Has key id) : Registered m' := by
  intro key id hhas
  obtain ⟨e, he, hk⟩ := h key id (hr key id hhas)
  obtain ⟨e', he', hext⟩ := hx id e he
  exact ⟨e', he', hext.key.trans hk⟩

/-- **A lease** is on the instance that is registered for its key, or on a new one. -/
theorem acquire_cases (h : Registered m) (spec : QuerySpec) :
    (∃ cnt e, m.registry.entry? spec.key = some cnt ∧ m.executor? cnt.object = some e ∧
      e.key = spec.key ∧ m.acquire spec =
        ({ m with registry := m.registry.setEntry spec.key cnt.increment }, ⟨spec.key, cnt.object⟩)) ∨
    m.registry.entry? spec.key = none ∧ m.acquire spec =
      (({ m with registry := (m.registry.acquire spec.key m.lives.length).1 }.openInstance spec).1,
        ⟨spec.key, m.lives.length⟩) := by
  unfold QueryManager.acquire
  cases hc : m.registry.entry? spec.key with
  | some cnt =>
    obtain ⟨e, he, hk⟩ := h _ _ ⟨cnt, LeaseStep.mem_of_entry? hc, rfl⟩
    have hlt : cnt.object ≠ m.lives.length := by
      obtain ⟨q, hq, -⟩ := QueryManager.executor?_eq_some.1 he
      exact Nat.ne_of_lt (List.getElem?_eq_some_iff.1 hq).1
    refine .inl ⟨cnt, e, rfl, he, hk, ?_⟩
    unfold Registry.acquire
    simp only [hc]
    rw [if_neg hlt]
  | none =>
    refine .inr ⟨rfl, ?_⟩
    have hid : (m.registry.acquire spec.key m.lives.length).2 = m.lives.length := by
      unfold Registry.acquire
      rw [hc]
    simp only [hid, if_true]

theorem executor?_openInstance (m : QueryManager) (spec : QuerySpec) (id : InstanceId) :
    (m.openInstance spec).1.executor? id =
      if id = m.lives.length then some (.ofSpec spec m.cancelled) else m.executor? id := by
  unfold QueryManager.openInstance QueryManager.executor?
  dsimp only
  split
  · rename_i hid
    subst hid
    rw [List.getElem?_append_right (Nat.le_refl _), Nat.sub_self]
    rfl
  · rename_i hne
    rcases Nat.lt_or_ge id m.lives.length with hlt | hge
    · rw [List.getElem?_append_left hlt]
    · have hgt : (m.lives ++ [({ executor := .ofSpec spec m.cancelled } : LiveQuery)]).length ≤ id := by
        rw [List.length_append, List.length_singleton]
        exact Nat.lt_of_le_of_ne hge (Ne.symm hne)
      rw [List.getElem?_eq_none_iff.2 hgt, List.getElem?_eq_none_iff.2 hge]

/-- The instance that was leased is one of the lease's key, and the key is registered with it. -/
theorem Registered.acquire (h : Registered m) (spec : QuerySpec) :
    Registered (m.acquire spec).1 ∧ ∃ e, (m.acquire spec).1.executor? (m.acquire spec).2.id = some e ∧
      e.key = (m.acquire spec).2.key := by
  have hx : Extends m (m.acquire spec).1 := .of_leaseStep (.acquire m spec)
  rcases acquire_cases h spec with ⟨cnt, e, hc, he, hk, hacq⟩ | ⟨hc, hacq⟩
  · rw [hacq] at hx ⊢
    exact ⟨h.mono hx fun key id hhas => .of_setEntry hc (d := cnt.increment) rfl hhas, e, he, hk⟩
  · have hself : (m.acquire spec).1.executor? m.lives.length = some (.ofSpec spec m.cancelled) := by
      rw [hacq, executor?_openInstance, if_pos rfl]
    refine ⟨fun key id hhas => ?_, _, by rw [hacq] at hself ⊢; exact hself, by rw [hacq]; rfl⟩
    rw [show (m.acquire spec).1.registry = (m.registry.acquire spec.key m.lives.length).1 by
      rw [hacq]; rfl] at hhas
    unfold Registry.acquire at hhas
    rw [hc] at hhas
    obtain ⟨x, hxmem, hid⟩ := hhas
    rcases List.mem_append.1 hxmem with hxmem | hxmem
    · obtain ⟨e, he, hk⟩ := h key id ⟨x, hxmem, hid⟩
      obtain ⟨e', he', hext⟩ := hx id e he
      exact ⟨e', he', hext.key.trans hk⟩
    · obtain ⟨rfl, rfl⟩ := Prod.mk.inj (List.mem_singleton.1 hxmem)
      obtain rfl : m.lives.length = id := hid
      exact ⟨_, hself, rfl⟩

/-! ## New executors -/

theorem Opens.of_length (hlen : m'.lives.length ≤ m.lives.length) : Opens t given m m' := by
  intro id e' he' hnone
  obtain ⟨q, hq, -⟩ := QueryManager.executor?_eq_some.1 he'
  have hlt := (List.getElem?_eq_some_iff.1 hq).1
  unfold QueryManager.executor? at hnone
  rw [Option.map_eq_none_iff, List.getElem?_eq_none_iff] at hnone
  omega

theorem Opens.acquire (h : Registered m) (hspec : m.Names t given spec) :
    Opens t given m (m.acquire spec).1 := by
  rcases acquire_cases h spec with ⟨cnt, e, -, -, -, hacq⟩ | ⟨-, hacq⟩ <;> rw [hacq]
  · exact .of_length (Nat.le_refl _)
  · intro id e' he' hnone
    rw [executor?_openInstance] at he'
    split at he'
    · exact ⟨spec, _, (Option.some.inj he').symm, hspec⟩
    · rw [show ({ m with registry := (m.registry.acquire spec.key m.lives.length).1 } : QueryManager).executor? id =
        m.executor? id from rfl, hnone] at he'
      simp at he'

theorem length_lives_closeInstance (m : QueryManager) (id : InstanceId) :
    (m.closeInstance id).1.lives.length = m.lives.length := by
  unfold QueryManager.closeInstance
  split
  · rfl
  · exact List.length_set

theorem length_lives_releaseLease (m : QueryManager) (x : Lease) :
    (m.releaseLease x).1.lives.length = m.lives.length := by
  unfold QueryManager.releaseLease
  simp only
  split
  · exact length_lives_closeInstance _ _
  · rfl

theorem length_lives_setExecutor (m : QueryManager) (id : InstanceId) (e : Executor) :
    (m.setExecutor id e).lives.length = m.lives.length := List.length_modify ..

theorem Act.opens (h : Act t given b b') (hr : Registered b.manager) :
    Opens t given b.manager b'.manager := by
  cases h with
  | acquire spec hspec => exact .acquire hr hspec
  | release x => exact .of_length (Nat.le_of_eq (length_lives_releaseLease _ x))
  | close id _ => exact .of_length (Nat.le_of_eq (length_lives_closeInstance _ id))
  | closeExecutor id _ => exact .of_length (Nat.le_of_eq (List.length_modify ..))
  | cancel => exact .of_length (Nat.le_of_eq (List.length_map ..))
  | start => exact .of_length (Nat.le_of_eq (length_lives_setExecutor ..))
  | call => exact .of_length (Nat.le_of_eq (length_lives_setExecutor ..))
  | reply => exact .of_length (Nat.le_of_eq (length_lives_setExecutor ..))
  | die => exact .of_length (Nat.le_of_eq (length_lives_setExecutor ..))
  | settle => exact .of_length (Nat.le_of_eq (length_lives_setExecutor ..))
  | _ => exact .of_length (Nat.le_refl _)

/-! ## Tasks keep what they have -/

/-- The task at a later point: what it was created with stays, and a caller that has ended stays as
it is. -/
inductive SameTask : Task → Task → Prop where
  | attempt (id : InstanceId) (n : Int) : SameTask (.attempt id n) (.attempt id n)
  | caller {c c' : Caller} (haddr : c'.addressee = c.addressee)
      (hend : ∀ ending, c.stage = .ended ending → c' = c) : SameTask (.caller c) (.caller c')
  | subscription {s s' : Subscription} (hlease : s'.lease = s.lease) (hreact : s'.react = s.react) :
      SameTask (.subscription s) (.subscription s')

namespace SameTask

variable {y z : Task}

theorem refl (x : Task) : SameTask x x := by
  cases x with
  | attempt id n => exact .attempt id n
  | caller c => exact .caller rfl fun _ _ => rfl
  | subscription s => exact .subscription rfl rfl

theorem trans (h : SameTask x y) (h' : SameTask y z) : SameTask x z := by
  cases h with
  | attempt id n => exact h'
  | caller haddr hend =>
    cases h' with
    | caller haddr' hend' =>
      refine .caller (haddr'.trans haddr) fun ending hc => ?_
      have heq := hend ending hc
      subst heq
      exact hend' ending hc
  | subscription hlease hreact =>
    cases h' with
    | subscription hlease' hreact' =>
      exact .subscription (hlease'.trans hlease) (hreact'.trans hreact)

end SameTask

theorem getElem?_setTask (htask : m.tasks[t]? = some x) (y : Task) (u : TaskId) :
    (m.setTask t y).tasks[u]? = if t = u then some y else m.tasks[u]? := by
  have hlt := (List.getElem?_eq_some_iff.1 htask).1
  show (m.tasks.set t y)[u]? = _
  by_cases hu : t = u
  · subst hu
    rw [if_pos rfl, List.getElem?_set_self hlt]
  · rw [if_neg hu, List.getElem?_set_ne hu]

theorem getElem?_spawn (m : QueryManager) (y : Task) (u : TaskId) :
    (m.spawn y).1.tasks[u]? = if u = m.tasks.length then some y else m.tasks[u]? := by
  show (m.tasks ++ [y])[u]? = _
  rcases Nat.lt_trichotomy u m.tasks.length with hlt | rfl | hgt
  · rw [List.getElem?_append_left hlt, if_neg (Nat.ne_of_lt hlt)]
  · rw [List.getElem?_append_right (Nat.le_refl _), Nat.sub_self, if_pos rfl]
    rfl
  · rw [if_neg (Nat.ne_of_gt hgt), List.getElem?_eq_none_iff.2 (Nat.le_of_lt hgt),
      List.getElem?_eq_none_iff.2 (by rw [List.length_append, List.length_singleton]; exact hgt)]

/-- Every task is still there, and has what it had; only the task at work has moved. -/
def TasksKept (t : TaskId) (m m' : QueryManager) : Prop :=
  ∀ u x, m.tasks[u]? = some x → ∃ y, m'.tasks[u]? = some y ∧ SameTask x y ∧ (u ≠ t → y = x)

namespace TasksKept

theorem setTask {x y : Task} (htask : m.tasks[t]? = some x) (hxy : SameTask x y) :
    TasksKept t m (m.setTask t y) := by
  intro u z hz
  rw [getElem?_setTask htask]
  split
  · rename_i hu
    subst hu
    obtain rfl : x = z := Option.some.inj (htask.symm.trans hz)
    exact ⟨y, rfl, hxy, fun hne => absurd rfl hne⟩
  · exact ⟨z, hz, .refl z, fun _ => rfl⟩

theorem spawn (t : TaskId) (m : QueryManager) (y : Task) : TasksKept t m (m.spawn y).1 := by
  intro u x hx
  refine ⟨x, ?_, .refl x, fun _ => rfl⟩
  rw [getElem?_spawn, if_neg (Nat.ne_of_lt (lt_of_task hx))]
  exact hx

end TasksKept

theorem tasks_releaseLease (m : QueryManager) (x : Lease) : (m.releaseLease x).1.tasks = m.tasks := by
  rw [(LeaseStep.releaseLease m x).frame]

theorem tasks_acquire (m : QueryManager) (spec : QuerySpec) : (m.acquire spec).1.tasks = m.tasks := by
  rw [(LeaseStep.acquire m spec).frame]

theorem tasks_closeInstance (m : QueryManager) (id : InstanceId) :
    (m.closeInstance id).1.tasks = m.tasks := by
  rw [(LeaseStep.closeInstance m id).frame]

/-- **Tasks keep what they have.** -/
theorem Act.tasksKept (h : Act t given b b') : TasksKept t b.manager b'.manager := by
  have hsame : ∀ {m m' : QueryManager}, m'.tasks = m.tasks → TasksKept t m m' := by
    intro m m' heq u x hx
    exact ⟨x, by rw [heq]; exact hx, .refl x, fun _ => rfl⟩
  cases h with
  | acquire spec _ => exact hsame (tasks_acquire _ spec)
  | release x => exact hsame (tasks_releaseLease _ x)
  | close id _ => exact hsame (tasks_closeInstance _ id)
  | @start m x f id e n r s he hs hn hr hn' hr' ht =>
    exact .spawn t ({ m with supply := s }.setExecutor id (e.start n r)) _
  | ask addressee block ht hspec hblock => exact .spawn t _ _
  | subscribe he hk react ht => exact .spawn t _ _
  | wait htask hc =>
    exact .setTask htask (.caller rfl fun ending hend => absurd hend (hc ending))
  | finish htask hc hend =>
    exact .setTask htask (.caller rfl fun ending hend => absurd hend (hc ending))
  | look htask hlease hstage hreact he hu => exact .setTask htask (.subscription hlease hreact)
  | complete htask hs hlease hreact he hu => exact .setTask htask (.subscription hlease hreact)
  | fail htask hs hlease hreact he hu => exact .setTask htask (.subscription hlease hreact)
  | _ => exact hsame rfl

/-! ## Tasks refer to what is there -/

/-- The caller waits for an attempt of the instance that it asked, or has got a result of it. -/
structure CallerOK (m : QueryManager) (c : Caller) : Prop where
  waiting : ∀ id n lease, c.stage = .waiting id n lease → m.Asks c id lease ∧
    ∃ e, m.executor? id = some e ∧ ∃ a ∈ e.attempts, a.number = n
  returned : ∀ o, c.stage = .ended (.returned o) →
    ∃ id lease e, m.Asks c id lease ∧ m.executor? id = some e ∧ o ∈ e.results

/-- The subscription follows the instance of its lease. -/
def SubscriptionOK (m : QueryManager) (s : Subscription) : Prop :=
  ∃ e, m.executor? s.lease.id = some e ∧ e.key = s.lease.key ∧
    ∀ o ∈ s.updates.pending, o ∈ e.results

/-- The task refers to what is there. -/
def TaskOK (m : QueryManager) : Task → Prop
  | .attempt id n => ∃ e, m.executor? id = some e ∧ ∃ a ∈ e.attempts, a.number = n
  | .caller c => CallerOK m c
  | .subscription s => SubscriptionOK m s

theorem QueryManager.Asks.mono {lease : Option Lease} (h : m.Asks c id lease) (hx : Extends m m')
    (hc : c'.addressee = c.addressee) : m'.Asks c' id lease := by
  cases h with
  | direct h => exact .direct (hc.trans h)
  | leased h hkey he hk =>
    obtain ⟨e', he', hext⟩ := hx _ _ he
    exact .leased (hc.trans h) hkey he' (hext.key.trans hk)

/-- The instance that a caller with a lease asks is one of its query's key. -/
theorem QueryManager.Asks.key {lease : Option Lease} (h : m.Asks c id lease)
    (hc : c.addressee = .leased spec) (he : m.executor? id = some e) : e.key = spec.key := by
  cases h with
  | direct h => rw [hc] at h; simp at h
  | leased h hkey he' hk =>
    rw [hc] at h
    rw [Addressee.leased.inj h, ← hkey, ← hk, Option.some.inj (he.symm.trans he')]

theorem exists_attempt_mono (hx : ExecutorExt e e') (h : ∃ a ∈ e.attempts, a.number = n) :
    ∃ a ∈ e'.attempts, a.number = n := by
  obtain ⟨a, ha, rfl⟩ := h
  obtain ⟨b, hb, hbn, -⟩ := hx.attempts a ha
  exact ⟨b, hb, hbn⟩

theorem TaskOK.mono (h : TaskOK m x) (hx : Extends m m') : TaskOK m' x := by
  cases x with
  | attempt id n =>
    obtain ⟨e, he, hn⟩ := h
    obtain ⟨e', he', hext⟩ := hx id e he
    exact ⟨e', he', exists_attempt_mono hext hn⟩
  | caller c =>
    refine ⟨fun id n lease hst => ?_, fun o hst => ?_⟩
    · obtain ⟨hasks, e, he, hn⟩ := h.waiting id n lease hst
      obtain ⟨e', he', hext⟩ := hx id e he
      exact ⟨hasks.mono hx rfl, e', he', exists_attempt_mono hext hn⟩
    · obtain ⟨id, lease, e, hasks, he, ho⟩ := h.returned o hst
      obtain ⟨e', he', hext⟩ := hx id e he
      exact ⟨id, lease, e', hasks.mono hx rfl, he', hext.results.mem ho⟩
  | subscription s =>
    obtain ⟨e, he, hk, hu⟩ := h
    obtain ⟨e', he', hext⟩ := hx _ e he
    exact ⟨e', he', hext.key.trans hk, fun o ho => hext.results.mem (hu o ho)⟩

/-! ## All is in its place -/

/-- **All is in its place.** -/
structure Coherent (m : QueryManager) : Prop where
  keyed : ∀ id e, m.executor? id = some e → e.key = e.spec.key
  registered : Registered m
  tasks : ∀ (u : TaskId) (x : Task), m.tasks[u]? = some x → TaskOK m x
  /-- Every attempt has one task. -/
  tasked : ∀ id e, m.executor? id = some e → ∀ a ∈ e.attempts,
    ∃ u : TaskId, m.tasks[u]? = some (.attempt id a.number)
  single : ∀ (u v : TaskId) (id : InstanceId) (n : Int), m.tasks[u]? = some (.attempt id n) → m.tasks[v]? = some (.attempt id n) → u = v

namespace Coherent

theorem caller (h : Coherent m) (htask : m.tasks[t]? = some (.caller c)) : CallerOK m c :=
  h.tasks t _ htask

theorem subscription (h : Coherent m) (htask : m.tasks[t]? = some (.subscription s)) :
    SubscriptionOK m s := h.tasks t _ htask

theorem init (s : Supply) : Coherent { supply := s } := by
  refine ⟨by simp [QueryManager.executor?], ?_, by simp, by simp [QueryManager.executor?], by simp⟩
  rintro key id ⟨c, hc, -⟩
  simp at hc

theorem of_frame (h : Coherent m) (hlives : m'.lives = m.lives) (hreg : m'.registry = m.registry)
    (htasks : m'.tasks = m.tasks) : Coherent m' := by
  have hex : m'.executor? = m.executor? := by
    funext id
    unfold QueryManager.executor?
    rw [hlives]
  have hx : Extends m m' := fun id e he => ⟨e, by rw [hex]; exact he, .refl e⟩
  refine ⟨by rw [hex]; exact h.keyed, ?_, ?_, by rw [hex, htasks]; exact h.tasked,
    by rw [htasks]; exact h.single⟩
  · exact h.registered.mono hx fun key id hhas => by rwa [hreg] at hhas
  · rw [htasks]
    exact fun u x hu => (h.tasks u x hu).mono hx

theorem queued (h : Coherent m) (hq : Queued m m') : Coherent m' := by
  rw [hq.frame]
  exact h.of_frame rfl rfl rfl

theorem taken (h : Coherent m) : Coherent m.taken := h.of_frame rfl rfl rfl

end Coherent

theorem registry_closeInstance (m : QueryManager) (id : InstanceId) :
    (m.closeInstance id).1.registry = m.registry := by
  unfold QueryManager.closeInstance
  split <;> rfl

theorem registry_releaseLease (m : QueryManager) (x : Lease) :
    (m.releaseLease x).1.registry = (m.registry.release x.key x.id).1 := by
  unfold QueryManager.releaseLease
  simp only
  split
  · exact registry_closeInstance _ _
  · rfl

theorem Act.registered (h : Act t given b b') (hr : Registered b.manager) : Registered b'.manager := by
  have hx := h.extends
  cases h with
  | acquire spec _ => exact (hr.acquire spec).1
  | release x =>
    refine hr.mono hx fun key id hhas => ?_
    rw [registry_releaseLease] at hhas
    exact hhas.of_release
  | close i _ =>
    refine hr.mono hx fun key id hhas => ?_
    rwa [registry_closeInstance] at hhas
  | _ => exact hr.mono hx fun key id hhas => hhas

/-! ## What becomes of an attempt -/

/-- How an attempt moves on in an act. -/
inductive Advances (t : TaskId) (given : Input) (m m' : QueryManager) (id : InstanceId)
    (e : Executor) (a : Attempt) : Stage → Prop where
  | call (hst : a.stage = .spawned) (hc : e.closed = false)
      (htask : m.tasks[t]? = some (.attempt id a.number))
      (hnote : Note.called t e.spec a.request ∈ m'.journal) : Advances t given m m' id e a .calling
  | reply {reply : Reply} (hst : a.stage = .calling)
      (htask : m.tasks[t]? = some (.attempt id a.number)) (hg : given.reply = some reply) :
      Advances t given m m' id e a (.answered reply)
  | die {text : String} (hst : a.stage = .answered (.panicked text)) (hc : e.closed = false) :
      Advances t given m m' id e a .dead
  | settle {result : Except Error OperationResult} (hcause : Cause e a result) :
      Advances t given m m' id e a (.settled (e.outcomeOf a result))

/-- **What becomes of attempts in an act:** they stay as they are, or one moves on, or a new one is
started and gets a task. -/
inductive AttemptStep (t : TaskId) (given : Input) (m m' : QueryManager) (id : InstanceId)
    (a' : Attempt) : Prop where
  | same {e : Executor} (he : m.executor? id = some e) (ha : a' ∈ e.attempts)
  | moved {e : Executor} {a : Attempt} {st : Stage} (he : m.executor? id = some e) (ha : a ∈ e.attempts)
      (hmove : Advances t given m m' id e a st) (heq : a' = { a with stage := st })
  | started {e : Executor} {u : TaskId} (he : m.executor? id = some e) (hst : a'.stage = .spawned)
      (hr : m.supply.request < a'.request.index) (hn : m.supply.number < a'.number)
      (htask : m'.tasks[u]? = some (.attempt id a'.number))

theorem AttemptStep.of_setExecutor {f f' : Executor} {i : InstanceId} {a' : Attempt}
    (hf : m.executor? i = some f) (he' : (m.setExecutor i f').executor? id = some e')
    (ha' : a' ∈ e'.attempts)
    (hstep : id = i → a' ∈ f'.attempts → AttemptStep t given m m' id a') :
    AttemptStep t given m m' id a' := by
  by_cases hi : i = id
  · subst hi
    rw [QueryManager.executor?_setExecutor_self hf] at he'
    obtain rfl := Option.some.inj he'
    exact hstep rfl ha'
  · rw [QueryManager.executor?_setExecutor_ne hi] at he'
    exact .same he' ha'

/-- The youngest attempt moved on, and the others stayed as they are. -/
theorem AttemptStep.of_head {f f' : Executor} {a a' : Attempt} {rest : List Attempt} {st : Stage}
    (hf : m.executor? id = some f) (hl : f.attempts = a :: rest)
    (hl' : f'.attempts = { a with stage := st } :: rest) (hmove : Advances t given m m' id f a st)
    (ha' : a' ∈ f'.attempts) : AttemptStep t given m m' id a' := by
  rw [hl'] at ha'
  rcases List.mem_cons.1 ha' with rfl | ha'
  · exact .moved hf (by rw [hl]; exact List.mem_cons_self) hmove rfl
  · exact .same hf (by rw [hl]; exact List.mem_cons_of_mem _ ha')

/-- **What becomes of attempts in an act.** -/
theorem Act.attempt_cases (h : Act t given b b') (hr : Registered b.manager) {a' : Attempt}
    (he' : b'.manager.executor? id = some e') (ha' : a' ∈ e'.attempts) :
    AttemptStep t given b.manager b'.manager id a' := by
  have hopens := h.opens hr
  -- where no attempt moves
  have hrest : LeaseStep b.manager b'.manager → AttemptStep t given b.manager b'.manager id a' := by
    intro hl
    cases he : b.manager.executor? id with
    | none =>
      obtain ⟨spec, closed, rfl, -⟩ := hopens id e' he' he
      simp [Executor.ofSpec] at ha'
    | some e =>
      obtain ⟨e₁, he₁, h₁⟩ := hl.kept id e he
      obtain rfl := Option.some.inj (he'.symm.trans he₁)
      rcases h₁ with rfl | rfl
      · exact .same he ha'
      · exact .same he ha'
  cases h with
  | acquire spec _ => exact hrest (.acquire _ spec)
  | release x => exact hrest (.releaseLease _ x)
  | close i _ => exact hrest (.closeInstance _ i)
  | closeExecutor i _ => exact hrest (.closeExecutor _ i)
  | @cancel m x f =>
    have hl := LeaseStep.closeAll m
    cases he : m.executor? id with
    | none =>
      obtain ⟨spec, closed, rfl, -⟩ := hopens id e' he' he
      simp [Executor.ofSpec] at ha'
    | some e =>
      obtain ⟨e₁, he₁, h₁⟩ := hl.kept id e he
      obtain rfl := Option.some.inj (he'.symm.trans he₁)
      rcases h₁ with rfl | rfl
      · exact .same he ha'
      · exact .same he ha'
  | @start m x f i g n r s hg hs hn hreq hn' hr' ht =>
    have hg' : ({ m with supply := s } : QueryManager).executor? i = some g := hg
    by_cases hi : i = id
    · subst hi
      have hself := QueryManager.executor?_setExecutor_self hg' (g.start n r)
      obtain rfl := Option.some.inj (he'.symm.trans hself)
      rcases List.mem_cons.1 ha' with rfl | ha'
      · refine .started (u := m.tasks.length) hg rfl hreq hn ?_
        exact (getElem?_spawn _ _ _).trans (if_pos rfl)
      · exact .same hg ha'
    · exact .same ((QueryManager.executor?_setExecutor_ne hi _).symm.trans he') ha'
  | call hf hl hst hc htask hq =>
    refine .of_setExecutor hf he' ha' fun hi ha' => ?_
    subst hi
    exact .of_head hf hl rfl (.call hst hc htask (List.mem_append_right _ List.mem_cons_self)) ha'
  | reply hf hl hst htask hg =>
    refine .of_setExecutor hf he' ha' fun hi ha' => ?_
    subst hi
    exact .of_head hf hl rfl (.reply hst htask hg) ha'
  | die hf hl hst hc =>
    refine .of_setExecutor hf he' ha' fun hi ha' => ?_
    subst hi
    exact .of_head hf hl rfl (.die hst hc) ha'
  | settle hf hl hcause ht =>
    refine .of_setExecutor hf he' ha' fun hi ha' => ?_
    subst hi
    exact .of_head hf hl rfl (.settle hcause) ha'
  | _ => exact .same he' ha'

/-! ## What becomes of a task -/

/-- **What becomes of tasks in an act:** they stay as they are, or the task at work moves on, or one
is added. -/
inductive TaskStep (given : Input) (m m' : QueryManager) (u : TaskId) : Task → Prop where
  | same {x : Task} (hx : m.tasks[u]? = some x) : TaskStep given m m' u x
  | attempt {id : InstanceId} {n : Int} (hu : u = m.tasks.length) (hn : m.supply.number < n)
      (h : TaskOK m' (.attempt id n)) : TaskStep given m m' u (.attempt id n)
  | caller {c : Caller} (h : CallerOK m' c)
      (hsame : (∃ c₀, m.tasks[u]? = some (.caller c₀) ∧ c.addressee = c₀.addressee ∧
          c.block = c₀.block) ∨
        (∀ spec, c.addressee = .leased spec → given.query = some spec) ∧
          (c.block.closes → given.closes)) : TaskStep given m m' u (.caller c)
  | subscription {s : Subscription} (h : SubscriptionOK m' s) : TaskStep given m m' u (.subscription s)

theorem TaskStep.of_setTask {y z : Task} (htask : m.tasks[t]? = some x)
    (hz : (m.setTask t y).tasks[u]? = some z) (hy : TaskStep given m m' t y) :
    TaskStep given m m' u z := by
  rw [getElem?_setTask htask] at hz
  split at hz
  · rename_i hu
    rwa [← hu, ← Option.some.inj hz]
  · exact .same hz

theorem TaskStep.of_spawn {q : QueryManager} {y z : Task} (htasks : q.tasks = m.tasks)
    (hz : (q.spawn y).1.tasks[u]? = some z) (hy : u = m.tasks.length → TaskStep given m m' u y) :
    TaskStep given m m' u z := by
  rw [getElem?_spawn, htasks] at hz
  split at hz
  · rw [← Option.some.inj hz]
    exact hy ‹_›
  · exact .same hz

/-- A subscription follows the same instance as before. -/
theorem SubscriptionOK.of_lease {s' : Subscription} (h : SubscriptionOK m s)
    (hlease : s'.lease = s.lease) (he : m.executor? s.lease.id = some e)
    (hu : ∀ o ∈ s'.updates.pending, o ∈ e.results) : SubscriptionOK m s' := by
  obtain ⟨f, hf, hk, -⟩ := h
  obtain rfl := Option.some.inj (he.symm.trans hf)
  exact ⟨e, by rw [hlease]; exact he, by rw [hlease]; exact hk, hu⟩

/-- **What becomes of tasks in an act.** -/
theorem Act.task_cases (h : Act t given b b') (hc : Coherent b.manager) (hok : ManagerOK b.manager)
    {y : Task} (hy : b'.manager.tasks[u]? = some y) : TaskStep given b.manager b'.manager u y := by
  have hx := h.extends
  have hsub : ∀ {s w : Subscription} {e : Executor}, b.manager.tasks[t]? = some (.subscription s) →
      w.lease = s.lease → b.manager.executor? s.lease.id = some e →
      (∀ o ∈ w.updates.pending, o ∈ e.results) → SubscriptionOK b'.manager w := by
    intro s w e htask hlease he hu
    exact TaskOK.mono (x := .subscription w) ((hc.subscription htask).of_lease hlease he hu) hx
  cases h with
  | acquire spec _ => rw [tasks_acquire] at hy; exact .same hy
  | release x => rw [tasks_releaseLease] at hy; exact .same hy
  | close id _ => rw [tasks_closeInstance] at hy; exact .same hy
  | @start m x f id e n r s he hs hn hr hn' hr' ht =>
    refine .of_spawn (q := { m with supply := s }.setExecutor id (e.start n r)) rfl hy fun hu => ?_
    exact .attempt hu hn ⟨_, QueryManager.executor?_setExecutor_self (m := { m with supply := s }) he _,
      _, List.mem_cons_self, rfl⟩
  | ask addressee block ht hspec hblock =>
    exact .of_spawn rfl hy fun hu => .caller ⟨by simp, by simp⟩ (.inr ⟨hspec, hblock⟩)
  | subscribe he hk react ht =>
    refine .of_spawn rfl hy fun hu => .subscription ⟨_, he, hk, fun o ho => ?_⟩
    exact mem_results_of_replay (hok.executor he) ho
  | wait htask hpend hasks he ha hwait =>
    refine .of_setTask htask hy (.caller ⟨fun id n lease hst => ?_, by simp⟩ (.inl ⟨_, htask, rfl, rfl⟩))
    obtain ⟨rfl, rfl, rfl⟩ := CallerStage.waiting.inj hst
    exact ⟨hasks.mono hx rfl, _, he, _, ha, rfl⟩
  | finish htask hpend hend =>
    refine .of_setTask htask hy (.caller ⟨by simp, fun o hst => ?_⟩ (.inl ⟨_, htask, rfl, rfl⟩))
    cases hend with
    | returned hasks he ho hwait =>
      rw [← Ending.returned.inj (CallerStage.ended.inj hst)]
      exact ⟨_, _, _, hasks.mono hx rfl, he, ho⟩
    | _ => simp at hst
  | look htask hlease hstage hreact he hu =>
    exact .of_setTask htask hy (.subscription (hsub htask hlease he hu))
  | @complete m s s' e htask hs hlease hreact he hu =>
    exact .of_setTask htask hy
      (.subscription (hsub (w := { s' with stage := .completed }) htask hlease he hu))
  | @fail m s s' e text htask hs hlease hreact he hu =>
    exact .of_setTask htask hy
      (.subscription (hsub (w := { s' with stage := .panicked text }) htask hlease he hu))
  | _ => exact .same hy

/-- **Every act keeps all in its place.** -/
theorem Act.coherent (h : Act t given b b') (hc : Coherent b.manager) (hok : ManagerOK b.manager) :
    Coherent b'.manager := by
  have hx := h.extends
  refine ⟨fun id e' he' => ?_, h.registered hc.registered, fun u y hy => ?_, fun id e' he' a' ha' => ?_,
    fun u v id n hu hv => ?_⟩
  · cases he : b.manager.executor? id with
    | none =>
      obtain ⟨spec, closed, rfl, -⟩ := h.opens hc.registered id e' he' he
      rfl
    | some e =>
      obtain ⟨e₁, he₁, hext⟩ := hx id e he
      obtain rfl := Option.some.inj (he'.symm.trans he₁)
      rw [hext.key, hext.spec]
      exact hc.keyed id e he
  · cases h.task_cases hc hok hy with
    | same hold => exact (hc.tasks u y hold).mono hx
    | attempt _ _ hnew => exact hnew
    | caller hnew _ => exact hnew
    | subscription hnew => exact hnew
  · have hkept : ∀ {e : Executor} {a : Attempt}, b.manager.executor? id = some e → a ∈ e.attempts →
        ∃ u : TaskId, b'.manager.tasks[u]? = some (.attempt id a.number) := by
      intro e a he ha
      obtain ⟨u, hu⟩ := hc.tasked id e he a ha
      obtain ⟨y, hy, hsame, -⟩ := h.tasksKept u _ hu
      cases hsame
      exact ⟨u, hy⟩
    cases h.attempt_cases hc.registered he' ha' with
    | same he ha => exact hkept he ha
    | moved he ha _ heq =>
      obtain ⟨u, hu⟩ := hkept he ha
      exact ⟨u, by rw [heq]; exact hu⟩
    | started _ _ _ _ htask => exact ⟨_, htask⟩
  · -- the task of a new attempt has a number above those of the tasks before
    have hnum : ∀ {u : TaskId}, b.manager.tasks[u]? = some (.attempt id n) → n ≤ b.manager.supply.number :=
      fun hold => hok.numbered id n (List.mem_of_getElem? hold)
    cases h.task_cases hc hok hu with
    | same hu =>
      cases h.task_cases hc hok hv with
      | same hv => exact hc.single u v id n hu hv
      | attempt _ hn _ => exact absurd (hnum hu) (Int.not_le.2 hn)
    | attempt hlen hn _ =>
      cases h.task_cases hc hok hv with
      | same hv => exact absurd (hnum hv) (Int.not_le.2 hn)
      | attempt hlen' _ _ => exact hlen.trans hlen'.symm

theorem Acts.coherent (h : Acts t given b b') (hc : Coherent b.manager) (hok : ManagerOK b.manager) :
    Coherent b'.manager := by
  induction h with
  | refl => exact hc
  | tail hacts hact ih => exact hact.coherent ih (Acts.ok hacts hok)

end QueryClient
