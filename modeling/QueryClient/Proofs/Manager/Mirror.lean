import Mathlib.Data.List.Basic
import Mathlib.Logic.Function.Basic
import QueryClient.Proofs.Executor.Renaming
import QueryClient.Proofs.Manager.Apart

/-!
# A manager without one key

Two managers are in step when all that concerns other keys than a given one is the same in both, under
other names. What tasks do for other keys keeps them in step.

* `Renaming.TaskLike`: tasks that are the same under other names.
* `Renaming.Mirrors`: **two managers are in step,** but for one key.
* `Renaming.Covers`: what is new has another name.
* `next_name`: what is next in both has the same name.
* `Mirrors.releaseLease`, …, `Mirrors.runTask`: what a task does keeps them in step.
-/

namespace QueryClient

namespace Renaming

/-! ## Everything under other names -/

def lease (g : Renaming) (x : Lease) : Lease := { x with id := g.inst x.id }

def addressee (g : Renaming) : Addressee → Addressee
  | .direct id => .direct (g.inst id)
  | .leased spec => .leased spec

def ending (g : Renaming) : Ending NumberedOutcome → Ending NumberedOutcome
  | .returned o => .returned (g.numbered o)
  | .panicked text => .panicked text
  | .dropped => .dropped

def callerStage (g : Renaming) : CallerStage → CallerStage
  | .arriving => .arriving
  | .waiting id n x => .waiting (g.inst id) (g.number n) (x.map g.lease)
  | .ended ending => .ended (g.ending ending)

def caller (g : Renaming) (c : Caller) : Caller :=
  { addressee := g.addressee c.addressee, block := c.block, stage := g.callerStage c.stage }

/-- A subscription whose handlers react to results under other names. -/
def subscription (g : Renaming) (s : Subscription) (react : Delivery → Reaction) : Subscription :=
  { s with lease := g.lease s.lease, updates := g.updates s.updates, react }

def note (g : Renaming) : Note → Note
  | .called t spec r => .called (g.task t) spec (g.requestId r)
  | .warned text => .warned text
  | .failed text => .failed text
  | .ended t ending => .ended (g.task t) (g.ending ending)
  | .handed t d => .handed (g.task t) (g.delivery d)
  | .completed t => .completed (g.task t)

def live (g : Renaming) (q : LiveQuery) : LiveQuery := { q with executor := g.executor q.executor }

def counted (g : Renaming) (c : Counted InstanceId) : Counted InstanceId :=
  { c with object := g.inst c.object }

/-- The task that has the given name now. -/
noncomputable def origin? (g : Renaming) (t : TaskId) : Option TaskId := Function.partialInv g.task t

/-- The note is about a task that has another name. -/
noncomputable def sees (g : Renaming) (n : Note) : Bool := n.task?.any fun t => (g.origin? t).isSome

/-- **Tasks that are the same under other names,** and do not concern the key. -/
inductive TaskLike (g : Renaming) (keys : InstanceId → Option QueryKey) (key : QueryKey) :
    Task → Task → Prop where
  | attempt (id : InstanceId) (n : Int) :
      TaskLike g keys key (.attempt id n) (.attempt (g.inst id) (g.number n))
  | caller (c : Caller) (haddr : (g.addressee c.addressee).key? keys ≠ some key)
      (hlease : ∀ x ∈ c.lease?, x.key ≠ key) :
      TaskLike g keys key (.caller c) (.caller (g.caller c))
  | subscription (s : Subscription) (react : Delivery → Reaction)
      (hreact : s.react = fun d => react (g.delivery d)) (hkey : s.lease.key ≠ key) :
      TaskLike g keys key (.subscription s) (.subscription (g.subscription s react))

/-- **Two managers are in step,** but for what concerns the key. -/
structure Mirrors (g : Renaming) (keys : InstanceId → Option QueryKey) (key : QueryKey) (m' m : QueryManager) :
    Prop where
  cancelled : m'.cancelled = m.cancelled
  supply : g.Level m'.supply m.supply
  lives : ∀ i, m.lives[g.inst i]? = (m'.lives[i]?).map g.live
  others : ∀ (i : InstanceId) (q : LiveQuery), m'.lives[i]? = some q → q.key ≠ key
  length : ∀ t, t < m'.tasks.length ↔ g.task t < m.tasks.length
  tasks : ∀ (t : TaskId) (x' : Task), m'.tasks[t]? = some x' →
    ∃ x, m.tasks[g.task t]? = some x ∧ g.TaskLike keys key x' x
  registry : ∀ k, k ≠ key → m.registry.entry? k = (m'.registry.entry? k).map g.counted
  queue : m.queue.filterMap g.origin? = m'.queue
  journal : m.journal.filter g.sees = (m'.journal.filter fun n => n.task?.isSome).map g.note

/-- What is new in the second manager has another name. -/
structure Covers (g : Renaming) (m m₁ : QueryManager) : Prop where
  supply : g.Names m.supply m₁.supply
  inst : ∀ j, m.lives.length ≤ j → j < m₁.lives.length → ∃ i, g.inst i = j
  task : ∀ j, m.tasks.length ≤ j → j < m₁.tasks.length → ∃ i, g.task i = j

variable {g : Renaming} {keys : InstanceId → Option QueryKey} {key : QueryKey} {m' m m₁ m₂ : QueryManager}
variable {t u : TaskId} {id : InstanceId} {e : Executor} {c : Caller} {x x' : Task} {s : Subscription}

theorem origin?_eq_some : g.origin? u = some t ↔ g.task t = u :=
  Function.Injective.isPartialInv g.task.injective _ _

@[simp] theorem origin?_task (g : Renaming) (t : TaskId) : g.origin? (g.task t) = some t :=
  origin?_eq_some.2 rfl

theorem live_close (g : Renaming) (q : LiveQuery) : (g.live q).close = (g.live q.close.1, q.close.2) := by
  obtain ⟨e, closed⟩ := q
  cases closed <;> rfl

/-- What is there has a name that is there. -/
theorem lt_length_iff {α β : Type} {f : ℕ → ℕ} {xs : List α} {ys : List β} {h : α → β}
    (hget : ∀ i, ys[f i]? = (xs[i]?).map h) (i : ℕ) : i < xs.length ↔ f i < ys.length := by
  rw [← not_iff_not, Nat.not_lt, Nat.not_lt, ← List.getElem?_eq_none_iff, ← List.getElem?_eq_none_iff,
    hget, Option.map_eq_none_iff]

/-- The next name, when there is one for what comes next. -/
theorem next_name (f : ℕ ↪o ℕ) {a b : ℕ} (h : ∀ i, i < a ↔ f i < b) (hname : ∃ i, f i = b) : f a = b := by
  obtain ⟨i, hi⟩ := hname
  have hle : a ≤ i := Nat.le_of_not_lt fun hlt => by
    have := (h i).1 hlt
    omega
  rcases Nat.lt_or_ge a i with hlt | hge
  · have hbelow : f a < f i := f.lt_iff_lt.2 hlt
    have := (h a).2 (by omega)
    omega
  · rw [← hi, Nat.le_antisymm hge hle]

namespace Covers

/-- A new task has another name. -/
theorem spawn (h : g.Covers m (m.spawn x).1) : ∃ i, g.task i = m.tasks.length :=
  h.task _ (Nat.le_refl _) (lt_length_spawn m x)

/-- What is new after a part of what happens. -/
theorem left (h : g.Covers m m₂) (hg : Grows m₁ m₂) : g.Covers m m₁ :=
  ⟨⟨fun n hn hle => h.supply.number n hn (hle.trans hg.number),
      fun r hr hle => h.supply.request r hr (hle.trans hg.request)⟩,
    fun j hj hlt => h.inst j hj (hlt.trans_le hg.lives), fun j hj hlt => h.task j hj (hlt.trans_le hg.tasks)⟩

/-- What is new after the rest of what happens. -/
theorem right (h : g.Covers m m₂) (hg : Grows m m₁) : g.Covers m₁ m₂ :=
  ⟨⟨fun n hn hle => h.supply.number n (hg.number.trans_lt hn) hle,
      fun r hr hle => h.supply.request r (hg.request.trans_lt hr) hle⟩,
    fun j hj hlt => h.inst j (hg.lives.trans hj) hlt, fun j hj hlt => h.task j (hg.tasks.trans hj) hlt⟩

end Covers

namespace Mirrors

/-! ## The parts of the state -/

theorem executor? (h : g.Mirrors keys key m' m) (id : InstanceId) :
    m.executor? (g.inst id) = (m'.executor? id).map g.executor := by
  unfold QueryManager.executor?
  rw [h.lives]
  cases m'.lives[id]? <;> rfl

theorem key_ne (h : g.Mirrors keys key m' m) (he : m'.executor? id = some e) : e.key ≠ key := by
  obtain ⟨q, hq, rfl⟩ := QueryManager.executor?_eq_some.1 he
  exact h.others id q hq

theorem lives_length (h : g.Mirrors keys key m' m) (i : InstanceId) :
    i < m'.lives.length ↔ g.inst i < m.lives.length := lt_length_iff h.lives i

theorem no_task (h : g.Mirrors keys key m' m) (ht : m'.tasks[t]? = none) : m.tasks[g.task t]? = none := by
  rw [List.getElem?_eq_none_iff] at ht ⊢
  have := h.length t
  omega

theorem setTask (h : g.Mirrors keys key m' m) (t : TaskId) (hx : g.TaskLike keys key x' x) :
    g.Mirrors keys key (m'.setTask t x') (m.setTask (g.task t) x) := by
  refine ⟨h.cancelled, h.supply, h.lives, h.others, fun u => ?_, fun u y' hy' => ?_, h.registry, h.queue,
    h.journal⟩
  · show u < (m'.tasks.set t x').length ↔ g.task u < (m.tasks.set (g.task t) x).length
    rw [List.length_set, List.length_set]
    exact h.length u
  · have hset : (m'.tasks.set t x')[u]? = some y' := hy'
    show ∃ y, (m.tasks.set (g.task t) x)[g.task u]? = some y ∧ _
    rw [List.getElem?_set] at hset ⊢
    by_cases htu : t = u
    · subst htu
      rw [if_pos rfl] at hset ⊢
      split at hset
      · rename_i hlt
        rw [if_pos ((h.length t).1 hlt), ← Option.some.inj hset]
        exact ⟨x, rfl, hx⟩
      · simp at hset
    · rw [if_neg htu] at hset
      rw [if_neg fun heq => htu (g.task.injective heq)]
      exact h.tasks u y' hset

/-- Live queries change alike. -/
theorem of_lives (h : g.Mirrors keys key m' m) {lives' lives : List LiveQuery}
    (hlives : ∀ i, lives[g.inst i]? = (lives'[i]?).map g.live)
    (hothers : ∀ (i : InstanceId) (q : LiveQuery), lives'[i]? = some q → q.key ≠ key) :
    g.Mirrors keys key { m' with lives := lives' } { m with lives } :=
  ⟨h.cancelled, h.supply, hlives, hothers, h.length, h.tasks, h.registry, h.queue, h.journal⟩

/-- The same live query changes alike. -/
theorem of_modify (h : g.Mirrors keys key m' m) (id : InstanceId) {f' f : LiveQuery → LiveQuery}
    (hf : ∀ q, f (g.live q) = g.live (f' q)) (hkey : ∀ q, q.key ≠ key → (f' q).key ≠ key) :
    g.Mirrors keys key { m' with lives := m'.lives.modify id f' }
      { m with lives := m.lives.modify (g.inst id) f } := by
  refine h.of_lives (fun i => ?_) fun i q hq => ?_
  · rw [List.getElem?_modify, List.getElem?_modify, h.lives i]
    by_cases hi : id = i
    · subst hi
      cases m'.lives[id]? <;> simp [hf]
    · have hne : g.inst id ≠ g.inst i := fun heq => hi (g.inst.injective heq)
      cases m'.lives[i]? <;> simp [hi, hne]
  · rw [List.getElem?_modify] at hq
    obtain ⟨p, hp, hpq⟩ := Option.map_eq_some_iff.1 hq
    have hother := h.others i p hp
    split at hpq
    · rw [← hpq]
      exact hkey p hother
    · rw [← hpq]
      exact hother

theorem setExecutor (h : g.Mirrors keys key m' m) (id : InstanceId) (he : e.key ≠ key) :
    g.Mirrors keys key (m'.setExecutor id e) (m.setExecutor (g.inst id) (g.executor e)) :=
  h.of_modify id (fun _ => rfl) fun _ _ => he

/-- Something is noted of a task. -/
theorem note (h : g.Mirrors keys key m' m) {n : Note} {t : TaskId} (hn : n.task? = some t) :
    g.Mirrors keys key (m'.note n) (m.note (g.note n)) := by
  refine ⟨h.cancelled, h.supply, h.lives, h.others, h.length, h.tasks, h.registry, h.queue, ?_⟩
  have htask : (g.note n).task? = some (g.task t) := by
    cases n <;> simp_all [Note.task?, Renaming.note]
  have hsees : g.sees (g.note n) = true := by
    unfold sees
    rw [htask]
    simp
  unfold QueryManager.note
  simp only [List.filter_append, List.map_append, h.journal]
  simp [hsees, hn]

/-- What is wrong is noted of no task. -/
theorem remark (h : g.Mirrors keys key m' m) {n n' : Note} (hn : n.task? = none) (hn' : n'.task? = none) :
    g.Mirrors keys key (m'.note n') (m.note n) := by
  refine ⟨h.cancelled, h.supply, h.lives, h.others, h.length, h.tasks, h.registry, h.queue, ?_⟩
  have hsees : g.sees n = false := by
    unfold sees
    rw [hn]
    rfl
  unfold QueryManager.note
  simp only [List.filter_append, List.map_append, h.journal]
  simp [hsees, hn']

theorem spawn (h : g.Mirrors keys key m' m) (hx : g.TaskLike keys key x' x)
    (hname : ∃ i, g.task i = m.tasks.length) : g.Mirrors keys key (m'.spawn x').1 (m.spawn x).1 := by
  have hnext := next_name g.task h.length hname
  refine ⟨h.cancelled, h.supply, h.lives, h.others, fun u => ?_, fun u y' hy' => ?_, h.registry, ?_, h.journal⟩
  · show u < (m'.tasks ++ [x']).length ↔ g.task u < (m.tasks ++ [x]).length
    rw [List.length_append, List.length_append, List.length_singleton, List.length_singleton, ← hnext,
      Nat.lt_succ_iff, Nat.lt_succ_iff]
    exact g.task.le_iff_le.symm
  · rw [getElem?_spawn] at hy' ⊢
    by_cases hu : u = m'.tasks.length
    · rw [if_pos hu] at hy'
      rw [hu, if_pos hnext, ← Option.some.inj hy']
      exact ⟨x, rfl, hx⟩
    · rw [if_neg hu] at hy'
      rw [if_neg fun heq => hu (g.task.injective (heq.trans hnext.symm))]
      exact h.tasks u y' hy'
  · show (m.queue ++ [m.tasks.length]).filterMap g.origin? = m'.queue ++ [m'.tasks.length]
    rw [List.filterMap_append, h.queue, ← hnext]
    simp

/-! ## Leases -/

theorem closeInstance (h : g.Mirrors keys key m' m) (id : InstanceId) :
    g.Mirrors keys key (m'.closeInstance id).1 (m.closeInstance (g.inst id)).1 ∧
      (m.closeInstance (g.inst id)).2 = (m'.closeInstance id).2 := by
  unfold QueryManager.closeInstance
  rw [h.lives]
  cases hq : m'.lives[id]? with
  | none => exact ⟨h, rfl⟩
  | some q =>
    have hkey : q.close.1.key = q.key := by
      unfold LiveQuery.close
      split <;> rfl
    have hlt := (List.getElem?_eq_some_iff.1 hq).1
    simp only [Option.map_some, live_close]
    refine ⟨h.of_lives (fun i => ?_) fun i p hp => ?_, trivial⟩
    · rw [List.getElem?_set, List.getElem?_set, h.lives]
      by_cases hi : id = i
      · subst hi
        rw [if_pos rfl, if_pos rfl, if_pos hlt, if_pos ((h.lives_length id).1 hlt)]
        rfl
      · rw [if_neg hi, if_neg fun heq => hi (g.inst.injective heq)]
    · rw [List.getElem?_set] at hp
      split at hp
      · rw [← Option.some.inj hp, hkey]
        exact h.others id q hq
      · exact h.others i p hp

/-- The registry changes alike. -/
theorem of_registry (h : g.Mirrors keys key m' m) {r' r : Registry}
    (hr : ∀ k, k ≠ key → r.entry? k = (r'.entry? k).map g.counted) :
    g.Mirrors keys key { m' with registry := r' } { m with registry := r } :=
  ⟨h.cancelled, h.supply, h.lives, h.others, h.length, h.tasks, hr, h.queue, h.journal⟩

end Mirrors

/-- One user less, in both registries. -/
theorem registry_release {r' r : Registry} (hr : ∀ k, k ≠ key → r.entry? k = (r'.entry? k).map g.counted)
    {x : Lease} (hx : x.key ≠ key) :
    (r.release x.key (g.inst x.id)).2 = (r'.release x.key x.id).2 ∧
      ∀ k, k ≠ key → Registry.entry? (r.release x.key (g.inst x.id)).1 k =
        (Registry.entry? (r'.release x.key x.id).1 k).map g.counted := by
  unfold Registry.release
  -- the same check decides in both: names are equal when what they stand for is
  cases hc' : r'.entry? x.key with
  | none =>
    have hc : r.entry? x.key = none := by rw [hr _ hx, hc']; rfl
    simp only [hc]
    exact ⟨trivial, hr⟩
  | some c' =>
    have hc : r.entry? x.key = some (g.counted c') := by rw [hr _ hx, hc']; rfl
    simp only [hc]
    have hobj : (g.counted c').object ≠ g.inst x.id ↔ c'.object ≠ x.id :=
      not_congr g.inst.injective.eq_iff
    by_cases hne : c'.object ≠ x.id
    · rw [if_pos hne, if_pos (hobj.2 hne)]
      exact ⟨rfl, hr⟩
    rw [if_neg hne, if_neg fun hfull => hne (hobj.1 hfull)]
    unfold Counted.decrement?
    rw [show (g.counted c').count = c'.count from rfl]
    by_cases hzero : c'.count = 0
    · simp only [hzero, if_true]
      exact ⟨trivial, hr⟩
    simp only [hzero, if_false]
    by_cases hlast : c'.count - 1 = 0
    · simp only [hlast, if_true]
      refine ⟨trivial, fun k hk => ?_⟩
      rw [Registry.entry?_remove, Registry.entry?_remove]
      split
      · rfl
      · exact hr k hk
    · simp only [hlast, if_false]
      refine ⟨trivial, fun k hk => ?_⟩
      rw [Registry.entry?_setEntry hc, Registry.entry?_setEntry hc']
      split
      · rfl
      · exact hr k hk

namespace Mirrors

theorem releaseLease (h : g.Mirrors keys key m' m) {x : Lease} (hx : x.key ≠ key) :
    g.Mirrors keys key (m'.releaseLease x).1 (m.releaseLease (g.lease x)).1 ∧
      (m.releaseLease (g.lease x)).2 = (m'.releaseLease x).2 := by
  obtain ⟨houtcome, hentries⟩ := registry_release h.registry hx
  have hreg := h.of_registry hentries
  unfold QueryManager.releaseLease
  simp only [show (g.lease x).key = x.key from rfl, show (g.lease x).id = g.inst x.id from rfl, houtcome]
  split
  · obtain ⟨hclosed, hopen⟩ := hreg.closeInstance x.id
    refine ⟨hclosed, ?_⟩
    rw [hopen]
  · exact ⟨hreg, rfl⟩

theorem releaseLease? (h : g.Mirrors keys key m' m) {x : Option Lease} (hx : ∀ y ∈ x, y.key ≠ key) :
    g.Mirrors keys key (m'.releaseLease? x).1 (m.releaseLease? (x.map g.lease)).1 ∧
      (m.releaseLease? (x.map g.lease)).2 = (m'.releaseLease? x).2 := by
  cases x with
  | none => exact ⟨h, rfl⟩
  | some y => exact h.releaseLease (hx y rfl)

/-- A live query is opened in both. -/
theorem push (h : g.Mirrors keys key m' m) {q : LiveQuery} (hq : q.key ≠ key)
    (hname : ∃ i, g.inst i = m.lives.length) :
    g.Mirrors keys key { m' with lives := m'.lives ++ [q] } { m with lives := m.lives ++ [g.live q] } := by
  have hnext : g.inst m'.lives.length = m.lives.length := next_name g.inst h.lives_length hname
  refine h.of_lives (fun i => ?_) fun i p hp => ?_
  · have hi := h.lives_length i
    rcases Nat.lt_trichotomy i m'.lives.length with hlt | rfl | hgt
    · rw [List.getElem?_append_left hlt, List.getElem?_append_left (hi.1 hlt)]
      exact h.lives i
    · rw [hnext, List.getElem?_concat_length, List.getElem?_concat_length]
      rfl
    · have hbeyond : m.lives.length < g.inst i := by
        rw [← hnext]
        exact g.inst.lt_iff_lt.2 hgt
      rw [List.getElem?_eq_none_iff.2 (by rw [List.length_append]; exact hbeyond),
        List.getElem?_eq_none_iff.2 (by rw [List.length_append]; exact hgt)]
      rfl
  · rcases List.mem_append.1 (List.mem_of_getElem? hp) with hmem | hmem
    · obtain ⟨j, hj⟩ := List.mem_iff_getElem?.1 hmem
      exact h.others j p hj
    · rw [List.mem_singleton.1 hmem]
      exact hq

/-- A lease is taken on the live query that is registered in both, or on one that is new in both. -/
theorem acquire (h : g.Mirrors keys key m' m) (hr' : Registered m') (hr : Registered m) {spec : QuerySpec}
    (hkey : spec.key ≠ key) (hnew : g.Covers m (m.acquire spec).1) :
    g.Mirrors keys key (m'.acquire spec).1 (m.acquire spec).1 ∧
      (m.acquire spec).2 = g.lease (m'.acquire spec).2 := by
  have hentry := h.registry _ hkey
  -- the key is registered in both, or in neither
  rcases acquire_cases hr' spec with ⟨c', e', hc', -, -, hacq'⟩ | ⟨hc', hacq'⟩
  · rw [hc'] at hentry
    rcases acquire_cases hr spec with ⟨c, e, hc, -, -, hacq⟩ | ⟨hc, -⟩
    · obtain rfl : c = g.counted c' := Option.some.inj (hc.symm.trans hentry)
      rw [hacq', hacq]
      refine ⟨h.of_registry fun k hk => ?_, rfl⟩
      rw [Registry.entry?_setEntry hc, Registry.entry?_setEntry hc']
      split
      · rfl
      · exact h.registry k hk
    · simp [hc] at hentry
  · rw [hc'] at hentry
    rcases acquire_cases hr spec with ⟨c, e, hc, -, -, -⟩ | ⟨hc, hacq⟩
    · simp [hc] at hentry
    have hlen : (m.acquire spec).1.lives.length = m.lives.length + 1 := by
      rw [hacq]
      exact List.length_append
    have hname := hnew.inst _ (Nat.le_refl _) (by omega)
    have hnext : g.inst m'.lives.length = m.lives.length := next_name g.inst h.lives_length hname
    have hreg : ∀ k, k ≠ key → Registry.entry? (m.registry.acquire spec.key m.lives.length).1 k =
        (Registry.entry? (m'.registry.acquire spec.key m'.lives.length).1 k).map g.counted := by
      intro k hk
      unfold Registry.acquire
      simp only [hc, hc']
      rw [Registry.entry?_append hc, Registry.entry?_append hc']
      split
      · rw [← hnext]
        rfl
      · exact h.registry k hk
    rw [hacq', hacq]
    have hlive : g.live { executor := .ofSpec spec m'.cancelled } = { executor := .ofSpec spec m.cancelled } := by
      rw [← h.cancelled]
      rfl
    have hpushed := (h.of_registry hreg).push (q := { executor := .ofSpec spec m'.cancelled }) hkey hname
    rw [hlive] at hpushed
    exact ⟨hpushed, by rw [← hnext]; rfl⟩

/-! ## Callers -/

theorem endCaller (h : g.Mirrors keys key m' m) (t : TaskId)
    (haddr : (g.addressee c.addressee).key? keys ≠ some key) (ending : Ending NumberedOutcome) :
    g.Mirrors keys key (m'.endCaller t c ending)
      (m.endCaller (g.task t) (g.caller c) (g.ending ending)) := by
  have hended : g.TaskLike keys key (.caller { c with stage := .ended ending })
      (.caller (g.caller { c with stage := .ended ending })) := .caller _ haddr (by simp [Caller.lease?])
  exact (h.setTask t hended).note rfl

theorem finishCaller (h : g.Mirrors keys key m' m) (t : TaskId)
    (haddr : (g.addressee c.addressee).key? keys ≠ some key)
    {lease : Option Lease} (hlease : ∀ x ∈ lease, x.key ≠ key) (o : NumberedOutcome) :
    g.Mirrors keys key (m'.finishCaller t c lease o)
      (m.finishCaller (g.task t) (g.caller c) (lease.map g.lease) (g.numbered o)) := by
  -- how the caller ends depends on what is wrong with the release, which is the same in both
  obtain ⟨hreleased, hfault⟩ := h.releaseLease? hlease
  unfold QueryManager.finishCaller
  simp only [hfault]
  have hend := hreleased.endCaller t haddr ((m'.releaseLease? lease).2.elim (.returned o) .panicked)
  cases hf : (m'.releaseLease? lease).2 <;> rw [hf] at hend <;> exact hend

theorem awaitAttempt (h : g.Mirrors keys key m' m) (t : TaskId)
    (haddr : (g.addressee c.addressee).key? keys ≠ some key)
    (id : InstanceId) (n : Int) {lease : Option Lease} (hlease : ∀ x ∈ lease, x.key ≠ key) :
    g.Mirrors keys key (m'.awaitAttempt t c id n lease)
      (m.awaitAttempt (g.task t) (g.caller c) (g.inst id) (g.number n) (lease.map g.lease)) := by
  have hwait : g.Mirrors keys key (m'.setTask t (.caller { c with stage := .waiting id n lease }))
      (m.setTask (g.task t) (.caller { g.caller c with
        stage := .waiting (g.inst id) (g.number n) (lease.map g.lease) })) :=
    h.setTask t (.caller { c with stage := .waiting id n lease } haddr hlease)
  unfold QueryManager.awaitAttempt
  rw [h.executor?]
  cases he : m'.executor? id with
  | none => exact hwait
  | some e =>
    simp only [Option.map_some, executor_await?]
    cases hw : e.await? n with
    | none => exact hwait
    | some w =>
      obtain ⟨e', o, madeUp⟩ := w
      have hkey : e'.key ≠ key := by
        rw [(Executor.Keeps.await hw).1]
        exact h.key_ne he
      refine finishCaller ?_ t haddr hlease o
      cases madeUp with
      | false => exact h.setExecutor id hkey
      | true => exact (h.setExecutor id hkey).remark rfl rfl

/-- Numbers and requests are drawn alike. -/
theorem of_supply (h : g.Mirrors keys key m' m) {s' s : Supply} (hs : g.Level s' s) :
    g.Mirrors keys key { m' with supply := s' } { m with supply := s } :=
  ⟨h.cancelled, hs, h.lives, h.others, h.length, h.tasks, h.registry, h.queue, h.journal⟩

/-- An instance is asked, and an attempt may be started for this. -/
theorem enter (h : g.Mirrors keys key m' m) (he : m'.executor? id = some e)
    (hnew : g.Covers m (m.enter (g.inst id) (g.executor e)).1) :
    g.Mirrors keys key (m'.enter id e).1 (m.enter (g.inst id) (g.executor e)).1 ∧
      (m.enter (g.inst id) (g.executor e)).2 = g.entry (m'.enter id e).2 := by
  have hkey : (e.enter m'.supply).1.key ≠ key := by
    rw [(Executor.Keeps.enter e m'.supply).1]
    exact h.key_ne he
  have hdrawn : (m.enter (g.inst id) (g.executor e)).1.supply = ((g.executor e).enter m.supply).2.1 := by
    unfold QueryManager.enter
    simp only
    split <;> rfl
  have hnames := hnew.supply
  rw [hdrawn] at hnames
  obtain ⟨hexecutor, hentry, hlevel⟩ := h.supply.enter e hnames
  have hset := (h.of_supply hlevel).setExecutor id hkey
  rw [← hexecutor] at hset
  unfold QueryManager.enter at hnew ⊢
  simp only [hentry] at hnew ⊢
  cases hn : (e.enter m'.supply).2.2 with
  | found o => exact ⟨hset, rfl⟩
  | joined n => exact ⟨hset, rfl⟩
  | started n =>
    simp only [hn, entry] at hnew ⊢
    exact ⟨hset.spawn (.attempt id n) (hnew.task _ (Nat.le_refl _) (lt_length_spawn _ _)), trivial⟩

theorem callInstance (h : g.Mirrors keys key m' m) (t : TaskId)
    (haddr : (g.addressee c.addressee).key? keys ≠ some key)
    (id : InstanceId) {lease : Option Lease} (hlease : ∀ x ∈ lease, x.key ≠ key)
    (hnew : g.Covers m (m.callInstance (g.task t) (g.caller c) (g.inst id) (lease.map g.lease))) :
    g.Mirrors keys key (m'.callInstance t c id lease)
      (m.callInstance (g.task t) (g.caller c) (g.inst id) (lease.map g.lease)) := by
  cases he : m'.executor? id with
  | none =>
    unfold QueryManager.callInstance
    rw [h.executor?, he]
    exact h
  | some e =>
    have hboth : m.executor? (g.inst id) = some (g.executor e) := by rw [h.executor?, he, Option.map_some]
    -- what comes after the question draws and starts nothing
    have hafter : Grows (m.enter (g.inst id) (g.executor e)).1
        (m.callInstance (g.task t) (g.caller c) (g.inst id) (lease.map g.lease)) := by
      unfold QueryManager.callInstance
      simp only [hboth]
      split <;> rename_i m₁ n hm₁ <;> rw [hm₁]
      · exact .steady (.finishCaller m₁ _ _ _ _)
      · exact .steady (.awaitAttempt m₁ _ _ _ _ _)
      · exact .steady (.awaitAttempt m₁ _ _ _ _ _)
    obtain ⟨hentered, hentry⟩ := h.enter he (hnew.left hafter)
    clear hnew hafter
    unfold QueryManager.callInstance
    simp only [he, hboth]
    generalize m.enter (g.inst id) (g.executor e) = r at hentered hentry
    generalize m'.enter id e = r' at hentered hentry
    obtain ⟨m₁, n⟩ := r
    obtain ⟨m₁', n'⟩ := r'
    obtain rfl : n = g.entry n' := hentry
    cases n' with
    | found o => exact hentered.finishCaller t haddr hlease o
    | joined k => exact hentered.awaitAttempt t haddr id k hlease
    | started k => exact hentered.awaitAttempt t haddr id k hlease

theorem blocked (h : g.Mirrors keys key m' m) (c : Caller) (x : Lease) :
    g.Mirrors keys key (m'.blocked c x) (m.blocked (g.caller c) (g.lease x)) := by
  unfold QueryManager.blocked
  rw [show (g.caller c).block = c.block from rfl]
  split
  · exact (h.closeInstance x.id).1
  · exact h

theorem failBlock (h : g.Mirrors keys key m' m) (t : TaskId)
    (haddr : (g.addressee c.addressee).key? keys ≠ some key) {x : Lease} (hx : x.key ≠ key) :
    g.Mirrors keys key (m'.failBlock t c x) (m.failBlock (g.task t) (g.caller c) (g.lease x)) := by
  obtain ⟨hreleased, hfault⟩ := h.releaseLease hx
  unfold QueryManager.failBlock
  rw [hfault]
  cases (m'.releaseLease x).2 with
  | none => exact hreleased.endCaller t haddr _
  | some text => exact (hreleased.remark rfl rfl).endCaller t haddr _

theorem arriveWith (h : g.Mirrors keys key m' m) (t : TaskId)
    (haddr : (g.addressee c.addressee).key? keys ≠ some key) {x : Lease} (hx : x.key ≠ key)
    (hnew : g.Covers m (m.arriveWith (g.task t) (g.caller c) (g.lease x))) :
    g.Mirrors keys key (m'.arriveWith t c x) (m.arriveWith (g.task t) (g.caller c) (g.lease x)) := by
  have hblocked := h.blocked c x
  unfold QueryManager.arriveWith at hnew ⊢
  rw [show (g.caller c).block.panics = c.block.panics from rfl] at hnew ⊢
  by_cases hp : c.block.panics
  · rw [if_pos hp, if_pos hp]
    exact hblocked.failBlock t haddr hx
  · rw [if_neg hp] at hnew
    rw [if_neg hp, if_neg hp]
    exact hblocked.callInstance t haddr x.id (by simpa using hx) (hnew.right (.steady (.blocked m _ _)))

/-- A caller arrives. -/
theorem arrive (h : g.Mirrors keys key m' m) (hr' : Registered m') (hr : Registered m) (t : TaskId)
    (haddr : (g.addressee c.addressee).key? keys ≠ some key)
    (hnew : g.Covers m (m.arrive (g.task t) (g.caller c))) :
    g.Mirrors keys key (m'.arrive t c) (m.arrive (g.task t) (g.caller c)) := by
  cases hc : c.addressee with
  | direct id =>
    have hfull : (g.caller c).addressee = .direct (g.inst id) := by
      show g.addressee c.addressee = _
      rw [hc]
      rfl
    unfold QueryManager.arrive at hnew ⊢
    simp only [hc, hfull] at hnew ⊢
    exact h.callInstance t haddr id (by simp) hnew
  | leased spec =>
    have hfull : (g.caller c).addressee = .leased spec := by
      show g.addressee c.addressee = _
      rw [hc]
      rfl
    have hkey : spec.key ≠ key := by
      rw [hc] at haddr
      exact fun heq => haddr (congrArg some heq)
    have hkey' : (m'.acquire spec).2.key ≠ key := hkey
    rw [QueryManager.arrive_leased hfull] at hnew
    rw [QueryManager.arrive_leased hc, QueryManager.arrive_leased hfull]
    obtain ⟨hacquired, hlease⟩ := h.acquire hr' hr hkey (hnew.left (.arriveWith _ _ _ _))
    rw [hlease] at hnew ⊢
    exact hacquired.arriveWith t haddr hkey' (hnew.right (.acquire m spec))

/-! ## Subscriptions -/

theorem endSubscription (h : g.Mirrors keys key m' m) (t : TaskId) {react : Delivery → Reaction}
    (hreact : s.react = fun d => react (g.delivery d)) (hkey : s.lease.key ≠ key) :
    g.Mirrors keys key (m'.endSubscription t s) (m.endSubscription (g.task t) (g.subscription s react)) := by
  obtain ⟨hreleased, hfault⟩ := h.releaseLease hkey
  have hstage : ∀ stage, g.TaskLike keys key (.subscription { s with stage })
      (.subscription { g.subscription s react with stage }) :=
    fun stage => .subscription { s with stage } react hreact hkey
  unfold QueryManager.endSubscription
  rw [show (g.subscription s react).lease = g.lease s.lease from rfl]
  generalize m.releaseLease (g.lease s.lease) = r at hreleased hfault
  generalize m'.releaseLease s.lease = r' at hreleased hfault
  obtain ⟨m₁, fault⟩ := r
  obtain ⟨m₁', fault'⟩ := r'
  obtain rfl : fault = fault' := hfault
  cases fault with
  | none => exact (hreleased.setTask t (hstage .completed)).note rfl
  | some text => exact hreleased.setTask t (hstage (.panicked text))

/-- Results are handed over. -/
theorem deliver (t : TaskId) (fuel : ℕ) : ∀ {m' m : QueryManager} {s : Subscription}
    {react : Delivery → Reaction}, g.Mirrors keys key m' m → s.react = (fun d => react (g.delivery d)) →
    s.lease.key ≠ key → g.Mirrors keys key (QueryManager.deliver fuel m' t s)
      (QueryManager.deliver fuel m (g.task t) (g.subscription s react)) := by
  -- the state changes from one result to the next, and the reader with it
  induction fuel with
  | zero => exact fun h hreact hkey => h.setTask t (.subscription _ _ hreact hkey)
  | succ fuel ih =>
    intro m' m s react h hreact hkey
    unfold QueryManager.deliver
    rw [show (g.subscription s react).cancelled = s.cancelled from rfl,
      show (g.subscription s react).lease = g.lease s.lease from rfl,
      show (g.lease s.lease).id = g.inst s.lease.id from rfl, ← h.cancelled, h.executor?]
    split
    · exact h.endSubscription t hreact hkey
    cases m'.executor? s.lease.id with
    | none => exact h.setTask t (.subscription _ _ hreact hkey)
    | some e =>
      simp only [Option.map_some, show (g.subscription s react).updates = g.updates s.updates from rfl,
        updates_next]
      cases hn : s.updates.next e with
      | mk updates o =>
        cases o with
        | none => exact h.setTask t (.subscription { s with updates } react hreact hkey)
        | some o =>
          have hreaction : s.react ⟨o, updates.source o⟩ = react (g.delivery ⟨o, updates.source o⟩) := by
            rw [hreact]
          have hhanded := h.note (n := .handed t ⟨o, updates.source o⟩) rfl
          have hdelivery : (⟨g.numbered o, (g.updates updates).source (g.numbered o)⟩ : Delivery) =
              g.delivery ⟨o, updates.source o⟩ := by
            rw [updates_source]
            rfl
          simp only [Option.map_some, hdelivery, hreaction,
            show (g.subscription s react).react = react from rfl]
          split
          · exact (hhanded.remark rfl rfl).endSubscription t
              (s := { s with updates, cancelled := s.cancelled || _ }) hreact hkey
          · exact ih (s := { s with updates, cancelled := s.cancelled || _ }) hhanded hreact hkey

/-! ## Tasks -/

/-- An attempt begins, or goes on. -/
theorem runAttempt (h : g.Mirrors keys key m' m) {n : Int} (hx' : m'.tasks[t]? = some (.attempt id n))
    (hx : m.tasks[g.task t]? = some (.attempt (g.inst id) (g.number n))) :
    g.Mirrors keys key (m'.runTask t) (m.runTask (g.task t)) := by
  unfold QueryManager.runTask
  simp only [hx', hx, h.executor?]
  cases he : m'.executor? id with
  | none => exact h
  | some e =>
    have hset : ∀ {e'}, e.Keeps e' → g.Mirrors keys key (m'.setExecutor id e')
        (m.setExecutor (g.inst id) (g.executor e')) := by
      intro e' hkeeps
      refine h.setExecutor id ?_
      rw [hkeeps.1]
      exact h.key_ne he
    simp only [Option.map_some, executor_stage?, executor_resume, executor_begin, executor_attempt?]
    cases hst : e.stage? n with
    | none => exact hset (.resume e n)
    | some st =>
      cases st with
      | spawned =>
        have hbegin := hset (.begin e n)
        cases ha : (e.begin n).attempt? n with
        | none => exact hbegin
        | some a =>
          obtain ⟨k, r, st⟩ := a
          cases st with
          | calling => exact hbegin.note (n := .called t _ r) rfl
          | _ => exact hbegin
      | _ => exact hset (.resume e n)

/-- **What a task does for another key** keeps the managers in step. -/
theorem runTask (h : g.Mirrors keys key m' m) (hr' : Registered m') (hr : Registered m) (t : TaskId)
    (hnew : g.Covers m (m.runTask (g.task t))) :
    g.Mirrors keys key (m'.runTask t) (m.runTask (g.task t)) := by
  cases htask : m'.tasks[t]? with
  | none =>
    unfold QueryManager.runTask
    simp only [htask, h.no_task htask]
    exact h
  | some x' =>
    obtain ⟨x, hx, hlike⟩ := h.tasks t x' htask
    cases hlike with
    | attempt id n => exact h.runAttempt htask hx
    | caller c haddr hlease =>
      unfold QueryManager.runTask at hnew ⊢
      simp only [htask, hx] at hnew ⊢
      have hstage : (g.caller c).stage = g.callerStage c.stage := rfl
      cases hst : c.stage with
      | arriving =>
        simp only [hstage, hst, callerStage] at hnew ⊢
        exact h.arrive hr' hr t haddr hnew
      | waiting id n lease =>
        simp only [hstage, hst, callerStage] at hnew ⊢
        refine h.awaitAttempt t haddr id n fun y hy => hlease y ?_
        simpa only [Caller.lease?, hst] using hy
      | ended ending =>
        simp only [hstage, hst, callerStage]
        exact h
    | subscription s react hreact hkey =>
      unfold QueryManager.runTask
      simp only [htask, hx]
      have hfuel : (g.subscription s react).updates.pending.length = s.updates.pending.length :=
        List.length_map ..
      simp only [show (g.subscription s react).stage = s.stage from rfl, hfuel]
      cases s.stage with
      | running => exact deliver t _ h hreact hkey
      | _ => exact h

end Mirrors

end Renaming

end QueryClient
