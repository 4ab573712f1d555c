import Mathlib.Data.List.Perm.Basic
import QueryClient.Proofs.Manager.Run
import QueryClient.Proofs.Registry.Books

/-!
# Leases on live queries

Leases are taken and given up in any order, and the manager may be cancelled at any time. In every
state its registry is in keeping with the leases that are held, and no live query is open but those
that are leased.

* `LeasesOK`: a manager is in keeping with the leases that are held; `LeasesOK.acquire`,
  `LeasesOK.releaseLease`, `LeasesOK.cancel`.
* `Lending`, `LeaseEvent`: a manager with the leases that are held, and what happens to it.
* `Gone`: what has been closed or given up is not there again.
* `LeaseLaw`, `lease_law`: **the registry is exact** in every run; a live query is closed by its last
  lease, and is gone then.
* `cancelled_shared`: a live query that is closed by the cancellation is not gone.
-/

namespace QueryClient

variable {m m' : QueryManager} {held rest : List Lease} {x y : Lease} {spec : QuerySpec}
variable {id : InstanceId} {q : LiveQuery}

theorem queued_cancel (m : QueryManager) : Queued { m with
    cancelled := true
    lives := m.lives.map fun q => { q with executor := q.executor.close } } m.cancel :=
  .foldl_wakeTask _ _

theorem queued_release (m : QueryManager) (x : Lease) : Queued (m.releaseLease x).1 (m.release x).1 :=
  .wake _

/-- **A manager is in keeping with the leases that are held.** A live query is marked as closed when
no lease on it is held, and does not work when it is marked so or the manager has been cancelled. -/
structure LeasesOK (m : QueryManager) (held : List Lease) : Prop where
  books : Books m.registry held
  lives : ∀ x ∈ held, ∃ q, m.lives[x.id]? = some q ∧ q.key = x.key
  marked : ∀ (id : InstanceId) (q : LiveQuery), m.lives[id]? = some q → (q.closed ↔ ∀ x ∈ held, x.id ≠ id)
  closed : ∀ (id : InstanceId) (q : LiveQuery), m.lives[id]? = some q → q.executor.closed = (q.closed || m.cancelled)

namespace LeasesOK

theorem empty : LeasesOK {} [] := ⟨.empty, by simp, by simp, by simp⟩

theorem perm (h : LeasesOK m held) {held' : List Lease} (hp : held.Perm held') : LeasesOK m held' :=
  ⟨h.books.perm hp, fun x hx => h.lives x (hp.mem_iff.2 hx),
    fun id q hq => (h.marked id q hq).trans ⟨fun hn x hx => hn x (hp.mem_iff.2 hx),
      fun hn x hx => hn x (hp.mem_iff.1 hx)⟩, h.closed⟩

theorem lt_length (h : LeasesOK m held) (hx : x ∈ held) : x.id < m.lives.length := by
  obtain ⟨q, hq, -⟩ := h.lives x hx
  exact (List.getElem?_eq_some_iff.1 hq).1

/-- Leases are on one instance if and only if they are on one key. -/
theorem key_eq_iff (h : LeasesOK m held) (hx : x ∈ held) (hy : y ∈ held) :
    x.key = y.key ↔ x.id = y.id := by
  constructor
  · intro hk
    obtain ⟨c, hc, hid⟩ := h.books.entry?_held hy
    exact ((h.books.entry _ c hc).2.2 x hx hk).trans hid
  · intro hid
    obtain ⟨p, hp, hpk⟩ := h.lives x hx
    obtain ⟨q, hq, hqk⟩ := h.lives y hy
    rw [hid, hq] at hp
    rw [← hpk, ← hqk, Option.some.inj hp]

/-! ## One lease more -/

/-- **A key that is leased** is leased once more, on the same live query. -/
theorem acquire_held (h : LeasesOK m held) (hx : x ∈ held) (hk : x.key = spec.key) :
    m.acquire spec = ({ m with registry := (m.registry.acquire spec.key m.lives.length).1 }, x) := by
  have hid := h.books.acquire_held hx m.lives.length
  rw [hk] at hid
  have hne : x.id ≠ m.lives.length := Nat.ne_of_lt (h.lt_length hx)
  unfold QueryManager.acquire
  simp only [hid]
  rw [if_neg hne, ← hk]

/-- **A key that is not leased** gets a new live query. -/
theorem acquire_fresh (h : LeasesOK m held) (hn : ∀ x ∈ held, x.key ≠ spec.key) :
    m.acquire spec = (({ m with
      registry := (m.registry.acquire spec.key m.lives.length).1 }.openInstance spec).1,
      ⟨spec.key, m.lives.length⟩) := by
  have hid := h.books.acquire_fresh hn m.lives.length
  unfold QueryManager.acquire
  simp only [hid, if_true]

theorem acquire (h : LeasesOK m held) (spec : QuerySpec) :
    LeasesOK (m.acquire spec).1 ((m.acquire spec).2 :: held) := by
  have hbooks := h.books.acquire spec.key m.lives.length
  by_cases hheld : ∃ x ∈ held, x.key = spec.key
  · -- one lease more on a live query that is leased
    obtain ⟨x, hx, hk⟩ := hheld
    have hid := h.books.acquire_held hx m.lives.length
    rw [hk] at hid
    rw [hid, ← hk] at hbooks
    rw [h.acquire_held hx hk]
    have hmem : ∀ y, y ∈ x :: held ↔ y ∈ held := by
      intro y
      rw [List.mem_cons]
      exact ⟨fun hy => hy.elim (fun hy => by rw [hy]; exact hx) fun hy => hy, .inr⟩
    refine ⟨by rw [← hk]; exact hbooks, fun y hy => h.lives y ((hmem y).1 hy), fun id q hq => ?_, h.closed⟩
    refine (h.marked id q hq).trans ⟨fun hn y hy => hn y ((hmem y).1 hy), fun hn y hy => ?_⟩
    exact hn y ((hmem y).2 hy)
  · have hnone : ∀ x ∈ held, x.key ≠ spec.key := fun x hx hk => hheld ⟨x, hx, hk⟩
    rw [h.books.acquire_fresh hnone] at hbooks
    rw [h.acquire_fresh hnone]
    -- the live queries are those that were there, and a new one
    have hget : ∀ (id : InstanceId) (q : LiveQuery), (m.lives ++ [({ executor := .ofSpec spec m.cancelled } : LiveQuery)])[id]? = some q →
        m.lives[id]? = some q ∧ id < m.lives.length ∨
          id = m.lives.length ∧ q = { executor := .ofSpec spec m.cancelled } := by
      intro id q hq
      rcases Nat.lt_or_ge id m.lives.length with hlt | hge
      · rw [List.getElem?_append_left hlt] at hq
        exact .inl ⟨hq, hlt⟩
      · rw [List.getElem?_append_right hge, List.getElem?_singleton] at hq
        split at hq
        · exact .inr ⟨Nat.le_antisymm (Nat.le_of_sub_eq_zero ‹_›) hge, (Option.some.inj hq).symm⟩
        · simp at hq
    refine ⟨hbooks, fun y hy => ?_, fun id q hq => ?_, fun id q hq => ?_⟩
    · rcases List.mem_cons.1 hy with rfl | hy
      · refine ⟨{ executor := .ofSpec spec m.cancelled }, ?_, rfl⟩
        exact (List.getElem?_append_right (Nat.le_refl _)).trans (by simp)
      · obtain ⟨q, hq, hk⟩ := h.lives y hy
        exact ⟨q, (List.getElem?_append_left (h.lt_length hy)).trans hq, hk⟩
    · rcases hget id q hq with ⟨hq, hlt⟩ | ⟨rfl, rfl⟩
      · refine (h.marked id q hq).trans ⟨fun hn y hy => ?_, fun hn y hy => ?_⟩
        · rcases List.mem_cons.1 hy with rfl | hy
          · exact (Nat.ne_of_lt hlt).symm
          · exact hn y hy
        · exact hn y (List.mem_cons_of_mem _ hy)
      · refine ⟨fun hc => by simp at hc, fun hn => ?_⟩
        exact absurd rfl (hn _ List.mem_cons_self)
    · rcases hget id q hq with ⟨hq, -⟩ | ⟨-, rfl⟩
      · exact h.closed id q hq
      · rfl

/-! ## One lease less -/

/-- What is leased without the lease that is given up, but for its own live query. -/
theorem unleased_iff (hid : x.id ≠ id) : (∀ y ∈ x :: rest, y.id ≠ id) ↔ ∀ y ∈ rest, y.id ≠ id := by
  refine ⟨fun hn y hy => hn y (List.mem_cons_of_mem _ hy), fun hn y hy => ?_⟩
  rcases List.mem_cons.1 hy with rfl | hy
  · exact hid
  · exact hn y hy

/-- **The last lease on a key** is given up, and its live query is closed. -/
theorem last (h : LeasesOK m (x :: rest)) {r : Registry} (hbooks : Books r rest)
    (hnone : ∀ y ∈ rest, y.key ≠ x.key) (hq : m.lives[x.id]? = some q) : LeasesOK { m with
      registry := r, lives := m.lives.set x.id { executor := q.executor.close, closed := true } } rest := by
  have hlt := (List.getElem?_eq_some_iff.1 hq).1
  have hgone : ∀ y ∈ rest, y.id ≠ x.id := fun y hy hid =>
    hnone y hy ((h.key_eq_iff (List.mem_cons_of_mem _ hy) List.mem_cons_self).2 hid)
  have hget : ∀ (id : InstanceId) (p : LiveQuery),
      (m.lives.set x.id { executor := q.executor.close, closed := true })[id]? = some p →
      id = x.id ∧ p = { executor := q.executor.close, closed := true } ∨
        x.id ≠ id ∧ m.lives[id]? = some p := by
    intro id p hp
    rw [List.getElem?_set] at hp
    split at hp
    · rename_i hid
      subst hid
      exact .inl ⟨rfl, (Option.some.inj hp).symm⟩
    · exact .inr ⟨‹_›, hp⟩
  refine ⟨hbooks, fun y hy => ?_, fun id p hp => ?_, fun id p hp => ?_⟩
  · obtain ⟨p, hp, hpk⟩ := h.lives y (List.mem_cons_of_mem _ hy)
    exact ⟨p, (List.getElem?_set_ne (hgone y hy).symm).trans hp, hpk⟩
  · rcases hget id p hp with ⟨rfl, rfl⟩ | ⟨hid, hp⟩
    · exact ⟨fun _ => hgone, fun _ => rfl⟩
    · exact (h.marked id p hp).trans (unleased_iff hid)
  · rcases hget id p hp with ⟨-, rfl⟩ | ⟨-, hp⟩
    · rfl
    · exact h.closed id p hp

/-- A lease on a key with others is given up, and its live query stays as it is. -/
theorem kept (h : LeasesOK m (x :: rest)) {r : Registry} (hbooks : Books r rest) (hy : y ∈ rest)
    (hk : y.key = x.key) : LeasesOK { m with registry := r } rest := by
  have hyid := (h.key_eq_iff (List.mem_cons_of_mem _ hy) List.mem_cons_self).1 hk
  refine ⟨hbooks, fun y hy => h.lives y (List.mem_cons_of_mem _ hy), fun id p hp => ?_, h.closed⟩
  by_cases hid : x.id = id
  · refine (h.marked id p hp).trans ⟨fun hn => absurd hid (hn x List.mem_cons_self), fun hn => ?_⟩
    exact absurd (hyid.trans hid) (hn y hy)
  · exact (h.marked id p hp).trans (unleased_iff hid)

/-- **A lease that is given up** closes its live query if it is the last, and nothing is wrong. -/
theorem releaseLease (h : LeasesOK m (x :: rest)) :
    (m.releaseLease x).2 = none ∧ LeasesOK (m.releaseLease x).1 rest := by
  obtain ⟨hbooks, hout⟩ := h.books.release
  obtain ⟨q, hq, -⟩ := h.lives x List.mem_cons_self
  rcases hout with ⟨hlast, hnone⟩ | ⟨hkept, y, hy, hyk⟩
  · -- the live query was leased, so nobody has closed it yet
    have hopen : q.closed = false := by
      cases hc : q.closed with
      | false => rfl
      | true => exact absurd rfl ((h.marked _ q hq).1 hc x List.mem_cons_self)
    have hclose : m.releaseLease x = ({ m with
        registry := (m.registry.release x.key x.id).1
        lives := m.lives.set x.id { executor := q.executor.close, closed := true } }, none) := by
      unfold QueryManager.releaseLease
      simp only [hlast, if_true]
      unfold QueryManager.closeInstance LiveQuery.close
      simp [hq, hopen, Registry.fault?]
    rw [hclose]
    exact ⟨rfl, h.last hbooks hnone hq⟩
  · have hkeep : m.releaseLease x =
        ({ m with registry := (m.registry.release x.key x.id).1 }, none) := by
      unfold QueryManager.releaseLease
      simp [hkept, Registry.fault?]
    rw [hkeep]
    exact ⟨rfl, h.kept hbooks hy hyk⟩

/-! ## What does not concern leases -/

theorem queued (h : LeasesOK m held) (hq : Queued m m') : LeasesOK m' held := by
  rw [hq.frame]
  exact ⟨h.books, h.lives, h.marked, h.closed⟩

theorem release (h : LeasesOK m (x :: rest)) :
    (m.release x).2 = none ∧ LeasesOK (m.release x).1 rest := by
  obtain ⟨hfault, hok⟩ := h.releaseLease
  exact ⟨hfault, hok.queued (queued_release m x)⟩

/-- The cancellation closes all live queries, and leaves the leases as they are. -/
theorem cancel (h : LeasesOK m held) : LeasesOK m.cancel held := by
  have hget : ∀ (id : InstanceId) (q : LiveQuery), (m.lives.map fun q => { q with executor := q.executor.close })[id]? = some q →
      ∃ p, m.lives[id]? = some p ∧ q = { p with executor := p.executor.close } := by
    intro id q hq
    rw [List.getElem?_map] at hq
    obtain ⟨p, hp, hpq⟩ := Option.map_eq_some_iff.1 hq
    exact ⟨p, hp, hpq.symm⟩
  refine LeasesOK.queued ?_ (queued_cancel m)
  refine ⟨h.books, fun x hx => ?_, fun id q hq => ?_, fun id q hq => ?_⟩
  · obtain ⟨q, hq, hk⟩ := h.lives x hx
    refine ⟨{ q with executor := q.executor.close }, ?_, hk⟩
    show (m.lives.map _)[x.id]? = _
    rw [List.getElem?_map, hq]
    rfl
  · obtain ⟨p, hp, rfl⟩ := hget id q hq
    exact h.marked id p hp
  · obtain ⟨p, -, rfl⟩ := hget id q hq
    exact (Bool.or_true _).symm

end LeasesOK

/-! ## Runs -/

/-- What happens to a manager of which leases are held. -/
inductive LeaseEvent where
  | acquire (spec : QuerySpec)
  /-- The lease at a place among those that are held is given up. -/
  | drop (place : ℕ)
  | cancel

/-- A manager and the leases that are held, the youngest first. -/
structure Lending where
  manager : QueryManager := {}
  held : List Lease := []
  /-- What was wrong with leases that were given up. -/
  faults : List String := []

namespace Lending

/-- What an event does. -/
def step (l : Lending) : LeaseEvent → Lending
  | .acquire spec =>
    { l with manager := (l.manager.acquire spec).1, held := (l.manager.acquire spec).2 :: l.held }
  | .drop place =>
    match l.held[place]? with
    | none => l
    | some lease =>
      { manager := (l.manager.release lease).1
        held := l.held.eraseIdx place
        faults := l.faults ++ (l.manager.release lease).2.toList }
  | .cancel => { l with manager := l.manager.cancel }

/-- A run. -/
def run (l : Lending) (es : List LeaseEvent) : Lending := es.foldl step l

/-- A lease on the live query is held. -/
def IsLeased (l : Lending) (id : InstanceId) : Prop := ∃ x ∈ l.held, x.id = id

/-- The live query has been closed. -/
def isClosed (l : Lending) (id : InstanceId) : Bool := (l.manager.executor? id).any (·.closed)

end Lending

/-- The manager is in keeping with the leases, and nothing was wrong with those that were given up. -/
structure LendingOK (l : Lending) : Prop where
  leases : LeasesOK l.manager l.held
  faults : l.faults = []

variable {l : Lending} {ev : LeaseEvent} {place : ℕ}

namespace LendingOK

theorem perm_eraseIdx (hx : l.held[place]? = some x) : l.held.Perm (x :: l.held.eraseIdx place) := by
  obtain ⟨hlt, rfl⟩ := List.getElem?_eq_some_iff.1 hx
  exact (List.getElem_cons_eraseIdx_perm hlt).symm

theorem step_drop (hx : l.held[place]? = some x) : l.step (.drop place) =
    ⟨(l.manager.release x).1, l.held.eraseIdx place,
      l.faults ++ (l.manager.release x).2.toList⟩ := by
  simp only [Lending.step, hx]

theorem step_drop_none (hx : l.held[place]? = none) : l.step (.drop place) = l := by
  simp only [Lending.step, hx]

/-- **The manager stays in keeping with the leases.** -/
theorem step (h : LendingOK l) (ev : LeaseEvent) : LendingOK (l.step ev) := by
  cases ev with
  | acquire spec => exact ⟨h.leases.acquire spec, h.faults⟩
  | cancel => exact ⟨h.leases.cancel, h.faults⟩
  | drop place =>
    cases hx : l.held[place]? with
    | none => rw [step_drop_none hx]; exact h
    | some x =>
      obtain ⟨hfault, hok⟩ := (h.leases.perm (perm_eraseIdx hx)).release
      rw [step_drop hx]
      exact ⟨hok, by simp [h.faults, hfault]⟩

theorem run (h : LendingOK l) (es : List LeaseEvent) : LendingOK (l.run es) := by
  induction es generalizing l with
  | nil => exact h
  | cons ev es ih => exact ih (h.step ev)

/-- **A live query is closed** when it is not leased, or the manager has been cancelled. -/
theorem isClosed_iff (h : LendingOK l) (id : InstanceId) : l.isClosed id ↔
    id < l.manager.lives.length ∧ (l.manager.cancelled ∨ ¬ l.IsLeased id) := by
  unfold Lending.isClosed QueryManager.executor? Lending.IsLeased
  cases hq : l.manager.lives[id]? with
  | none =>
    have hge := List.getElem?_eq_none_iff.1 hq
    simp [Nat.not_lt.2 hge]
  | some q =>
    have hlt := (List.getElem?_eq_some_iff.1 hq).1
    have hmarked := h.leases.marked id q hq
    have hclosed := h.leases.closed id q hq
    simp only [Option.map_some, Option.any_some, hclosed, Bool.or_eq_true, hmarked]
    constructor
    · rintro (hn | hc)
      · exact ⟨hlt, .inr fun ⟨x, hx, hid⟩ => hn x hx hid⟩
      · exact ⟨hlt, .inl hc⟩
    · rintro ⟨-, hc | hn⟩
      · exact .inr hc
      · exact .inl fun x hx hid => hn ⟨x, hx, hid⟩

end LendingOK

/-! ## What does not come back -/

/-- What has been closed or given up is not there again. -/
structure Gone (l l' : Lending) : Prop where
  length : l.manager.lives.length ≤ l'.manager.lives.length
  cancelled : l.manager.cancelled → l'.manager.cancelled
  unleased : ∀ id, id < l.manager.lives.length → ¬ l.IsLeased id → ¬ l'.IsLeased id

namespace Gone

theorem refl (l : Lending) : Gone l l := ⟨Nat.le_refl _, fun h => h, fun _ _ h => h⟩

theorem trans {l' l'' : Lending} (h : Gone l l') (h' : Gone l' l'') : Gone l l'' :=
  ⟨Nat.le_trans h.length h'.length, fun hc => h'.cancelled (h.cancelled hc),
    fun id hlt hn => h'.unleased id (Nat.lt_of_lt_of_le hlt h.length) (h.unleased id hlt hn)⟩

theorem acquire (h : LendingOK l) (spec : QuerySpec) : Gone l (l.step (.acquire spec)) := by
  show Gone l { l with manager := (l.manager.acquire spec).1, held := (l.manager.acquire spec).2 :: l.held }
  by_cases hheld : ∃ x ∈ l.held, x.key = spec.key
  · obtain ⟨x, hx, hk⟩ := hheld
    rw [h.leases.acquire_held hx hk]
    refine ⟨Nat.le_refl _, fun hc => hc, ?_⟩
    rintro id - hn ⟨y, hy, hid⟩
    rcases List.mem_cons.1 hy with rfl | hy
    · exact hn ⟨y, hx, hid⟩
    · exact hn ⟨y, hy, hid⟩
  · rw [h.leases.acquire_fresh fun x hx hk => hheld ⟨x, hx, hk⟩]
    refine ⟨by simp [QueryManager.openInstance], fun hc => hc, ?_⟩
    rintro id hlt hn ⟨y, hy, hid⟩
    rcases List.mem_cons.1 hy with rfl | hy
    · exact absurd hid (Nat.ne_of_lt hlt).symm
    · exact hn ⟨y, hy, hid⟩

theorem length_closeInstance (m : QueryManager) (id : InstanceId) :
    (m.closeInstance id).1.lives.length = m.lives.length := by
  unfold QueryManager.closeInstance
  split
  · rfl
  · exact List.length_set

theorem length_release (m : QueryManager) (x : Lease) :
    (m.release x).1.lives.length = m.lives.length := by
  rw [(queued_release m x).frame]
  show (m.releaseLease x).1.lives.length = _
  unfold QueryManager.releaseLease
  simp only
  split
  · exact length_closeInstance _ _
  · rfl

theorem cancelled_release (m : QueryManager) (x : Lease) :
    (m.release x).1.cancelled = m.cancelled := by
  rw [(queued_release m x).frame, (LeaseStep.releaseLease m x).frame]

theorem drop (l : Lending) (place : ℕ) : Gone l (l.step (.drop place)) := by
  cases hx : l.held[place]? with
  | none => rw [LendingOK.step_drop_none hx]; exact refl l
  | some x =>
    rw [LendingOK.step_drop hx]
    refine ⟨Nat.le_of_eq (length_release _ x).symm, fun hc => (cancelled_release _ x).trans hc, ?_⟩
    rintro id - hn ⟨y, hy, hid⟩
    exact hn ⟨y, List.mem_of_mem_eraseIdx hy, hid⟩

theorem cancelled_cancel (m : QueryManager) : m.cancel.cancelled = true := by
  rw [(queued_cancel m).frame]

theorem length_cancel (m : QueryManager) : m.cancel.lives.length = m.lives.length := by
  rw [(queued_cancel m).frame]
  exact List.length_map _

theorem cancel (l : Lending) : Gone l (l.step .cancel) :=
  ⟨Nat.le_of_eq (length_cancel _).symm, fun _ => cancelled_cancel _, fun _ _ hn => hn⟩

theorem step (h : LendingOK l) (ev : LeaseEvent) : Gone l (l.step ev) := by
  cases ev with
  | acquire spec => exact acquire h spec
  | drop place => exact drop l place
  | cancel => exact cancel l

theorem run (h : LendingOK l) (es : List LeaseEvent) : Gone l (l.run es) := by
  induction es generalizing l with
  | nil => exact refl l
  | cons ev es ih => exact (step h ev).trans (ih (h.step ev))

end Gone

/-! ## The registry is exact -/

/-- **The registry is exact.** -/
structure LeaseLaw (l : Lending) : Prop where
  /-- The keys with an entry are those with a lease. -/
  entry : ∀ key, (l.manager.registry.entry? key).isSome ↔ ∃ x ∈ l.held, x.key = key
  count : ∀ key, l.manager.registry.users key = l.held.countP fun x => x.key = key
  size : l.manager.registry.size = (l.held.map (·.key)).dedup.length
  /-- A lease is on the instance of its key, which is of that key. -/
  object : ∀ x ∈ l.held, ∃ c, l.manager.registry.entry? x.key = some c ∧ c.object = x.id
  live : ∀ x ∈ l.held, ∃ q, l.manager.lives[x.id]? = some q ∧ q.key = x.key
  same : ∀ x ∈ l.held, ∀ y ∈ l.held, x.key = y.key ↔ x.id = y.id
  /-- A live query is open while it is leased, unless the manager has been cancelled. -/
  closed : ∀ id, l.isClosed id ↔
    id < l.manager.lives.length ∧ (l.manager.cancelled ∨ ¬ l.IsLeased id)
  /-- An open live query is closed by giving up the last lease on it, and by the cancellation. -/
  closes : ∀ ev id, id < l.manager.lives.length → l.isClosed id = false →
    ((l.step ev).isClosed id ↔ ev = .cancel ∨ ∃ place x, ev = .drop place ∧
      l.held[place]? = some x ∧ x.id = id ∧ ∀ y ∈ l.held.eraseIdx place, y.id ≠ id)
  stays : ∀ more id, l.isClosed id → (l.run more).isClosed id
  /-- A live query that is not leased is not handed out again. -/
  gone : ∀ more id, id < l.manager.lives.length → ¬ l.IsLeased id → ¬ (l.run more).IsLeased id
  /-- A key with a lease is leased on the same instance. -/
  shared : ∀ spec, ∀ x ∈ l.held, x.key = spec.key → (l.step (.acquire spec)).held = x :: l.held ∧
    (l.step (.acquire spec)).manager.lives = l.manager.lives
  /-- A key without one gets a new instance. -/
  fresh : ∀ spec, (∀ x ∈ l.held, x.key ≠ spec.key) →
    (l.step (.acquire spec)).held = ⟨spec.key, l.manager.lives.length⟩ :: l.held
  /-- Nothing was wrong with the leases that were given up. -/
  faults : l.faults = []

theorem LendingOK.closes (h : LendingOK l) (ev : LeaseEvent) {id : InstanceId}
    (hlt : id < l.manager.lives.length) (hopen : l.isClosed id = false) :
    (l.step ev).isClosed id ↔ ev = .cancel ∨ ∃ place x, ev = .drop place ∧
      l.held[place]? = some x ∧ x.id = id ∧ ∀ y ∈ l.held.eraseIdx place, y.id ≠ id := by
  have hnot : ¬ (l.manager.cancelled ∨ ¬ l.IsLeased id) := by
    intro hn
    have hc := (h.isClosed_iff id).2 ⟨hlt, hn⟩
    rw [hopen] at hc
    simp at hc
  rw [not_or, not_not] at hnot
  obtain ⟨hcancelled, x, hx, hid⟩ := hnot
  have hlt' : id < (l.step ev).manager.lives.length := Nat.lt_of_lt_of_le hlt (Gone.step h ev).length
  rw [(h.step ev).isClosed_iff]
  cases ev with
  | acquire spec =>
    -- the lease is still held, and the manager has not been cancelled
    have hkeep : (l.step (.acquire spec)).manager.cancelled = l.manager.cancelled := by
      show (l.manager.acquire spec).1.cancelled = _
      rw [(LeaseStep.acquire l.manager spec).frame]
    constructor
    · rintro ⟨-, hc | hn⟩
      · exact absurd (hkeep.symm.trans hc) hcancelled
      · exact absurd ⟨x, List.mem_cons_of_mem _ hx, hid⟩ hn
    · rintro (hev | ⟨place, x, hev, -⟩) <;> simp at hev
  | cancel => exact ⟨fun _ => .inl rfl, fun _ => ⟨hlt', .inl (Gone.cancelled_cancel _)⟩⟩
  | drop place =>
    cases hz : l.held[place]? with
    | none =>
      rw [LendingOK.step_drop_none hz]
      constructor
      · rintro ⟨-, hc | hn⟩
        · exact absurd hc hcancelled
        · exact absurd ⟨x, hx, hid⟩ hn
      · rintro (hev | ⟨place', z, hev, hz', -⟩)
        · simp at hev
        · rw [← LeaseEvent.drop.inj hev, hz] at hz'
          simp at hz'
    | some z =>
      have hkeep := Gone.cancelled_release l.manager z
      rw [LendingOK.step_drop hz] at hlt' ⊢
      constructor
      · rintro ⟨-, hc | hn⟩
        · exact absurd (hkeep.symm.trans hc) hcancelled
        · have hlast : ∀ y ∈ l.held.eraseIdx place, y.id ≠ id := fun y hy hyid => hn ⟨y, hy, hyid⟩
          refine .inr ⟨place, z, rfl, hz, ?_, hlast⟩
          -- the lease that is held now is the one that is given up
          rcases List.mem_cons.1 ((perm_eraseIdx hz).mem_iff.1 hx) with rfl | hx
          · exact hid
          · exact absurd hid (hlast x hx)
      · rintro (hev | ⟨place', z', hev, -, -, hlast⟩)
        · simp at hev
        · rw [← LeaseEvent.drop.inj hev] at hlast
          exact ⟨hlt', .inr fun ⟨y, hy, hyid⟩ => hlast y hy hyid⟩

/-- **In every run the registry is exact.** -/
theorem lease_law (es : List LeaseEvent) : LeaseLaw (({} : Lending).run es) := by
  have h : LendingOK (({} : Lending).run es) := LendingOK.run ⟨.empty, rfl⟩ es
  generalize ({} : Lending).run es = l at h
  refine ⟨h.leases.books.isSome_entry?, h.leases.books.users, h.leases.books.size,
    fun x => h.leases.books.entry?_held, h.leases.lives, fun x hx y hy => h.leases.key_eq_iff hx hy,
    h.isClosed_iff, fun ev id => h.closes ev, fun more id hc => ?_,
    fun more => (Gone.run h more).unleased, fun spec x hx hk => ?_, fun spec hn => ?_, h.faults⟩
  · obtain ⟨hlt, hc⟩ := (h.isClosed_iff id).1 hc
    have hgone := Gone.run h more
    refine ((h.run more).isClosed_iff id).2 ⟨Nat.lt_of_lt_of_le hlt hgone.length, ?_⟩
    exact hc.imp hgone.cancelled (hgone.unleased id hlt)
  · simp only [Lending.step, h.leases.acquire_held hx hk]
    exact ⟨trivial, trivial⟩
  · simp only [Lending.step, h.leases.acquire_fresh hn]

/-- **A live query that is closed by the cancellation is not gone:** it stays registered while it is
leased, and is handed out again. -/
theorem cancelled_shared :
    let spec : QuerySpec := ⟨"GetMovie", []⟩
    let l := ({} : Lending).run [.acquire spec, .cancel]
    l.isClosed 0 ∧ (l.step (.acquire spec)).held = [⟨spec.key, 0⟩, ⟨spec.key, 0⟩] ∧
      (l.step (.acquire spec)).manager.lives.length = 1 := by
  decide +kernel

end QueryClient
