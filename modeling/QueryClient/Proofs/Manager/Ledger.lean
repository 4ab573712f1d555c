import QueryClient.Proofs.Manager.Performed
import QueryClient.Proofs.Registry.Leases

/-!
# All leases on the books

Leases are held by users, by callers that wait and by subscriptions, and one may be in the hands of
the task at work. The registry of a manager is in keeping with all of them.

* `Act.books`: **every act keeps the registry in keeping with the leases.**
* `Lending.next`, `Lending.after`: a manager with the leases that users hold, which they can give up
  once.
* `Lending.carry`: **what acts keep of the leases is kept by events.**
* `Lending.Sound`: the registry counts the leases of users and of tasks; `Lending.Sound.after`.
* `Lending.Uses`, `Lending.Sound.uses_eq_iff`: **those who use a query share its live query.**
-/

namespace QueryClient

variable {m m' m₁ : QueryManager} {b b' : Bench} {t u : TaskId} {given : Input}
variable {ev : ManagerEvent} {held : List Lease} {spec : QuerySpec} {id : InstanceId}

/-! ## The leases of tasks -/

/-- What others hold and what the task holds is all that tasks hold. -/
theorem othersLeases_perm (m : QueryManager) (t : TaskId) :
    (m.othersLeases t ++ (m.leaseOf? t).toList).Perm m.taskLeases := by
  unfold QueryManager.othersLeases QueryManager.leaseOf? QueryManager.taskLeases
  cases htask : m.tasks[t]? with
  | none =>
    rw [List.eraseIdx_of_length_le (List.getElem?_eq_none_iff.1 htask)]
    simp
  | some x =>
    obtain ⟨hlt, hx⟩ := List.getElem?_eq_some_iff.1 htask
    have hperm := (List.getElem_cons_eraseIdx_perm hlt).filterMap Task.lease?
    rw [hx] at hperm
    refine List.Perm.trans List.perm_append_comm (List.Perm.trans (.of_eq ?_) hperm)
    cases hl : x.lease? with
    | none => simp [hl]
    | some y => simp [hl]

theorem othersLeases_of_length (h : m.tasks.length ≤ t) : m.othersLeases t = m.taskLeases := by
  unfold QueryManager.othersLeases QueryManager.taskLeases
  rw [List.eraseIdx_of_length_le h]

theorem othersLeases_setTask (m : QueryManager) (t : TaskId) (y : Task) :
    (m.setTask t y).othersLeases t = m.othersLeases t := by
  unfold QueryManager.othersLeases
  rw [show (m.setTask t y).tasks = m.tasks.set t y from rfl, List.eraseIdx_set_eq]

theorem othersLeases_spawn (m : QueryManager) {t : TaskId} {y : Task}
    (h : t = m.tasks.length ∨ y.lease? = none) : (m.spawn y).1.othersLeases t = m.othersLeases t := by
  unfold QueryManager.othersLeases
  rw [show (m.spawn y).1.tasks = m.tasks ++ [y] from rfl, List.eraseIdx_append]
  split
  · have hnone : y.lease? = none := h.resolve_left (Nat.ne_of_lt ‹_›)
    simp [hnone]
  · rename_i hge
    rw [List.eraseIdx_of_length_le (Nat.le_of_not_lt hge)]
    rcases h with rfl | hnone
    · simp
    · rcases Nat.eq_zero_or_pos (t - m.tasks.length) with hz | hpos
      · simp [hz]
      · rw [List.eraseIdx_of_length_le (show [y].length ≤ _ from hpos)]
        simp [hnone]

/-! ## Acts -/

/-- The registry is in keeping with what users hold, what other tasks hold, and what is in the hands
of the task at work. -/
def Bench.Booked (b : Bench) (t : TaskId) (held : List Lease) : Prop :=
  Books b.manager.registry (b.hand.toList ++ (b.manager.othersLeases t ++ held))

/-- **Every act keeps the registry in keeping with the leases.** -/
theorem Act.books (h : Act t given b b') (hb : b.Booked t held) : b'.Booked t held := by
  have hframe : b'.manager.registry = b.manager.registry → b'.hand = b.hand →
      b'.manager.othersLeases t = b.manager.othersLeases t → b'.Booked t held := by
    intro hreg hhand hothers
    unfold Bench.Booked
    rw [hreg, hhand, hothers]
    exact hb
  cases h with
  | @acquire m f spec hspec =>
    have hothers : (m.acquire spec).1.othersLeases t = m.othersLeases t := by
      unfold QueryManager.othersLeases
      rw [tasks_acquire]
    have hreg : (m.acquire spec).1.registry = (m.registry.acquire spec.key m.lives.length).1 := by
      unfold QueryManager.acquire
      simp only
      split <;> rfl
    unfold Bench.Booked at hb ⊢
    simp only [hothers, hreg]
    exact Books.acquire hb spec.key m.lives.length
  | @release m x =>
    have hothers : (m.releaseLease x).1.othersLeases t = m.othersLeases t := by
      unfold QueryManager.othersLeases
      rw [tasks_releaseLease]
    unfold Bench.Booked at hb ⊢
    simp only [hothers, registry_releaseLease]
    exact (Books.release hb).1
  | close id _ =>
    refine hframe (registry_closeInstance _ id) rfl ?_
    unfold QueryManager.othersLeases
    rw [tasks_closeInstance]
  | start => exact hframe rfl rfl (othersLeases_spawn _ (.inr rfl))
  | ask addressee block => exact hframe rfl rfl (othersLeases_spawn _ (.inr rfl))
  | subscribe he hk react ht => exact hframe rfl rfl (othersLeases_spawn _ (.inl ht))
  | wait => exact hframe rfl rfl (othersLeases_setTask _ t _)
  | finish => exact hframe rfl rfl (othersLeases_setTask _ t _)
  | look => exact hframe rfl rfl (othersLeases_setTask _ t _)
  | complete => exact hframe rfl rfl (othersLeases_setTask _ t _)
  | fail => exact hframe rfl rfl (othersLeases_setTask _ t _)
  | _ => exact hframe rfl rfl rfl

theorem Acts.books (h : Acts t given b b') (hb : b.Booked t held) : b'.Booked t held := by
  induction h with
  | refl => exact hb
  | tail _ hact ih => exact hact.books ih

/-! ## Runs -/

namespace Lending

/-- **What an event does.** A user holds what it has taken, and can give up only what it holds. -/
def next (l : Lending) : ManagerEvent → Lending
  | .acquire spec =>
    { l with manager := l.manager.step (.acquire spec), held := (l.manager.acquire spec).2 :: l.held }
  | .release x =>
    if x ∈ l.held then
      { manager := l.manager.step (.release x)
        held := l.held.erase x
        faults := l.faults ++ (l.manager.release x).2.toList }
    else l
  | ev => { l with manager := l.manager.step ev }

/-- A run. -/
def after (l : Lending) (es : List ManagerEvent) : Lending := es.foldl next l

variable {l : Lending}

theorem next_cases (l : Lending) (ev : ManagerEvent) :
    (∃ spec, ev = .acquire spec ∧
      l.next ev = { l with manager := l.manager.step ev, held := (l.manager.acquire spec).2 :: l.held }) ∨
    (∃ x ∈ l.held, ev = .release x ∧ l.next ev =
      ⟨l.manager.step ev, l.held.erase x, l.faults ++ (l.manager.release x).2.toList⟩) ∨
    (∃ x, x ∉ l.held ∧ ev = .release x ∧ l.next ev = l) ∨
    ev.lends = false ∧ l.next ev = { l with manager := l.manager.step ev } := by
  cases ev with
  | acquire spec => exact .inl ⟨spec, rfl, rfl⟩
  | release x =>
    by_cases hx : x ∈ l.held
    · exact .inr (.inl ⟨x, hx, rfl, if_pos hx⟩)
    · exact .inr (.inr (.inl ⟨x, hx, rfl, if_neg hx⟩))
  | _ => exact .inr (.inr (.inr ⟨rfl, rfl⟩))

/-- The manager does what is asked of it, or nothing. -/
theorem next_manager (l : Lending) (ev : ManagerEvent) :
    (l.next ev).manager = l.manager.step ev ∨ l.next ev = l := by
  rcases l.next_cases ev with ⟨spec, -, heq⟩ | ⟨x, -, -, heq⟩ | ⟨x, -, -, heq⟩ | ⟨-, heq⟩
  · exact .inl (by rw [heq])
  · exact .inl (by rw [heq])
  · exact .inr heq
  · exact .inl (by rw [heq])

/-- The manager does what is asked of it, unless a lease is to be given up that is not held. -/
theorem next_step (l : Lending) (ev : ManagerEvent) :
    (l.next ev).manager = l.manager.step ev ∨ (∃ x, ev = .release x) ∧ l.next ev = l := by
  rcases l.next_cases ev with ⟨spec, -, heq⟩ | ⟨x, -, -, heq⟩ | ⟨x, -, hev, heq⟩ | ⟨-, heq⟩
  · exact .inl (by rw [heq])
  · exact .inl (by rw [heq])
  · exact .inr ⟨⟨x, hev⟩, heq⟩
  · exact .inl (by rw [heq])

/-- **What acts keep of the leases is kept by events:** those that tasks hold, with those that users
hold. -/
theorem carry {P : QueryManager → List Lease → Prop} (hok : ManagerOK l.manager)
    (hc : Coherent l.manager) {ev : ManagerEvent}
    (hperm : ∀ {m : QueryManager} {xs ys : List Lease}, xs.Perm ys → P m xs → P m ys)
    (hqueue : ∀ {m m' : QueryManager} {xs : List Lease}, m' = { m with queue := m'.queue } →
      P m xs → P m' xs)
    (hacts : ∀ {t : TaskId} {given : Input} {m₀ m₁ : QueryManager} {x y : Option Lease}
      {fault : Option String} {held : List Lease}, ev.Gives l.manager t given →
      ManagerOK m₀ → Coherent m₀ → Acts t given ⟨m₀, x, none⟩ ⟨m₁, y, fault⟩ → P m₀ (x.toList ++ (m₀.othersLeases t ++ held)) →
      P m₁ (y.toList ++ (m₁.othersLeases t ++ held)))
    (h : P l.manager (l.manager.taskLeases ++ l.held)) :
    P (l.next ev).manager ((l.next ev).manager.taskLeases ++ (l.next ev).held) := by
  obtain ⟨hstart, hrun, hq, hhands, hgiven⟩ := performed hok hc ev
  rename_i t given m₀ m₁ x y fault
  have hothers : ∀ t, m₀.othersLeases t = l.manager.othersLeases t := by
    rcases hstart with rfl | rfl <;> exact fun t => rfl
  have hbefore : ManagerOK m₀ ∧ Coherent m₀ ∧ ∀ {xs : List Lease}, P l.manager xs → P m₀ xs := by
    rcases hstart with rfl | rfl
    · exact ⟨hok, hc, fun h => h⟩
    · exact ⟨hok.taken, hc.taken, fun h => hqueue rfl h⟩
  have hafter : (l.manager.step ev).taskLeases = m₁.taskLeases := by
    rw [hq.frame]
    rfl
  -- from the leases before to those after, whatever users hold meanwhile
  have hstep : ∀ held, P l.manager (x.toList ++ (l.manager.othersLeases t ++ held)) →
      P (l.manager.step ev) (y.toList ++ (m₁.othersLeases t ++ held)) := by
    intro held hp
    refine hqueue hq.frame (hacts hgiven hbefore.1 hbefore.2.1 hrun ?_)
    rw [hothers]
    exact hbefore.2.2 hp
  cases hhands with
  | acquire spec ht hlen =>
    rw [othersLeases_of_length ht, othersLeases_of_length hlen, ← hafter] at hstep
    refine hperm ?_ (hstep l.held h)
    show ((l.manager.acquire spec).2 :: (_ ++ l.held)).Perm (_ ++ (l.manager.acquire spec).2 :: l.held)
    exact List.perm_middle.symm
  | release x ht hlen =>
    rcases l.next_cases (.release x) with ⟨_, hev, -⟩ | ⟨z, hz, hev, heq⟩ | ⟨_, -, -, heq⟩ | ⟨hev, -⟩
    · simp at hev
    · obtain rfl := ManagerEvent.release.inj hev
      rw [heq]
      rw [othersLeases_of_length ht, othersLeases_of_length hlen, ← hafter] at hstep
      refine hstep (l.held.erase x) (hperm ?_ h)
      exact ((List.perm_cons_erase hz).append_left _).trans List.perm_middle
    · rw [heq]
      exact h
    · simp [ManagerEvent.lends] at hev
  | task hev =>
    have hnext : l.next ev = { l with manager := l.manager.step ev } := by
      rcases l.next_cases ev with ⟨_, rfl, -⟩ | ⟨_, -, rfl, -⟩ | ⟨_, -, rfl, -⟩ | ⟨-, heq⟩
      · simp [ManagerEvent.lends] at hev
      · simp [ManagerEvent.lends] at hev
      · simp [ManagerEvent.lends] at hev
      · exact heq
    have hleases : ∀ m : QueryManager, ((m.leaseOf? t).toList ++ (m.othersLeases t ++ l.held)).Perm
        (m.taskLeases ++ l.held) := by
      intro m
      rw [← List.append_assoc]
      exact (List.perm_append_comm.trans (othersLeases_perm m t)).append_right _
    rw [hnext]
    have hp := hstep l.held (hperm (hleases l.manager).symm h)
    simp only [hafter]
    exact hperm (hleases m₁) hp

/-- The manager is well formed, with all in its place and all leases on the books. -/
structure Sound (l : Lending) : Prop where
  ok : ManagerOK l.manager
  coherent : Coherent l.manager
  books : Books l.manager.registry (l.manager.taskLeases ++ l.held)

namespace Sound

theorem init : Sound {} := ⟨.init {}, .init {}, .empty⟩

theorem books_next (h : Sound l) (ev : ManagerEvent) :
    Books (l.next ev).manager.registry ((l.next ev).manager.taskLeases ++ (l.next ev).held) := by
  refine carry (P := fun m leases => Books m.registry leases) h.ok h.coherent (fun hp hb => hb.perm hp)
    (fun heq hb => ?_) (fun _ _ _ hacts hb => ?_) h.books
  · rw [heq]
    exact hb
  · exact Acts.books hacts hb

theorem next (h : Sound l) (ev : ManagerEvent) : Sound (l.next ev) := by
  refine ⟨?_, ?_, h.books_next ev⟩
  · rcases l.next_manager ev with heq | heq
    · rw [heq]; exact h.ok.step ev
    · rw [heq]; exact h.ok
  · rcases l.next_manager ev with heq | heq
    · rw [heq]; exact h.coherent.step h.ok ev
    · rw [heq]; exact h.coherent

theorem after (h : Sound l) (es : List ManagerEvent) : Sound (l.after es) := by
  induction es generalizing l with
  | nil => exact h
  | cons ev es ih => exact ih (h.next ev)

end Sound

end Lending

/-! ## Who uses a live query -/

/-- The instance is used for the query: by a user who holds a lease on it, a caller that waits, or a
subscription. -/
inductive Lending.Uses (l : Lending) (spec : QuerySpec) : InstanceId → Prop where
  | user {x : Lease} (hx : x ∈ l.held) (hk : x.key = spec.key) : Uses l spec x.id
  | caller {t : TaskId} {c : Caller} {id : InstanceId} {n : Int} {lease : Option Lease}
      (htask : l.manager.tasks[t]? = some (.caller c)) (haddr : c.addressee = .leased spec)
      (hst : c.stage = .waiting id n lease) : Uses l spec id
  | subscription {t : TaskId} {s : Subscription}
      (htask : l.manager.tasks[t]? = some (.subscription s)) (hrun : s.stage = .running)
      (hk : s.lease.key = spec.key) : Uses l spec s.lease.id

namespace Lending.Sound

variable {l : Lending} {a c : QuerySpec} {j : InstanceId}

theorem mem_taskLeases {x : Task} {y : Lease} (htask : m.tasks[t]? = some x) (hy : x.lease? = some y) :
    y ∈ m.taskLeases := List.mem_filterMap.2 ⟨x, List.mem_of_getElem? htask, hy⟩

/-- Who uses an instance for a query has a lease on it, on the query's key. -/
theorem uses_lease (h : Sound l) (hu : l.Uses spec id) :
    ∃ x ∈ l.manager.taskLeases ++ l.held, x.key = spec.key ∧ x.id = id := by
  cases hu with
  | user hx hk => exact ⟨_, List.mem_append_right _ hx, hk, rfl⟩
  | @caller t c _ n lease htask haddr hst =>
    obtain ⟨hasks, -⟩ := (h.coherent.caller htask).waiting id n lease hst
    cases hasks with
    | direct hdirect => rw [haddr] at hdirect; simp at hdirect
    | @leased spec' x e hleased hkey he hk =>
      rw [haddr] at hleased
      obtain rfl := Addressee.leased.inj hleased
      refine ⟨x, List.mem_append_left _ (mem_taskLeases htask ?_), hkey, rfl⟩
      simp only [Task.lease?, Caller.lease?, hst]
  | @subscription t s htask hrun hk =>
    refine ⟨s.lease, List.mem_append_left _ (mem_taskLeases htask ?_), hk, rfl⟩
    simp only [Task.lease?, Subscription.lease?, hrun]

/-- **Instances are the same if and only if the keys are.** -/
theorem uses_eq_iff (h : Sound l) (ha : l.Uses a id) (hc : l.Uses c j) : id = j ↔ a.key = c.key := by
  obtain ⟨x, hx, hxk, rfl⟩ := h.uses_lease ha
  obtain ⟨y, hy, hyk, rfl⟩ := h.uses_lease hc
  obtain ⟨cnt, hcnt, hobj⟩ := h.books.entry?_held hx
  obtain ⟨cnt', hcnt', hobj'⟩ := h.books.entry?_held hy
  rw [← hxk, ← hyk]
  constructor
  · intro hid
    -- the instance has one key, which both leases are on
    obtain ⟨e, he, hk⟩ := h.coherent.registered _ _ ⟨cnt, LeaseStep.mem_of_entry? hcnt, hobj⟩
    obtain ⟨e', he', hk'⟩ := h.coherent.registered _ _ ⟨cnt', LeaseStep.mem_of_entry? hcnt', hobj'⟩
    rw [hid, he'] at he
    rw [← hk, ← hk', Option.some.inj he]
  · intro hk
    rw [hk, hcnt'] at hcnt
    rw [← hobj, ← hobj', Option.some.inj hcnt]

end Lending.Sound

end QueryClient
