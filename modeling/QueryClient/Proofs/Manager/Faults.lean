import QueryClient.Proofs.Manager.Endings
import QueryClient.Proofs.Manager.Names
import QueryClient.Proofs.Manager.Turnout

/-!
# What can be wrong with a lease that is given up

A lease that is given up closes its live query if it is the last one. Something is wrong only if the
live query has been closed already, and while it is leased, only its users can do that.

* `Books.fault`: what is wrong with a lease, if anything is.
* `Lending.ClosesByHand`, `ClosedByHand`: a live query is closed while it is leased.
* `LeaseMoves`, `Lending.Sound.moves`: what an event does to leases and live queries.
* `Blameless`: a live query that is leased and closed was closed by hand, and so was that of every
  task that panicked.
* `LeaseDrops`, `lease_drops`: **giving up a lease panics if and only if** it is the last one on a
  live query that was closed by hand.
* `dropped_after_close`: such a run.
-/

namespace QueryClient

variable {m m' m₁ : QueryManager} {t u : TaskId} {id : InstanceId} {x y : Lease} {held : List Lease}
variable {hand : Option Lease} {key : QueryKey} {spec : QuerySpec} {l : Lending} {ev : ManagerEvent}
variable {es : List ManagerEvent} {text : String}

/-! ## What is wrong -/

/-- **What is wrong with a lease that is given up:** it is the last one on a live query that has been
closed. -/
theorem Books.fault (h : Books m.registry held) (hx : x ∈ held) : (m.releaseLease x).2 =
    if (∀ y ∈ held.erase x, y.key ≠ x.key) ∧ m.isOpen x.id = false then
      some (Registry.closedTwice x.key) else none := by
  rw [releaseLease_fault]
  rcases (h.perm (List.perm_cons_erase hx)).release.2 with ⟨hlast, hnone⟩ | ⟨hkept, y, hy, hyk⟩
  · rw [hlast]
    cases hopen : m.isOpen x.id with
    | true => simp [Registry.fault?]
    | false => rw [if_pos ⟨hnone, rfl⟩]; rfl
  · rw [hkept, if_neg fun hn => hn.1 y hy hyk]
    rfl

theorem Books.has (h : Books m.registry held) (hx : x ∈ held) : m.registry.Has x.key x.id := by
  obtain ⟨c, hc, hid⟩ := h.entry?_held hx
  exact ⟨c, LeaseStep.mem_of_entry? hc, hid⟩

/-- What is registered is leased. -/
theorem Books.exists_lease (h : Books m.registry held) (hhas : m.registry.Has key id) :
    ∃ x ∈ held, x.key = key ∧ x.id = id := by
  obtain ⟨c, hc, rfl⟩ := hhas
  have hentry : m.registry.entry? key = some c := by
    unfold Registry.entry?
    obtain ⟨e, he⟩ := Option.isSome_iff_exists.1 (List.find?_isSome.2 ⟨(key, c), hc, by simp⟩ :
      (m.registry.entries.find? fun e => decide (e.1 = key)).isSome)
    have hek : e.1 = key := by simpa using List.find?_some he
    have heq := List.inj_on_of_nodup_map h.nodup (List.mem_of_find?_eq_some he) hc hek
    rw [he, heq]
    rfl
  exact h.exists_held hentry

/-- The live query that a release closes is not registered any more. -/
theorem releaseLease_has (hr : Registered m) (x : Lease)
    (hhas : (m.releaseLease x).1.registry.Has key id) :
    m.registry.Has key id ∧ (m.releaseLease x).1.isOpen id = m.isOpen id := by
  rw [registry_releaseLease] at hhas
  have hbefore : m.registry.Has key id := hhas.of_release
  refine ⟨hbefore, ?_⟩
  rw [releaseLease_isOpen]
  by_cases hlast : (m.registry.release x.key x.id).2 = .last ∧ id = x.id
  · obtain ⟨hlast, rfl⟩ := hlast
    obtain ⟨hhas', hnone⟩ := Registry.release_last hlast
    -- the instance has one key, whose entry is gone
    obtain ⟨e, he, hk⟩ := hr _ _ hbefore
    obtain ⟨e', he', hk'⟩ := hr _ _ hhas'
    obtain rfl := Option.some.inj (he.symm.trans he')
    obtain ⟨c, hc, -⟩ := hhas
    have hsome := Registry.mem_keys.1 (List.mem_map.2 ⟨_, hc, rfl⟩)
    rw [← hk, hk', hnone] at hsome
    simp at hsome
  · rw [not_and] at hlast
    by_cases hout : (m.registry.release x.key x.id).2 = .last
    · simp [hlast hout]
    · simp [hout]

/-! ## What a task does -/

/-- What remains registered was so before, and is open as before; who panicked did so before, or in
its block, or gave up the last lease on a live query that had been closed. -/
structure LeaseEffect (m : QueryManager) (hand : Option Lease) (m' : QueryManager) : Prop where
  has : ∀ key id, m'.registry.Has key id → m.registry.Has key id ∧ m'.isOpen id = m.isOpen id
  opens : ∀ id, m'.isOpen id → m.isOpen id
  faults : ∀ u text, m'.faultOf? u = some text → m.faultOf? u = some text ∨ m'.BlockFailed u text ∨
    ∃ x, hand = some x ∧ m.isOpen x.id = false ∧ text = Registry.closedTwice x.key

theorem Still.effect (h : Still m m') (hand : Option Lease) : LeaseEffect m hand m' := by
  refine ⟨fun key id hhas => ⟨?_, h.leases.isOpen id⟩, fun id ho => ?_, fun u text hu => .inl (h.faults u text hu)⟩
  · rwa [h.leases.registry] at hhas
  · rwa [h.leases.isOpen] at ho

/-- What is wrong with the lease in the hands of a task. -/
theorem Books.fault_some (h : Books m.registry held) (hx : x ∈ held)
    (hfault : (m.releaseLease x).2 = some text) :
    m.isOpen x.id = false ∧ text = Registry.closedTwice x.key := by
  rw [h.fault hx] at hfault
  split at hfault
  · rename_i hlast
    exact ⟨hlast.2, (Option.some.inj hfault).symm⟩
  · simp at hfault

theorem Turnout.effect (h : Turnout m hand m') (hr : Registered m) (hb : Books m.registry held)
    (hhand : ∀ x, hand = some x → x ∈ held) : LeaseEffect m hand m' := by
  cases h with
  | keeps h => exact h.effect hand
  | @drops lease _ h hf =>
    refine ⟨fun key id hhas => ?_, fun id ho => ?_, fun u text hu => ?_⟩
    · rw [h.registry] at hhas
      rw [h.isOpen]
      exact releaseLease_has hr lease hhas
    · rw [h.isOpen, releaseLease_isOpen, Bool.and_eq_true] at ho
      exact ho.1
    · rcases hf u text hu with hold | hfault | hblock
      · exact .inl hold
      · exact .inr (.inr ⟨lease, rfl, hb.fault_some (hhand lease rfl) hfault⟩)
      · exact .inr (.inl hblock)

/-! ## What events do -/

/-- **A live query is closed while it is leased:** by a user, or by the block of a caller that has just
leased it. -/
inductive Lending.ClosesByHand (l : Lending) : ManagerEvent → InstanceId → Prop where
  | user {x : Lease} (hx : x ∈ l.manager.taskLeases ++ l.held) : ClosesByHand l (.close x.id) x.id
  | block {t : TaskId} {rest : List TaskId} {c : Caller} {spec : QuerySpec}
      (hq : l.manager.queue = t :: rest) (htask : l.manager.tasks[t]? = some (.caller c))
      (hst : c.stage = .arriving) (haddr : c.addressee = .leased spec) (hcloses : c.block.closes) :
      ClosesByHand l .poll (l.manager.acquire spec).2.id

/-- What an event does to leases and live queries. -/
structure LeaseMoves (l : Lending) (ev : ManagerEvent) (l' : Lending) : Prop where
  has : ∀ key id, l'.manager.registry.Has key id →
    l.manager.registry.Has key id ∨ l.manager.lives.length ≤ id
  /-- No live query is opened again. -/
  opens : ∀ id, l'.manager.isOpen id → l.manager.isOpen id ∨ l.manager.lives.length ≤ id
  /-- One that is closed while it is leased is closed by hand. -/
  closes : ∀ key id, l'.manager.registry.Has key id → l'.manager.isOpen id = false →
    l.manager.registry.Has key id ∧ l.manager.isOpen id = false ∨ l.ClosesByHand ev id
  by_hand : ∀ id, l.ClosesByHand ev id → l'.manager.isOpen id = false
  faults : ∀ u text, l'.manager.faultOf? u = some text → l.manager.faultOf? u = some text ∨
    l'.manager.BlockFailed u text ∨ ∃ x : Lease, text = Registry.closedTwice x.key ∧
      (l.manager.registry.Has x.key x.id ∧ l.manager.isOpen x.id = false ∨ l.ClosesByHand ev x.id)
  released : ∀ text ∈ l'.faults, text ∈ l.faults ∨ ∃ x : Lease, text = Registry.closedTwice x.key ∧
    l.manager.registry.Has x.key x.id ∧ l.manager.isOpen x.id = false

/-! ## The parts of an event -/

/-- **A lease is taken, or none:** what is registered was so before and is as it was, or is a new live
query, which is open. -/
structure LeaseTaken (m m' : QueryManager) : Prop where
  has : ∀ key id, m'.registry.Has key id → m.registry.Has key id ∧ m'.isOpen id = m.isOpen id ∨
    m.lives.length ≤ id ∧ m'.isOpen id = true
  opens : ∀ id, m'.isOpen id → m.isOpen id ∨ m.lives.length ≤ id
  faults : ∀ u, m'.faultOf? u = m.faultOf? u

theorem LeaseTaken.refl (m : QueryManager) : LeaseTaken m m :=
  ⟨fun _ _ h => .inl ⟨h, rfl⟩, fun _ h => .inl h, fun _ => rfl⟩

theorem acquire_isOpen (hr : Registered m) (spec : QuerySpec) (hid : id < m.lives.length) :
    (m.acquire spec).1.isOpen id = m.isOpen id := by
  rcases acquire_cases hr spec with ⟨cnt, e, -, -, -, hacq⟩ | ⟨-, hacq⟩ <;> rw [hacq]
  · rfl
  · show ((m.lives ++ [_])[id]?).any _ = _
    rw [List.getElem?_append_left hid]
    rfl

theorem Registered.lt_length (hr : Registered m) (hhas : m.registry.Has key id) : id < m.lives.length := by
  obtain ⟨e, he, -⟩ := hr key id hhas
  obtain ⟨q, hq, -⟩ := QueryManager.executor?_eq_some.1 he
  exact (List.getElem?_eq_some_iff.1 hq).1

theorem LeaseTaken.acquire (hr : Registered m) (spec : QuerySpec) : LeaseTaken m (m.acquire spec).1 := by
  refine ⟨fun key id hhas => ?_, fun id ho => ?_, fun u => ?_⟩
  · have hbefore : m.registry.Has key id → (m.acquire spec).1.isOpen id = m.isOpen id :=
      fun hhas => acquire_isOpen hr spec (hr.lt_length hhas)
    rcases acquire_cases hr spec with ⟨cnt, e, hc, -, -, hacq⟩ | ⟨hnone, hacq⟩ <;> rw [hacq] at hhas hbefore ⊢
    · have hhas := hhas.of_setEntry hc (d := cnt.increment) rfl
      exact .inl ⟨hhas, hbefore hhas⟩
    · have hreg : (m.registry.acquire spec.key m.lives.length).1.Has key id := hhas
      unfold Registry.acquire at hreg
      rw [hnone] at hreg
      obtain ⟨c, hc, hid⟩ := hreg
      rcases List.mem_append.1 hc with hc | hc
      · exact .inl ⟨⟨c, hc, hid⟩, hbefore ⟨c, hc, hid⟩⟩
      · obtain ⟨-, rfl⟩ := Prod.mk.inj (List.mem_singleton.1 hc)
        obtain rfl : m.lives.length = id := hid
        refine .inr ⟨Nat.le_refl _, ?_⟩
        show ((m.lives ++ [_])[m.lives.length]?).any _ = true
        rw [List.getElem?_append_right (Nat.le_refl _), Nat.sub_self]
        rfl
  · rcases Nat.lt_or_ge id m.lives.length with hlt | hge
    · rw [acquire_isOpen hr spec hlt] at ho
      exact .inl ho
    · exact .inr hge
  · unfold QueryManager.faultOf?
    rw [tasks_acquire]

/-- **What is closed by hand is closed,** and nothing else is that is registered. -/
structure HandCloses (l : Lending) (ev : ManagerEvent) (m m' : QueryManager) : Prop where
  registry : m'.registry = m.registry
  faults : ∀ u, m'.faultOf? u = m.faultOf? u
  opens : ∀ id, m'.isOpen id → m.isOpen id ∧ ¬ l.ClosesByHand ev id
  closes : ∀ key id, m.registry.Has key id → m'.isOpen id = false →
    m.isOpen id = false ∨ l.ClosesByHand ev id

theorem HandCloses.refl (m : QueryManager) (hev : ∀ id, ¬ l.ClosesByHand ev id) : HandCloses l ev m m :=
  ⟨rfl, fun _ => rfl, fun id ho => ⟨ho, hev id⟩, fun _ _ _ h => .inl h⟩

/-- A lease may be taken, live queries may be closed by hand, and a lease may be given up. -/
theorem LeaseMoves.of_parts {m₂ : QueryManager} (ht : LeaseTaken l.manager m₁)
    (hc : HandCloses l ev m₁ m₂) (he : LeaseEffect m₂ hand m')
    (hhand : ∀ x, hand = some x → m₁.registry.Has x.key x.id) (held : List Lease) :
    LeaseMoves l ev { l with manager := m', held } := by
  have hregistered : ∀ key id, m₁.registry.Has key id → m₂.isOpen id = false →
      l.manager.registry.Has key id ∧ l.manager.isOpen id = false ∨ l.ClosesByHand ev id := by
    intro key id hhas hclosed
    refine (hc.closes key id hhas hclosed).imp_left fun hclosed => ?_
    rcases ht.has key id hhas with ⟨hbefore, hopen⟩ | ⟨-, hopen⟩
    · exact ⟨hbefore, hopen ▸ hclosed⟩
    · rw [hopen] at hclosed
      simp at hclosed
  constructor
  case has =>
    intro key id hhas
    have hhas := (he.has key id hhas).1
    rw [hc.registry] at hhas
    exact (ht.has key id hhas).imp And.left And.left
  case opens => exact fun id ho => ht.opens id (hc.opens id (he.opens id ho)).1
  case closes =>
    intro key id hhas hclosed
    obtain ⟨hhas, hopen⟩ := he.has key id hhas
    rw [hc.registry] at hhas
    exact hregistered key id hhas (hopen ▸ hclosed)
  case by_hand =>
    intro id hby
    show m'.isOpen id = false
    cases hopen : m'.isOpen id with
    | false => rfl
    | true => exact absurd hby (hc.opens id (he.opens id hopen)).2
  case faults =>
    intro u text hu
    rcases he.faults u text hu with hold | hblock | ⟨x, hx, hclosed, rfl⟩
    · rw [hc.faults, ht.faults] at hold
      exact .inl hold
    · exact .inr (.inl hblock)
    · exact .inr (.inr ⟨x, rfl, hregistered _ _ (hhand x hx) hclosed⟩)
  case released => exact fun text htext => .inl htext

/-! ## Callers that arrive -/

theorem Books.acquireLease (h : Books m.registry held) (spec : QuerySpec) :
    Books (m.acquire spec).1.registry ((m.acquire spec).2 :: held) := by
  have hreg : (m.acquire spec).1.registry = (m.registry.acquire spec.key m.lives.length).1 := by
    unfold QueryManager.acquire
    simp only
    split <;> rfl
  rw [hreg]
  exact h.acquire spec.key m.lives.length

theorem blocked_frame (m : QueryManager) (c : Caller) (x : Lease) :
    LeaseStep m (m.blocked c x) ∧ (m.blocked c x).registry = m.registry := by
  unfold QueryManager.blocked
  split
  · exact ⟨.closeInstance m x.id, registry_closeInstance m x.id⟩
  · exact ⟨.refl m, rfl⟩

/-- What the block of a caller does to live queries. -/
theorem HandCloses.blocked (m : QueryManager) (c : Caller) (x : Lease)
    (hev : ∀ id, l.ClosesByHand ev id ↔ c.block.closes ∧ id = x.id) :
    HandCloses l ev m (m.blocked c x) := by
  obtain ⟨hframe, hreg⟩ := blocked_frame m c x
  have hopen : ∀ id, (m.blocked c x).isOpen id = (m.isOpen id && !(c.block.closes && decide (id = x.id))) := by
    intro id
    unfold QueryManager.blocked
    cases c.block.closes with
    | true => simp [closeInstance_isOpen]
    | false => simp
  refine ⟨hreg, fun u => ?_, fun id ho => ?_, fun key id _ hclosed => ?_⟩
  · unfold QueryManager.faultOf?
    rw [hframe.frame]
  · rw [hopen, Bool.and_eq_true, Bool.not_eq_true'] at ho
    refine ⟨ho.1, fun hby => ?_⟩
    rw [hev] at hby
    simp [hby.1, hby.2] at ho
  · rw [hopen] at hclosed
    rw [hev]
    cases hid : m.isOpen id with
    | false => exact .inl rfl
    | true => exact .inr (by simpa [hid] using hclosed)

/-- **A caller that has just taken a lease** keeps it or gives it up, after its block. -/
theorem Turnout.arriveWith (m : QueryManager) (t : TaskId) (c : Caller) (x : Lease) :
    Turnout (m.blocked c x) (some x) (m.arriveWith t c x) := by
  unfold QueryManager.arriveWith
  split
  · exact .failBlock _ t c x ‹_›
  · exact .callInstance _ t c _ _

theorem poll_arrival {rest : List TaskId} {c : Caller} (hq : m.queue = t :: rest)
    (htask : m.tasks[t]? = some (.caller c)) (hst : c.stage = .arriving)
    (haddr : c.addressee = .leased spec) :
    m.poll = ((m.taken.acquire spec).1.arriveWith t c (m.taken.acquire spec).2).wake := by
  rw [poll_eq hq, ← QueryManager.arrive_leased haddr]
  unfold QueryManager.runTask
  rw [show m.taken.tasks[t]? = some (.caller c) from htask]
  simp only [hst]

/-- A caller that arrives takes a lease first. -/
theorem LeaseMoves.arrival (hsound : l.Sound) {rest : List TaskId} {c : Caller} {spec : QuerySpec}
    (hq : l.manager.queue = t :: rest) (htask : l.manager.tasks[t]? = some (.caller c))
    (hst : c.stage = .arriving) (haddr : c.addressee = .leased spec) :
    LeaseMoves l .poll { l with manager := l.manager.poll } := by
  have hr : Registered l.manager.taken := hsound.coherent.registered
  have hev : ∀ id, l.ClosesByHand .poll id ↔
      c.block.closes ∧ id = (l.manager.taken.acquire spec).2.id := by
    intro id
    constructor
    · intro hc
      cases hc with
      | block hq' htask' _ haddr' hcloses =>
        obtain ⟨rfl, -⟩ := List.cons.inj (hq.symm.trans hq')
        obtain rfl := Task.caller.inj (Option.some.inj (htask.symm.trans htask'))
        obtain rfl := Addressee.leased.inj (haddr.symm.trans haddr')
        exact ⟨hcloses, rfl⟩
    · rintro ⟨hcloses, rfl⟩
      exact .block hq htask hst haddr hcloses
  have hbooks := Books.acquireLease (m := l.manager.taken) hsound.books spec
  have hr₁ := (hr.acquire spec).1
  -- the queue says nothing of leases
  have htaken : LeaseTaken l.manager (l.manager.taken.acquire spec).1 :=
    let taken := LeaseTaken.acquire hr spec
    ⟨taken.has, taken.opens, taken.faults⟩
  rw [poll_arrival hq htask hst haddr]
  generalize l.manager.taken.acquire spec = r at *
  obtain ⟨m₁, x⟩ := r
  obtain ⟨hframe, hreg⟩ := blocked_frame m₁ c x
  have hr₂ : Registered (m₁.blocked c x) :=
    hr₁.mono (.of_leaseStep hframe) fun key id hhas => by rwa [hreg] at hhas
  refine .of_parts htaken (.blocked m₁ c x hev) (((Turnout.arriveWith m₁ t c x).queued (.wake _)).effect hr₂
    (by rw [hreg]; exact hbooks) fun y hy => ?_) (fun y hy => ?_) l.held
  · rw [← Option.some.inj hy]
    exact List.mem_cons_self
  · rw [← Option.some.inj hy]
    exact hbooks.has List.mem_cons_self

/-! ## Events -/

/-- An event that is of no concern to leases. -/
theorem LeaseMoves.of_still (h : Still l.manager m') (hev : ∀ id, ¬ l.ClosesByHand ev id) :
    LeaseMoves l ev { l with manager := m' } :=
  .of_parts (.refl _) (.refl _ hev) (h.effect none) (by simp) l.held

/-- The work of a task that takes no lease. -/
theorem LeaseMoves.of_turnout (hsound : l.Sound) (h : Turnout l.manager (l.manager.leaseOf? t) m')
    (hev : ∀ id, ¬ l.ClosesByHand ev id) : LeaseMoves l ev { l with manager := m' } := by
  have hhand : ∀ x, l.manager.leaseOf? t = some x → x ∈ l.manager.taskLeases ++ l.held := by
    intro x hx
    obtain ⟨y, htask, hy⟩ := Option.bind_eq_some_iff.1 hx
    exact List.mem_append_left _ (Lending.Sound.mem_taskLeases htask hy)
  exact .of_parts (.refl _) (.refl _ hev) (h.effect hsound.coherent.registered hsound.books hhand)
    (fun x hx => hsound.books.has (hhand x hx)) l.held

/-- A user closes a live query. -/
theorem HandCloses.close (hsound : l.Sound) (i : InstanceId) :
    HandCloses l (.close i) l.manager (l.manager.close i).1 := by
  have hopen : ∀ id, (l.manager.close i).1.isOpen id = (l.manager.isOpen id && decide (id ≠ i)) := by
    intro id
    rw [← closeInstance_isOpen]
    exact (SameLeases.queued (.wake _)).isOpen id
  have hqueued : Queued (l.manager.closeInstance i).1 (l.manager.close i).1 := .wake _
  refine ⟨?_, fun u => ?_, fun id ho => ?_, fun key id hhas hclosed => ?_⟩
  · rw [hqueued.frame]
    exact registry_closeInstance l.manager i
  · unfold QueryManager.faultOf?
    rw [hqueued.frame]
    exact congrArg (fun tasks : List Task => (tasks[u]?).bind Task.fault?) (tasks_closeInstance l.manager i)
  · rw [hopen, Bool.and_eq_true, decide_eq_true_iff] at ho
    refine ⟨ho.1, fun hby => ?_⟩
    cases hby with
    | user => exact ho.2 rfl
  · by_cases hid : id = i
    · subst hid
      obtain ⟨x, hx, -, rfl⟩ := hsound.books.exists_lease hhas
      exact .inr (.user hx)
    · rw [hopen] at hclosed
      exact .inl (by simpa [hid] using hclosed)

/-- A task that is queued runs. -/
theorem LeaseMoves.poll (hsound : l.Sound) : LeaseMoves l .poll { l with manager := l.manager.poll } := by
  cases hq : l.manager.queue with
  | nil =>
    rw [poll_nil hq]
    refine .of_still (.refl _) fun id hby => ?_
    cases hby with
    | block hq' => simp [hq] at hq'
  | cons t rest =>
    by_cases harrives : ∃ c spec, l.manager.tasks[t]? = some (.caller c) ∧ c.stage = .arriving ∧
        c.addressee = .leased spec
    · obtain ⟨c, spec, htask, hst, haddr⟩ := harrives
      exact .arrival hsound hq htask hst haddr
    · have htaken : Still l.manager l.manager.taken := .of_tasks (.of_lives rfl rfl) rfl
      have hrun : Turnout l.manager.taken (l.manager.leaseOf? t) (l.manager.taken.runTask t) :=
        .runTask l.manager.taken t fun c spec htask hst haddr => harrives ⟨c, spec, htask, hst, haddr⟩
      rw [poll_eq hq]
      refine .of_turnout hsound ((hrun.after htaken).queued (.wake _)) fun id hby => ?_
      cases hby with
      | block hq' htask hst haddr =>
        obtain ⟨rfl, -⟩ := List.cons.inj (hq.symm.trans hq')
        exact harrives ⟨_, _, htask, hst, haddr⟩

/-- A user gives up a lease. -/
theorem LeaseMoves.release (hsound : l.Sound) (x : Lease) :
    LeaseMoves l (.release x) (l.next (.release x)) := by
  have hnot : ∀ id, ¬ l.ClosesByHand (.release x) id := fun id hby => nomatch hby
  rcases l.next_cases (.release x) with ⟨_, hev, -⟩ | ⟨y, hy, hev, heq⟩ | ⟨y, -, hev, heq⟩ | ⟨hev, -⟩
  · simp at hev
  · obtain rfl := ManagerEvent.release.inj hev
    have hx : x ∈ l.manager.taskLeases ++ l.held := List.mem_append_right _ hy
    have hgives : Turnout l.manager (some x) (l.manager.release x).1 :=
      .queued (.drops (.refl _) fun u text hu => by
        rw [faultOf?_releaseLease] at hu
        exact .inl hu) (.wake _)
    have hmoves : LeaseMoves l (.release x) { l with manager := (l.manager.release x).1, held := l.held.erase x } :=
      .of_parts (.refl _) (.refl _ hnot)
        (hgives.effect hsound.coherent.registered hsound.books fun y hy => Option.some.inj hy ▸ hx)
        (fun y hy => Option.some.inj hy ▸ hsound.books.has hx) _
    rw [heq]
    refine { hmoves with released := fun text htext => ?_ }
    rcases List.mem_append.1 htext with hold | hfault
    · exact .inl hold
    · obtain ⟨hclosed, htext⟩ := hsound.books.fault_some hx (Option.mem_toList.1 hfault)
      exact .inr ⟨x, htext, hsound.books.has hx, hclosed⟩
  · rw [heq]
    exact .of_still (.refl _) hnot
  · simp [ManagerEvent.lends] at hev

/-- A new subscription takes a lease. -/
theorem Still.subscribe (m : QueryManager) (spec : QuerySpec) (executes : Bool)
    (react : Delivery → Reaction) : Still (m.acquire spec).1 (m.subscribe spec executes react).1 := by
  unfold QueryManager.subscribe
  simp only
  split
  · exact .refl _
  · split
    · exact (Still.spawn _ rfl).trans (.spawn _ rfl)
    · exact .spawn _ rfl

theorem Still.unsubscribe (m : QueryManager) (u : TaskId) : Still m (m.unsubscribe u) := by
  unfold QueryManager.unsubscribe
  split
  · rename_i s htask
    refine Still.trans ⟨.setTask m u _, fun v text hv => ?_⟩ (.queued (.wake _))
    rcases faultOf?_setTask hv with hold | ⟨rfl, -, hfault⟩
    · exact hold
    · unfold QueryManager.faultOf?
      rw [htask]
      exact hfault
  · exact .refl m

theorem Still.answers (m : QueryManager) (u : TaskId) (reply : Reply) :
    Still m (m.answer u reply) ∧ Still m (m.answerNow u reply) := by
  rcases answer_eq m u reply with ⟨heq, heq'⟩ | ⟨id, n, e, -, -, heq, heq'⟩ <;> rw [heq, heq']
  · exact ⟨.refl m, .refl m⟩
  · exact ⟨(Still.setExecutor m id _).trans (.queued (.wake _)),
      (Still.setExecutor m id _).trans (.queued (.wake _))⟩

theorem Still.closeExecutor (m : QueryManager) (i : InstanceId) : Still m (m.closeExecutor i) := by
  have hqueued : Queued _ (m.closeExecutor i) := .wake _
  refine Still.trans ?_ (.queued hqueued)
  refine .of_tasks (.of_closed rfl fun id => ?_) rfl
  rw [List.getElem?_modify]
  cases m.lives[id]? with
  | none => rfl
  | some q => by_cases hi : i = id <;> simp [hi]

theorem Still.cancel (m : QueryManager) : Still m m.cancel := by
  have hqueued : Queued _ m.cancel := .foldl_wakeTask _ _
  refine Still.trans ?_ (.queued hqueued)
  refine .of_tasks (.of_closed rfl fun id => ?_) rfl
  rw [List.getElem?_map]
  cases m.lives[id]? <;> rfl

/-- **What an event does to leases and live queries.** -/
theorem Lending.Sound.moves (hsound : l.Sound) (ev : ManagerEvent) : LeaseMoves l ev (l.next ev) := by
  have hr := hsound.coherent.registered
  cases ev with
  | drawn => exact .of_still (.of_tasks (.of_lives rfl rfl) rfl) fun id hby => nomatch hby
  | poll => exact .poll hsound
  | favour u => exact .of_still (.queued (.favour _ u)) fun id hby => nomatch hby
  | acquire spec =>
    have hnot : ∀ id, ¬ l.ClosesByHand (.acquire spec) id := nofun
    exact .of_parts (.acquire hr spec) (.refl _ hnot) ((Still.refl _).effect none) (by simp) _
  | release x => exact .release hsound x
  | close i =>
    exact .of_parts (.refl _) (.close hsound i) ((Still.refl _).effect none) (by simp) _
  | closeExecutor i => exact .of_still (.closeExecutor _ i) fun id hby => nomatch hby
  | ask addressee block => exact .of_still (.spawn _ rfl) fun id hby => nomatch hby
  | abort u => exact .of_turnout hsound (.abort _ u) fun id hby => nomatch hby
  | subscribe spec executes react =>
    have hnot : ∀ id, ¬ l.ClosesByHand (.subscribe spec executes react) id := nofun
    exact .of_parts (.acquire hr spec) (.refl _ hnot)
      ((Still.subscribe _ spec executes react).effect none) (by simp) _
  | unsubscribe u => exact .of_still (.unsubscribe _ u) fun id hby => nomatch hby
  | answer u reply => exact .of_still (Still.answers _ u reply).1 fun id hby => nomatch hby
  | answerNow u reply => exact .of_still (Still.answers _ u reply).2 fun id hby => nomatch hby
  | cancel => exact .of_still (.cancel _) fun id hby => nomatch hby

/-! ## Runs -/

namespace Lending

/-- All tasks keep what they have, and at most one goes on. -/
theorem Sound.tasksKept (hsound : l.Sound) (ev : ManagerEvent) :
    ∃ t, TasksKept t l.manager (l.next ev).manager := by
  rcases l.next_manager ev with heq | heq
  · obtain ⟨hstart, hacts, hq, -, -⟩ := performed hsound.ok hsound.coherent ev
    rename_i t given m₀ m₁ x y fault
    have hkept : TasksKept t m₀ m₁ := hacts.tasksKept
    refine ⟨t, fun u x hx => ?_⟩
    rw [heq, hq.frame]
    rcases hstart with rfl | rfl
    · exact hkept u x hx
    · exact hkept u x hx
  · refine ⟨0, fun u x hx => ⟨x, ?_, .refl x, fun _ => rfl⟩⟩
    rw [heq]
    exact hx

/-- Who has panicked in its block stays so. -/
theorem Sound.blockFailed (hsound : l.Sound) (ev : ManagerEvent) (h : l.manager.BlockFailed u text) :
    (l.next ev).manager.BlockFailed u text := by
  obtain ⟨htext, c, htask, hpanics, hst⟩ := h
  obtain ⟨t, hkept⟩ := hsound.tasksKept ev
  obtain ⟨y, hy, hsame, -⟩ := hkept u _ htask
  cases hsame with
  | caller _ hend =>
    obtain rfl := hend _ hst
    exact ⟨htext, _, hy, hpanics, hst⟩

/-- There is a live query that is closed by hand. -/
theorem Sound.lt_of_closes (hsound : l.Sound) (h : l.ClosesByHand ev id) :
    id < (l.next ev).manager.lives.length := by
  have hr := hsound.coherent.registered
  cases h with
  | user hx => exact Nat.lt_of_lt_of_le (hr.lt_length (hsound.books.has hx)) (Grows.next hsound _).lives
  | @block t rest c spec hq htask hst haddr hcloses =>
    have hr' : Registered l.manager.taken := hr
    obtain ⟨-, e, he, -⟩ := hr'.acquire spec
    obtain ⟨q, hlive, -⟩ := QueryManager.executor?_eq_some.1 he
    have hgrows : Grows (l.manager.taken.acquire spec).1 l.manager.poll := by
      rw [poll_arrival hq htask hst haddr]
      exact (Grows.arriveWith _ t c _).trans (.queued (.wake _))
    exact Nat.lt_of_lt_of_le (List.getElem?_eq_some_iff.1 hlive).1 hgrows.lives

end Lending

/-- **In the run the live query was closed while it was leased.** -/
def ClosedByHand (es : List ManagerEvent) (id : InstanceId) : Prop :=
  ∃ before ev, before ++ [ev] <+: es ∧ (({} : Lending).after before).ClosesByHand ev id

theorem closedByHand_concat : ClosedByHand (es ++ [ev]) id ↔
    ClosedByHand es id ∨ (({} : Lending).after es).ClosesByHand ev id := by
  constructor
  · rintro ⟨before, ev', hprefix, hcloses⟩
    rcases List.prefix_concat_iff.1 hprefix with heq | hprefix
    · obtain ⟨rfl, hev⟩ := List.append_inj' heq rfl
      obtain rfl := List.singleton_inj.1 hev
      exact .inr hcloses
    · exact .inl ⟨before, ev', hprefix, hcloses⟩
  · rintro (⟨before, ev', hprefix, hcloses⟩ | hcloses)
    · exact ⟨before, ev', hprefix.trans (List.prefix_append _ _), hcloses⟩
    · exact ⟨es, ev, List.prefix_rfl, hcloses⟩

/-- **What is leased and closed was closed by hand,** and so was what any lease was on with which
something was wrong. -/
structure Blameless (es : List ManagerEvent) (l : Lending) : Prop where
  closed : ∀ key id, l.manager.registry.Has key id → l.manager.isOpen id = false → ClosedByHand es id
  by_hand : ∀ id, ClosedByHand es id → id < l.manager.lives.length ∧ l.manager.isOpen id = false
  tasks : ∀ u text, l.manager.faultOf? u = some text → l.manager.BlockFailed u text ∨
    ∃ x : Lease, text = Registry.closedTwice x.key ∧ ClosedByHand es x.id
  users : ∀ text ∈ l.faults, ∃ x : Lease, text = Registry.closedTwice x.key ∧ ClosedByHand es x.id

theorem Blameless.next (hsound : l.Sound) (hl : l = ({} : Lending).after es) (h : Blameless es l)
    (ev : ManagerEvent) : Blameless (es ++ [ev]) (l.next ev) := by
  have hmoves := hsound.moves ev
  have hconcat : ∀ {id}, ClosedByHand es id ∨ l.ClosesByHand ev id → ClosedByHand (es ++ [ev]) id := by
    intro id hid
    rw [hl] at hid
    exact closedByHand_concat.2 hid
  constructor
  case closed =>
    intro key id hhas hclosed
    exact hconcat ((hmoves.closes key id hhas hclosed).imp_left fun hbefore => h.closed key id hbefore.1 hbefore.2)
  case by_hand =>
    intro id hby
    rcases closedByHand_concat.1 hby with hbefore | hnow
    · obtain ⟨hlt, hclosed⟩ := h.by_hand id hbefore
      refine ⟨Nat.lt_of_lt_of_le hlt (Grows.next hsound ev).lives, ?_⟩
      cases hopen : (l.next ev).manager.isOpen id with
      | false => rfl
      | true =>
        -- no live query is opened again
        rcases hmoves.opens id hopen with hopen | hge
        · rw [hclosed] at hopen
          simp at hopen
        · exact absurd hlt (Nat.not_lt.2 hge)
    · rw [← hl] at hnow
      exact ⟨hsound.lt_of_closes hnow, hmoves.by_hand id hnow⟩
  case tasks =>
    intro u text hu
    rcases hmoves.faults u text hu with hold | hblock | ⟨x, htext, hx⟩
    · rcases h.tasks u text hold with hblock | ⟨x, htext, hx⟩
      · exact .inl (hsound.blockFailed ev hblock)
      · exact .inr ⟨x, htext, hconcat (.inl hx)⟩
    · exact .inl hblock
    · exact .inr ⟨x, htext, hconcat (hx.imp_left fun hbefore => h.closed _ _ hbefore.1 hbefore.2)⟩
  case users =>
    intro text htext
    rcases hmoves.released text htext with hold | ⟨x, htext, hhas, hclosed⟩
    · obtain ⟨x, htext, hx⟩ := h.users text hold
      exact ⟨x, htext, hconcat (.inl hx)⟩
    · exact ⟨x, htext, hconcat (.inl (h.closed _ _ hhas hclosed))⟩

theorem Blameless.after (es : List ManagerEvent) : Blameless es (({} : Lending).after es) := by
  induction es using List.reverseRecOn with
  | nil =>
    refine ⟨fun key id hhas => ?_, fun id hby => ?_, fun u text hu => ?_, fun text htext => ?_⟩
    · obtain ⟨c, hc, -⟩ := hhas
      exact nomatch hc
    · obtain ⟨before, ev, hprefix, -⟩ := hby
      have hlen := hprefix.length_le
      simp at hlen
    · exact nomatch hu
    · exact nomatch htext
  | append_singleton es ev ih =>
    have hnext : ({} : Lending).after (es ++ [ev]) = (({} : Lending).after es).next ev := List.foldl_concat ..
    rw [hnext]
    exact ih.next (.after .init es) rfl ev

/-! ## The result -/

/-- There is no other lease on the key. -/
def Lending.IsLast (l : Lending) (x : Lease) : Prop :=
  ∀ y ∈ (l.manager.taskLeases ++ l.held).erase x, y.key ≠ x.key

/-- **What comes of giving up a lease,** whoever holds it. -/
structure LeaseDrops (es : List ManagerEvent) (l : Lending) : Prop where
  /-- The last lease on a live query that was closed by hand panics, -/
  panics : ∀ x ∈ l.manager.taskLeases ++ l.held, l.IsLast x → ClosedByHand es x.id →
    (l.manager.release x).2 = some (Registry.closedTwice x.key)
  /-- and no other does. -/
  returns : ∀ x ∈ l.manager.taskLeases ++ l.held, ¬ (l.IsLast x ∧ ClosedByHand es x.id) →
    (l.manager.release x).2 = none
  /-- Either way the entry is gone with the last lease. -/
  removed : ∀ x ∈ l.manager.taskLeases ++ l.held,
    (l.manager.release x).1.registry.entry? x.key = none ↔ l.IsLast x
  /-- So it was with all leases that were given up: by users, -/
  users : ∀ text ∈ l.faults, ∃ x : Lease, text = Registry.closedTwice x.key ∧ ClosedByHand es x.id
  /-- and by callers and subscriptions; others have panicked only in blocks of their own. -/
  tasks : ∀ u text, l.manager.faultOf? u = some text → l.manager.BlockFailed u text ∨
    ∃ x : Lease, text = Registry.closedTwice x.key ∧ ClosedByHand es x.id

theorem lease_drops (es : List ManagerEvent) : LeaseDrops es (({} : Lending).after es) := by
  have hsound : (({} : Lending).after es).Sound := .after .init es
  have hblameless := Blameless.after es
  generalize ({} : Lending).after es = l at hsound hblameless ⊢
  have hfault : ∀ x ∈ l.manager.taskLeases ++ l.held, (l.manager.release x).2 = _ :=
    fun x hx => hsound.books.fault hx
  constructor
  case panics =>
    intro x hx hlast hby
    rw [hfault x hx, if_pos ⟨hlast, (hblameless.by_hand _ hby).2⟩]
  case returns =>
    intro x hx hnot
    rw [hfault x hx, if_neg]
    rintro ⟨hlast, hclosed⟩
    exact hnot ⟨hlast, hblameless.closed _ _ (hsound.books.has hx) hclosed⟩
  case removed =>
    intro x hx
    have hqueued : Queued (l.manager.releaseLease x).1 (l.manager.release x).1 := .wake _
    rw [hqueued.frame]
    show (l.manager.releaseLease x).1.registry.entry? x.key = none ↔ _
    rw [registry_releaseLease]
    have hbooks := (hsound.books.perm (List.perm_cons_erase hx)).release.1
    rw [← Option.not_isSome_iff_eq_none, hbooks.isSome_entry?]
    simp [Lending.IsLast]
  case users => exact hblameless.users
  case tasks => exact hblameless.tasks

/-- A film whose live query is closed by the one who has leased it. -/
def closedFilm : QuerySpec := ⟨"GetMovie", [("id", .int 7)]⟩

/-- **Giving up a lease can panic.** -/
theorem dropped_after_close :
    (({} : Lending).after [.acquire closedFilm, .close 0, .release ⟨closedFilm.key, 0⟩]).faults =
      [Registry.closedTwice closedFilm.key] := by
  decide +kernel

end QueryClient
