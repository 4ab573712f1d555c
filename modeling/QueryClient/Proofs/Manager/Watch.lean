import QueryClient.Proofs.Executor.Reader
import QueryClient.Proofs.Manager.Run

/-!
# A subscription that is watched

Whatever happens to a manager, a subscription is behind its executor by one result at most, as long as the
order of the queue is kept: when a result is stored the subscription is queued, and an attempt that is
started while it has not run yet gets a task that stands behind it in the queue.

* `Follower.expected`, `Updates.owed`: what the subscription is to hand over in all, and what is left.
* `Following`: what was handed over and what is left are what is expected.
* `Awaits`: what the queue holds as long as a result has not been read.
* `Watch.effect`: a run of another task keeps both.
* `Follower.Rests.deliver`: a run of the subscription leaves nothing.
* `Watch.step`: **every event keeps both,** unless it changes the order of the queue.
-/

namespace QueryClient

/-- A subscription, and where it was when the order of the queue began to be kept. -/
structure Follower where
  task : TaskId
  id : InstanceId
  react : Delivery → Reaction
  /-- What the executor had stored when the subscription was created, the latest first. -/
  old : List NumberedOutcome
  /-- What of the results that were stored since had been read, the latest first. -/
  before : List NumberedOutcome
  /-- What comes before the results that are stored from then on. -/
  first : List Delivery

/-- What a subscription has handed over. -/
def QueryManager.handed (m : QueryManager) (task : TaskId) : List Delivery :=
  m.journal.filterMap fun n => match n with
    | .handed t d => if t = task then some d else none
    | _ => none

/-- **All that is to be handed over** when the given results have been stored since, in order. -/
def Follower.expected (w : Follower) (stored : List NumberedOutcome) : List Delivery :=
  w.first ++ stored.map (⟨·, .server⟩)

/-- What is left to be handed over. -/
def Updates.owed (u : Updates) (unread : List NumberedOutcome) : List Delivery :=
  u.pending.map (⟨·, .cache⟩) ++ unread.reverse.map (⟨·, .server⟩)

/-- What was handed over and what is left are what is expected. -/
structure Following (w : Follower) (m : QueryManager) (e : Executor) (s : Subscription)
    (unread read : List NumberedOutcome) : Prop where
  reading : Reading e s.updates unread (read ++ w.before) w.old
  lease : s.lease.id = w.id
  react : s.react = w.react
  balance : (∃ left, m.handed w.task ++ left = w.expected (unread ++ read).reverse) ∧
    (s.stage = .running → m.handed w.task ++ s.updates.owed unread = w.expected (unread ++ read).reverse)
  ended : s.stage ≠ .running →
    s.cancelled ∨ m.cancelled ∨ ∃ d ∈ m.handed w.task, (w.react d).panics

/-- While a result has not been read, an attempt in the slot has not begun, and its task stands
behind the subscription. -/
structure Awaits (strict : Prop) (w : Follower) (m : QueryManager) (e : Executor) (s : Subscription)
    (unread : List NumberedOutcome) : Prop where
  one : unread.length ≤ 1
  spawned : unread ≠ [] → ∀ a ∈ e.attempts, e.slot = some a.number → a.stage = .spawned
  behind : unread ≠ [] → ∀ n, e.slot = some n → ∀ t, m.tasks[t]? = some (.attempt w.id n) →
    [w.task, t].Sublist m.queue
  queued : strict → s.updates.ready e → w.task ∈ m.queue

/-- The subscription is watched. Unless `strict`, it need not be queued yet. -/
structure Watch (strict : Prop) (w : Follower) (m : QueryManager) : Prop where
  ok : ManagerOK m
  state : ∃ e s unread read, m.executor? w.id = some e ∧
    m.tasks[w.task]? = some (.subscription s) ∧ Following w m e s unread read ∧
    (s.stage = .running → Awaits strict w m e s unread)

variable {strict : Prop} {w : Follower} {m m' : QueryManager} {t u : TaskId} {e e' : Executor}
variable {s : Subscription} {unread read : List NumberedOutcome} {o : NumberedOutcome} {b : Bool}

/-! ## What has been handed over -/

theorem handed_note (m : QueryManager) (n : Note) (h : ∀ d, n ≠ .handed t d) :
    (m.note n).handed t = m.handed t := by
  unfold QueryManager.handed QueryManager.note
  rw [List.filterMap_append]
  cases n with
  | handed u d =>
    have hne : u ≠ t := fun hu => h d (by rw [hu])
    simp [hne]
  | _ => simp

theorem handed_handed (m : QueryManager) (t : TaskId) (d : Delivery) :
    (m.note (.handed t d)).handed t = m.handed t ++ [d] := by
  unfold QueryManager.handed QueryManager.note
  rw [List.filterMap_append]
  simp

namespace Following

/-- Nothing changes for the subscription. -/
theorem mono (h : Following w m e s unread read) (hr : e'.results = e.results)
    (hh : m'.handed w.task = m.handed w.task) (hc : m.cancelled → m'.cancelled) :
    Following w m' e' s unread read := by
  refine ⟨h.reading.of_results hr, h.lease, h.react, ?_, ?_⟩
  · rw [hh]; exact h.balance
  · rw [hh]
    exact fun hs => (h.ended hs).imp_right (Or.imp_left hc)

/-- A result is stored. -/
theorem stored (h : Following w m e s unread read) (hr : e'.results = o :: e.results)
    (hh : m'.handed w.task = m.handed w.task) (hc : m.cancelled → m'.cancelled) :
    Following w m' e' s (o :: unread) read := by
  have hexp : w.expected (o :: unread ++ read).reverse =
      w.expected (unread ++ read).reverse ++ [⟨o, .server⟩] := by
    simp [Follower.expected]
  refine ⟨h.reading.of_stored hr, h.lease, h.react, ?_, ?_⟩
  · rw [hh, hexp]
    obtain ⟨⟨left, hleft⟩, hrun⟩ := h.balance
    refine ⟨⟨left ++ [⟨o, .server⟩], by rw [← hleft, List.append_assoc]⟩, fun hs => ?_⟩
    rw [← hrun hs]
    simp [Updates.owed]
  · rw [hh]
    exact fun hs => (h.ended hs).imp_right (Or.imp_left hc)

/-- One of the results that are left is handed over. -/
theorem hand (h : Following w m e s unread read) (hrun : s.stage = .running) {updates : Updates}
    {unread' read' : List NumberedOutcome} (hr : Reading e updates unread' (read' ++ w.before) w.old)
    (hall : unread' ++ read' = unread ++ read)
    (howed : s.updates.owed unread = ⟨o, updates.source o⟩ :: updates.owed unread') (c : Bool) :
    Following w (m.note (.handed w.task ⟨o, updates.source o⟩)) e
      { s with updates, cancelled := c } unread' read' := by
  have hbal : (m.note (.handed w.task ⟨o, updates.source o⟩)).handed w.task ++ updates.owed unread' =
      w.expected (unread' ++ read').reverse := by
    rw [hall, ← h.balance.2 hrun, howed, handed_handed]
    simp
  exact ⟨hr, h.lease, h.react, ⟨⟨_, hbal⟩, fun _ => hbal⟩, fun hne => absurd hrun hne⟩

end Following

namespace Awaits

/-- Nothing changes for the subscription but what stands behind it. -/
theorem mono (h : Awaits strict w m e s unread) (hslot : e'.slot = e.slot)
    (hatt : e'.attempts = e.attempts) (hver : e'.version = e.version)
    (hq : m.queue.Sublist m'.queue)
    (ht : ∀ (t : TaskId) (n : Int), m'.tasks[t]? = some (Task.attempt w.id n) →
      m.tasks[t]? = some (Task.attempt w.id n)) :
    Awaits strict w m' e' s unread := by
  refine ⟨h.one, ?_, ?_, ?_⟩
  · rw [hslot, hatt]; exact h.spawned
  · rw [hslot]
    exact fun hne n hn t htask => (h.behind hne n hn t (ht t n htask)).trans hq
  · intro hs hready
    have : s.updates.ready e := by
      unfold Updates.ready at hready ⊢
      rw [← hver]
      exact hready
    exact hq.subset (h.queued hs this)

/-- An attempt that moves on leaves nothing unread. -/
theorem unread_eq_nil (h : Awaits strict w m e s unread) {sup : Supply} (hok : ExecutorOK sup e)
    {a : Attempt} {rest : List Attempt} (hl : e.attempts = a :: rest) (hu : a.Unsettled)
    (ht : m.HasTurn t w.id a) : unread = [] := by
  by_contra hne
  have ha : a ∈ e.attempts := by rw [hl]; exact List.mem_cons_self
  have hslot := (hok.head_of_unsettled ha hu).2
  rcases ht with hst | ⟨htask, hq⟩
  · exact hst (h.spawned hne a ha hslot)
  · have hsub := h.behind hne _ hslot t htask
    exact hq (hsub.subset (by simp))

end Awaits

namespace Watch

/-- The executor's results, its attempts and the subscription stay as they are. -/
theorem mono (h : Watch strict w m) (hok : ManagerOK m')
    (he : ∀ e, m.executor? w.id = some e → ∃ e', m'.executor? w.id = some e' ∧
      e'.results = e.results ∧ e'.slot = e.slot ∧ e'.attempts = e.attempts)
    (hs : m'.tasks[w.task]? = m.tasks[w.task]?)
    (hh : m'.handed w.task = m.handed w.task) (hc : m.cancelled → m'.cancelled)
    (hq : m.queue.Sublist m'.queue)
    (ht : ∀ (t : TaskId) (n : Int), m'.tasks[t]? = some (Task.attempt w.id n) →
      m.tasks[t]? = some (Task.attempt w.id n)) : Watch strict w m' := by
  obtain ⟨e, s, unread, read, he₀, hs₀, hf, ha⟩ := h.state
  obtain ⟨e', he', hres, hslot, hatt⟩ := he e he₀
  have hver : e'.version = e.version := by
    rw [(hok.executor he').version, (h.ok.executor he₀).version, hres]
  exact ⟨hok, e', s, unread, read, he', hs.trans hs₀, hf.mono hres hh hc,
    fun hrun => (ha hrun).mono hslot hatt hver hq ht⟩

/-- An attempt whose turn it is moves on, or ends. -/
theorem move (h : Watch strict w m) (hok : ManagerOK m') {id : InstanceId} {e e' : Executor}
    {a : Attempt} {rest : List Attempt} (he : m.executor? id = some e)
    (hl : e.attempts = a :: rest) (hu : a.Unsettled) (ht : m.HasTurn t id a)
    (hm' : m' = m.setExecutor id e') {strict' : Prop} (himp : strict' → strict)
    (hres : (e'.results = e.results ∧ e'.version = e.version) ∨
      ¬ strict' ∧ e'.slot = none ∧ ∃ o, e'.results = o :: e.results) :
    Watch strict' w m' := by
  obtain ⟨f, s, unread, read, hf₀, hs₀, hf, ha⟩ := h.state
  by_cases hid : id = w.id
  · subst hid
    obtain rfl : e = f := Option.some.inj (he.symm.trans hf₀)
    have he' : m'.executor? w.id = some e' := by
      rw [hm', QueryManager.executor?_setExecutor_self he]
    have hs' : m'.tasks[w.task]? = some (.subscription s) := by rw [hm']; exact hs₀
    have hh : m'.handed w.task = m.handed w.task := by rw [hm']; rfl
    have hc : m.cancelled → m'.cancelled := by rw [hm']; exact fun hc => hc
    have hnil : s.stage = .running → unread = [] := fun hrun =>
      (ha hrun).unread_eq_nil (h.ok.executor he) hl hu ht
    rcases hres with ⟨hres, hver⟩ | ⟨hno, hslot, o, hres⟩
    · refine ⟨hok, e', s, unread, read, he', hs', hf.mono hres hh hc, fun hrun => ?_⟩
      have hn := hnil hrun
      refine ⟨(ha hrun).one, absurd hn, absurd hn, fun hst hready => ?_⟩
      rw [hm']
      refine (ha hrun).queued (himp hst) ?_
      unfold Updates.ready at hready ⊢
      rw [← hver]
      exact hready
    · refine ⟨hok, e', s, o :: unread, read, he', hs', hf.stored hres hh hc, fun hrun => ?_⟩
      refine ⟨by rw [hnil hrun]; simp, ?_, ?_, fun hst => absurd hst hno⟩
      · rw [hslot]; simp
      · rw [hslot]; simp
  · have hbefore : Watch strict' w m := by
      refine ⟨h.ok, f, s, unread, read, hf₀, hs₀, hf, fun hrun => ?_⟩
      have := ha hrun
      exact ⟨this.one, this.spawned, this.behind, fun hst => this.queued (himp hst)⟩
    refine hbefore.mono hok ?_ (by rw [hm']; rfl) (by rw [hm']; rfl) (by rw [hm']; exact fun hc => hc)
      (by rw [hm']; exact List.Sublist.refl _) (by rw [hm']; exact fun t n ht => ht)
    intro g hg
    refine ⟨g, ?_, rfl, rfl, rfl⟩
    rw [hm', QueryManager.executor?_setExecutor_ne hid]
    exact hg

/-- **What does not concern results does not concern the subscription.** -/
theorem calm (h : Watch strict w m) (hc : Calm t m m') (ht : t ≠ w.task) : Watch strict w m' := by
  have hok := hc.ok h.ok
  cases hc with
  | note n hn =>
    refine h.mono hok (fun e he => ⟨e, he, rfl, rfl, rfl⟩) rfl (handed_note m n ?_) (fun hc => hc)
      (List.Sublist.refl _) fun _ _ ht => ht
    exact fun d hd => ht (hn w.task d hd).1.symm
  | setTask x hx =>
    refine h.mono hok (fun e he => ⟨e, he, rfl, rfl, rfl⟩) (List.getElem?_set_ne ht) rfl
      (fun hc => hc) (List.Sublist.refl _) ?_
    intro u n hu
    have hu' : (m.tasks.set t x)[u]? = some (Task.attempt w.id n) := hu
    rw [List.getElem?_set] at hu'
    split at hu'
    · split at hu'
      · exact absurd (Option.some.inj hu') (hx _ _)
      · simp at hu'
    · exact hu'
  | spawn x hx =>
    obtain ⟨e, s, unread, read, he, hs, hf, ha⟩ := h.state
    refine h.mono hok (fun e he => ⟨e, he, rfl, rfl, rfl⟩)
      (List.getElem?_append_left (List.getElem?_eq_some_iff.1 hs).1) rfl
      (fun hc => hc) (List.sublist_append_left _ _) ?_
    intro u n hu
    have hu' : (m.tasks ++ [x])[u]? = some (Task.attempt w.id n) := hu
    rcases Nat.lt_or_ge u m.tasks.length with hlt | hge
    · rw [List.getElem?_append_left hlt] at hu'
      exact hu'
    · rw [List.getElem?_append_right hge] at hu'
      have := List.mem_of_getElem? hu'
      exact absurd (List.mem_singleton.1 this).symm (hx _ _)
  | cancel =>
    exact h.mono hok (fun e he => ⟨e, he, rfl, rfl, rfl⟩) rfl rfl (fun _ => rfl)
      (List.Sublist.refl _) fun _ _ ht => ht
  | draw s hn hr =>
    exact h.mono hok (fun e he => ⟨e, he, rfl, rfl, rfl⟩) rfl rfl (fun hc => hc)
      (List.Sublist.refl _) fun _ _ ht => ht
  | leases hl =>
    refine h.mono hok ?_ (by rw [hl.frame]) (by rw [hl.frame]; rfl) (by rw [hl.frame]; exact fun hc => hc)
      (by rw [hl.frame]) (by rw [hl.frame]; exact fun _ _ ht => ht)
    intro e he
    obtain ⟨e', he', rfl | rfl⟩ := hl.kept w.id e he
    · exact ⟨_, he', rfl, rfl, rfl⟩
    · exact ⟨_, he', rfl, rfl, rfl⟩
  | advance he hl hu hst hturn =>
    exact h.move hok he hl hu hturn rfl (fun hs => hs)
      (.inl ⟨ExecutorOK.results_advance hl hu hst, rfl⟩)

/-- **An attempt that is started stands behind a subscription that has not run yet.** -/
theorem start (h : Watch True w m) (hs : Start m m') : Watch True w m' := by
  have hok := hs.ok h.ok
  obtain ⟨e, s, unread, read, he, hsub, hf, ha⟩ := h.state
  cases hs with
  | @intro id f n r sup hg hslot hn hr hn' hr' =>
    have hlt := (List.getElem?_eq_some_iff.1 hsub).1
    have htask : (m.tasks ++ [Task.attempt id n])[w.task]? = some (.subscription s) :=
      (List.getElem?_append_left hlt).trans hsub
    -- the task of an attempt of this executor is old, or the new one
    have hold : ∀ u k, (m.tasks ++ [Task.attempt id n])[u]? = some (.attempt w.id k) →
        m.tasks[u]? = some (.attempt w.id k) ∨ u = m.tasks.length ∧ id = w.id ∧ n = k := by
      intro u k hu
      rcases Nat.lt_or_ge u m.tasks.length with hlt | hge
      · rw [List.getElem?_append_left hlt] at hu
        exact .inl hu
      · have hlen := (List.getElem?_eq_some_iff.1 hu).1
        rw [List.length_append, List.length_singleton] at hlen
        rw [List.getElem?_append_right hge] at hu
        injection List.mem_singleton.1 (List.mem_of_getElem? hu) with h₁ h₂
        exact .inr ⟨by omega, h₁.symm, h₂.symm⟩
    by_cases hid : id = w.id
    · subst hid
      obtain rfl : e = f := Option.some.inj (he.symm.trans hg)
      have hres : (e.start n r).results = e.results := List.filterMap_cons_none rfl
      refine ⟨hok, e.start n r, s, unread, read,
        QueryManager.executor?_setExecutor_self (m := { m with supply := sup }) he _, htask,
        hf.mono hres rfl (fun hc => hc), fun hrun => ⟨(ha hrun).one, ?_, ?_, ?_⟩⟩
      · intro _ a hmem hsa
        rcases List.mem_cons.1 hmem with rfl | hmem
        · rfl
        · have hd := ((h.ok.executor he).drawn a hmem).1
          have : n = a.number := Option.some.inj hsa
          omega
      · intro hne k hk u hu
        obtain rfl : n = k := Option.some.inj hk
        rcases hold u n hu with hu | ⟨rfl, -⟩
        · have := h.ok.numbered _ _ (List.mem_of_getElem? hu)
          omega
        · have hready : s.updates.ready e :=
            (hf.reading.ready_iff (h.ok.executor he)).2 (.inr hne)
          have hmem := (ha hrun).queued trivial hready
          exact (List.singleton_sublist.2 hmem).append (List.Sublist.refl [m.tasks.length])
      · intro _ hready
        exact List.mem_append_left _ ((ha hrun).queued trivial hready)
    · refine h.mono hok ?_ (htask.trans hsub.symm) rfl (fun hc => hc) (List.sublist_append_left _ _) ?_
      · intro g hg
        refine ⟨g, ?_, rfl, rfl, rfl⟩
        exact (QueryManager.executor?_setExecutor_ne (m := { m with supply := sup }) hid _).trans hg
      · intro u k hu
        rcases hold u k hu with hu | ⟨-, hid', -⟩
        · exact hu
        · exact absurd hid' hid

theorem store (h : Watch strict w m) (hs : Store t m m') : Watch False w m' := by
  have hok := hs.ok h.ok
  cases hs with
  | intro result he hl hu ht =>
    exact h.move hok he hl hu ht rfl False.elim
      (.inr ⟨fun hf => hf, rfl, _, ExecutorOK.results_store hl hu _⟩)

/-- **A run of another task** keeps the subscription watched; it is queued again when a result was
stored. -/
theorem effect (h : Watch True w m) (hf : Effect t m b m') (ht : t ≠ w.task) :
    Watch (b = false) w m' := by
  induction hf with
  | refl => exact ⟨h.ok, by simpa using h.state⟩
  | calm _ hc ih => exact ih.calm hc ht
  | @start m₁ m₂ _ hs ih =>
    have hstrict : Watch True w m₁ := by simpa using ih
    simpa using hstrict.start hs
  | store _ hs ih => simpa using ih.store hs

theorem appended (h : Watch strict w m) (hq : Appended m m') : Watch strict w m' := by
  have hok := hq.ok h.ok
  refine h.mono hok (fun e he => ⟨e, hq.executor.trans he, rfl, rfl, rfl⟩) (by rw [hq.frame])
    (by rw [hq.frame]; rfl) (by rw [hq.frame]; exact fun hc => hc) hq.behind.sublist
    (by rw [hq.frame]; exact fun _ _ ht => ht)

/-- The subscription is queued when it has to be. -/
theorem wake (h : Watch strict w m) : Watch True w m.wake := by
  obtain ⟨hok, e, s, unread, read, he, hs, hf, ha⟩ := h.appended (.wake m)
  refine ⟨hok, e, s, unread, read, he, hs, hf, fun hrun => ?_⟩
  refine ⟨(ha hrun).one, (ha hrun).spawned, (ha hrun).behind, fun _ hready => ?_⟩
  have hq := Queued.wake m
  have hs₀ : m.tasks[w.task]? = some (.subscription s) := by
    rw [← hs, hq.frame]
  refine mem_queue_wake hs₀ ?_
  rw [← hq.isReady]
  simp [QueryManager.isReady, hrun, hf.lease, he, hready]

end Watch

/-! ## The subscription runs -/

/-- What is left when the subscription's task is done with a run. -/
def Follower.Rests (w : Follower) (m : QueryManager) : Prop :=
  ∃ e s unread read, m.executor? w.id = some e ∧ m.tasks[w.task]? = some (.subscription s) ∧
    Following w m e s unread read ∧ (s.stage = .running → unread = [] ∧ s.updates.pending = [])

namespace Follower.Rests

theorem watch (h : w.Rests m) (hok : ManagerOK m) : Watch True w m := by
  obtain ⟨e, s, unread, read, he, hs, hf, hrest⟩ := h
  refine ⟨hok, e, s, unread, read, he, hs, hf, fun hrun => ?_⟩
  obtain ⟨rfl, hp⟩ := hrest hrun
  refine ⟨by simp, absurd rfl, absurd rfl, fun _ hready => ?_⟩
  rcases (hf.reading.ready_iff (hok.executor he)).1 hready with hp' | hu
  · exact absurd hp hp'
  · exact absurd rfl hu

/-- The subscription ends. -/
theorem endSubscription (he : m.executor? w.id = some e) (ht : w.task < m.tasks.length)
    (hf : Following w m e s unread read)
    (hc : s.cancelled ∨ m.cancelled ∨ ∃ d ∈ m.handed w.task, (w.react d).panics) :
    w.Rests (m.endSubscription w.task s) := by
  have hl := LeaseStep.releaseLease m s.lease
  have hend : ∀ m₁ : QueryManager, LeaseStep m m₁ → ∀ stage, stage ≠ .running →
      w.Rests (m₁.setTask w.task (.subscription { s with stage })) := by
    intro m₁ hl stage hne
    have hh : (m₁.setTask w.task (.subscription { s with stage })).handed w.task =
        m.handed w.task := by
      unfold QueryManager.handed QueryManager.setTask
      rw [hl.frame]
    have hres : ∃ e', m₁.executor? w.id = some e' ∧ e'.results = e.results := by
      obtain ⟨e', he', rfl | rfl⟩ := hl.kept w.id e he
      · exact ⟨_, he', rfl⟩
      · exact ⟨_, he', rfl⟩
    obtain ⟨e', he', hres⟩ := hres
    have htask : (m₁.setTask w.task (.subscription { s with stage })).tasks[w.task]? =
        some (.subscription { s with stage }) := by
      refine List.getElem?_set_self ?_
      rw [hl.frame]
      exact ht
    refine ⟨e', { s with stage }, unread, read, he', htask,
      ⟨hf.reading.of_results hres, hf.lease, hf.react, ?_, ?_⟩, fun hrun => absurd hrun hne⟩
    · rw [hh]
      exact ⟨hf.balance.1, fun hrun => absurd hrun hne⟩
    · rw [hh]
      refine fun _ => hc.imp_right (Or.imp_left fun hc => ?_)
      show m₁.cancelled
      rw [hl.frame]
      exact hc
  unfold QueryManager.endSubscription
  split
  · rename_i m₁ hm₁
    rw [hm₁] at hl
    obtain ⟨e', s', unread', read', he', hs', hf', hrest⟩ := hend m₁ hl .completed (by simp)
    exact ⟨e', s', unread', read', he', hs', hf'.mono rfl (handed_note _ _ (by simp)) fun hc => hc,
      hrest⟩
  · rename_i m₁ text hm₁
    rw [hm₁] at hl
    exact hend m₁ hl (.panicked text) (by simp)

/-- **A run of the subscription hands over all that is left,** unless it ends. -/
theorem deliver (fuel : ℕ) : ∀ {m : QueryManager} {s : Subscription}
    {unread read : List NumberedOutcome}, ManagerOK m → m.executor? w.id = some e →
    w.task < m.tasks.length → s.stage = .running → Following w m e s unread read →
    unread.length ≤ 1 → s.updates.pending.length + unread.length < fuel →
    w.Rests (QueryManager.deliver fuel m w.task s) := by
  induction fuel with
  | zero => intro m s unread read _ _ _ _ _ _ hfuel; omega
  | succ fuel ih =>
    intro m s unread read hok he ht hrun hf hone hfuel
    unfold QueryManager.deliver
    split
    · rename_i hc
      rw [Bool.or_eq_true] at hc
      exact endSubscription he ht hf (hc.imp_right .inl)
    rw [hf.lease, he]
    simp only
    -- a result is handed over, and then the subscription ends or goes on
    have hand : ∀ {updates : Updates} {o : NumberedOutcome} {unread' read' : List NumberedOutcome},
        Reading e updates unread' (read' ++ w.before) w.old → unread' ++ read' = unread ++ read →
        s.updates.owed unread = ⟨o, updates.source o⟩ :: updates.owed unread' →
        unread'.length ≤ 1 → updates.pending.length + unread'.length < fuel →
        w.Rests (if (s.react ⟨o, updates.source o⟩).panics then
          ((m.note (.handed w.task ⟨o, updates.source o⟩)).note
              (.failed (QueryManager.handlerPanicked s.lease.key))).endSubscription w.task
            { s with
              updates
              cancelled := s.cancelled || (s.react ⟨o, updates.source o⟩).unsubscribes }
        else QueryManager.deliver fuel (m.note (.handed w.task ⟨o, updates.source o⟩)) w.task
          { s with
            updates
            cancelled := s.cancelled || (s.react ⟨o, updates.source o⟩).unsubscribes }) := by
      intro updates o unread' read' hread hall howed hone' hfuel'
      have hf' := hf.hand hrun hread hall howed
        (s.cancelled || (s.react ⟨o, updates.source o⟩).unsubscribes)
      split
      · rename_i hpanics
        refine endSubscription he ht
          (hf'.mono rfl (handed_note _ _ (by simp)) fun hc => hc) (.inr (.inr ?_))
        refine ⟨⟨o, updates.source o⟩, ?_, by rw [← hf.react]; exact hpanics⟩
        rw [handed_note _ _ (by simp), handed_handed]
        exact List.mem_append_right _ List.mem_cons_self
      · have hok' := Calm.ok (.note (t := w.task) (.handed w.task ⟨o, updates.source o⟩)
          fun u d hd => by injection hd with hu; exact ⟨hu.symm, ht⟩) hok
        exact ih hok' he ht hrun hf' hone' hfuel'
    have hexec := hok.executor he
    cases hp : s.updates.pending with
    | cons p rest =>
      obtain ⟨hnext, hread⟩ := hf.reading.next_pending hp
      have hsource : Updates.source { s.updates with pending := rest } p = .cache :=
        hread.source_cache hexec (hf.reading.pending p (by rw [hp]; exact List.mem_cons_self))
      rw [hp, List.length_cons] at hfuel
      rw [hnext]
      refine hand hread rfl ?_ hone (by show rest.length + _ < _; omega)
      rw [hsource]
      simp [Updates.owed, hp]
    | nil =>
      rw [hp, List.length_nil] at hfuel
      rcases unread with _ | ⟨o, _ | ⟨o', rest⟩⟩
      · -- nothing is left
        rw [hf.reading.next_none hexec hp]
        show w.Rests (m.setTask w.task (.subscription s))
        have hset : (m.setTask w.task (.subscription s)).tasks[w.task]? = some (.subscription s) :=
          List.getElem?_set_self ht
        have hf' : Following w (m.setTask w.task (.subscription s)) e s [] read :=
          hf.mono rfl rfl fun hc => hc
        exact ⟨e, s, [], read, he, hset, hf', fun _ => ⟨rfl, hp⟩⟩
      · -- the result that was stored last is left
        obtain ⟨hnext, hread⟩ := hf.reading.next_unread hexec hp
        have hsource : Updates.source { s.updates with
            seen := e.version
            delivered := some o.number } o = .server :=
          hread.source_server hexec (by simp)
        have hread' : Reading e _ [] (o :: read ++ w.before) w.old := hread
        rw [hnext]
        refine hand hread' rfl ?_ (by simp) ?_
        · rw [hsource]
          simp [Updates.owed, hp]
        · show s.updates.pending.length + 0 < fuel
          rw [hp]
          simp only [List.length_nil, List.length_cons] at hfuel ⊢
          omega
      · simp at hone

end Follower.Rests

namespace Watch

/-- **A subscription that has read everything** can be followed from there, whatever came before. -/
theorem resume {old : List NumberedOutcome} (hok : ManagerOK m) (he : m.executor? s.lease.id = some e)
    (hs : m.tasks[t]? = some (.subscription s)) (hr : Reading e s.updates [] read old)
    (hp : s.updates.pending = []) (hrun : s.stage = .running) :
    Watch True ⟨t, s.lease.id, s.react, old, read, m.handed t⟩ m := by
  have hbalance : m.handed t ++ s.updates.owed [] = m.handed t ++ [] := by
    simp [Updates.owed, hp]
  exact Follower.Rests.watch ⟨e, s, [], [], he, hs,
    ⟨hr, rfl, rfl, ⟨⟨_, hbalance⟩, fun _ => hbalance⟩, fun hne => absurd hrun hne⟩, fun _ => ⟨rfl, hp⟩⟩ hok

/-! ## Every event -/

/-- The subscription is taken from the queue and runs. -/
theorem runTask (h : Watch strict w m) : Watch True w (m.taken.runTask w.task) := by
  obtain ⟨hok, e, s, unread, read, he, hs, hf, ha⟩ := h
  have ht := (List.getElem?_eq_some_iff.1 hs).1
  have hf' : Following w m.taken e s unread read := hf.mono rfl rfl fun hc => hc
  unfold QueryManager.runTask
  rw [show m.taken.tasks[w.task]? = some (.subscription s) from hs]
  simp only
  split
  · rename_i hrun
    have hok' : ManagerOK (QueryManager.deliver (s.updates.pending.length + 2) m.taken w.task s) :=
      (Effect.deliver (m := m.taken) (b := false) _ s ht .refl).ok hok.taken
    have hone := (ha hrun).one
    exact (Follower.Rests.deliver _ hok.taken he ht hrun hf' hone (by omega)).watch hok'
  · rename_i hend
    exact ⟨hok.taken, e, s, unread, read, he, hs, hf', fun hrun => absurd hrun (by simpa using hend)⟩

/-- Another task is taken from the queue. -/
theorem taken (h : Watch strict w m) {rest : List TaskId} (hq : m.queue = t :: rest)
    (ht : t ≠ w.task) : Watch strict w m.taken := by
  obtain ⟨hok, e, s, unread, read, he, hs, hf, ha⟩ := h
  have htail : m.taken.queue = rest := by unfold QueryManager.taken; rw [hq]; rfl
  refine ⟨hok.taken, e, s, unread, read, he, hs, hf.mono rfl rfl fun hc => hc, fun hrun => ?_⟩
  refine ⟨(ha hrun).one, (ha hrun).spawned, fun hne n hn u hu => ?_, fun hst hready => ?_⟩
  · have hsub := (ha hrun).behind hne n hn u hu
    rw [hq] at hsub
    rw [htail]
    rcases List.sublist_cons_iff.1 hsub with hsub | ⟨r, hr, -⟩
    · exact hsub
    · injection hr with hwt
      exact absurd hwt.symm ht
  · have hmem := (ha hrun).queued hst hready
    rw [hq] at hmem
    rw [htail]
    rcases List.mem_cons.1 hmem with hwt | hmem
    · exact absurd hwt.symm ht
    · exact hmem

theorem poll (h : Watch True w m) : Watch True w m.poll := by
  cases hq : m.queue with
  | nil => rw [poll_nil hq]; exact h
  | cons t rest =>
    by_cases ht : t = w.task
    · subst ht
      rw [poll_eq hq]
      exact h.runTask.wake
    · obtain ⟨b, m₁, hf, hpoll⟩ := poll_effect h.ok hq
      rw [hpoll]
      exact ((h.taken hq ht).effect hf ht).wake

/-- The subscription's handle is given up, or another's. -/
theorem unsubscribe (h : Watch True w m) (u : TaskId) : Watch True w (m.unsubscribe u) := by
  by_cases hu : u = w.task
  · subst hu
    obtain ⟨hok, e, s, unread, read, he, hs, hf, ha⟩ := h
    have hcalm : Calm w.task m (m.setTask w.task (.subscription { s with cancelled := true })) :=
      .setTask _ (by simp)
    unfold QueryManager.unsubscribe
    rw [hs]
    have hwatch : Watch True w (m.setTask w.task (.subscription { s with cancelled := true })) := by
      refine ⟨hcalm.ok hok, e, { s with cancelled := true }, unread, read, he,
        List.getElem?_set_self (List.getElem?_eq_some_iff.1 hs).1,
        ⟨hf.reading, hf.lease, hf.react, hf.balance, fun _ => .inl rfl⟩, fun hrun => ?_⟩
      refine ⟨(ha hrun).one, (ha hrun).spawned, fun hne n hn t ht => ?_, (ha hrun).queued⟩
      have ht' : (m.tasks.set w.task (.subscription { s with cancelled := true }))[t]? =
        some (Task.attempt w.id n) := ht
      rw [List.getElem?_set] at ht'
      split at ht'
      · split at ht' <;> simp at ht'
      · exact (ha hrun).behind hne n hn t ht'
    exact hwatch.wake
  · obtain ⟨m₁, hf, hq⟩ := unsubscribe_effect m u
    have := h.effect hf hu
    exact Watch.appended (by simpa using this) hq

theorem abort (h : Watch True w m) (u : TaskId) : Watch True w (m.abort u) := by
  by_cases hu : u = w.task
  · subst hu
    obtain ⟨e, s, unread, read, he, hs, hf, ha⟩ := h.state
    have hsame : m.abort w.task = m := by
      unfold QueryManager.abort
      rw [hs]
    rw [hsame]
    exact h
  · obtain ⟨m₁, hf, hq⟩ := abort_effect m u
    have := h.effect hf hu
    exact Watch.appended (by simpa using this) hq

/-- **A subscription stays watched, whatever happens,** if the order of the queue is kept. -/
theorem step (h : Watch True w m) {ev : ManagerEvent} (hev : ev.favours = false) : Watch True w (m.step ev) := by
  by_cases hout : ev.IsOutside
  · -- no particular task runs, so any but the subscription's will do
    obtain ⟨b, m₁, hf, hq, hwake⟩ := step_effect h.ok hout (w.task + 1)
    have hm₁ := h.effect hf (Nat.succ_ne_self _)
    cases b with
    | false => exact Watch.appended (by simpa using hm₁) hq
    | true =>
      rw [hwake rfl]
      exact hm₁.wake
  cases ev with
  | poll => exact h.poll
  | favour u => simp [ManagerEvent.favours] at hev
  | abort u => exact h.abort u
  | unsubscribe u => exact h.unsubscribe u
  | _ => exact absurd trivial hout

theorem run (h : Watch True w m) (es : List ManagerEvent) (hes : ∀ ev ∈ es, ev.favours = false) :
    Watch True w (m.run es) := by
  induction es generalizing m with
  | nil => exact h
  | cons ev es ih =>
    obtain ⟨hev, hes⟩ := List.forall_mem_cons.1 hes
    exact ih (h.step hev) hes

end Watch

end QueryClient
