import QueryClient.Proofs.Manager.Coherent

/-!
# What is done is made of acts

A task that runs has in its hands the lease that it holds, and has in its hands what it holds when it
is done. All that happens to a manager is a sequence of acts of one task, or of a user.

* `Works`: a task gets to a state by its acts.
* `Works.finishCaller`, …, `Works.deliver`: what the parts of a task's run do.
* `Works.runTask`: **a task runs by its acts.**
-/

namespace QueryClient

variable {m m' m₀ : QueryManager} {b b' : Bench} {t u : TaskId} {given : Input}
variable {id : InstanceId} {e e' : Executor} {a : Attempt} {c : Caller} {s s₀ : Subscription}
variable {spec : QuerySpec} {n : Int} {x : Option Lease} {o : NumberedOutcome}

/-- **The task gets to the state by its acts,** and has in its hands what it holds then. -/
def Works (t : TaskId) (given : Input) (b : Bench) (m : QueryManager) : Prop :=
  ∃ fault, Acts t given b ⟨m, m.leaseOf? t, fault⟩

namespace Works

theorem after (hacts : Acts t given b b') (h : Works t given b' m) : Works t given b m := by
  obtain ⟨fault, hrest⟩ := h
  exact ⟨fault, hacts.trans hrest⟩

theorem act (hact : Act t given b b') (h : Works t given b' m) : Works t given b m :=
  h.after (.single hact)

/-- Nothing is left to do. -/
theorem done {fault : Option String} (h : m.leaseOf? t = x) : Works t given ⟨m, x, fault⟩ m :=
  ⟨fault, by rw [h]⟩

end Works

theorem leaseOf?_of_task {y : Task} (h : m.tasks[t]? = some y) : m.leaseOf? t = y.lease? := by
  unfold QueryManager.leaseOf?
  rw [h]
  rfl

theorem leaseOf?_of_length (h : m.tasks.length ≤ t) : m.leaseOf? t = none := by
  unfold QueryManager.leaseOf?
  rw [List.getElem?_eq_none_iff.2 h]
  rfl

theorem leaseOf?_setTask {y : Task} (htask : m.tasks[t]? = some y) (z : Task) :
    (m.setTask t z).leaseOf? t = z.lease? :=
  leaseOf?_of_task ((getElem?_setTask htask z t).trans (if_pos rfl))

/-- What a caller that has not ended waits for. -/
def Caller.Expects (c : Caller) (id : InstanceId) (n : Int) : Prop :=
  ∀ i k y, c.stage = .waiting i k y → i = id ∧ k = n

namespace Works

/-! ## Callers -/

theorem endCaller {fault : Option String} {ending : Ending NumberedOutcome}
    (htask : m.tasks[t]? = some (.caller c)) (hc : c.Pending) (hend : m.Ends c given fault ending) :
    Works t given ⟨m, none, fault⟩ (m.endCaller t c ending) :=
  act (.finish htask hc hend) (done (leaseOf?_setTask htask _))

/-- A lease that may be none is given up. -/
theorem releaseLease? (h : Works t given ⟨(m.releaseLease? x).1, none, (m.releaseLease? x).2⟩ m') :
    Works t given ⟨m, x, none⟩ m' := by
  cases x with
  | none => exact h
  | some lease => exact act (.release lease) h

theorem finishCaller (htask : m.tasks[t]? = some (.caller c)) (hc : c.Pending)
    (hasks : m.Asks c id x) (he : m.executor? id = some e) (ho : o ∈ e.results)
    (hwait : c.Expects id o.number) : Works t given ⟨m, x, none⟩ (m.finishCaller t c x o) := by
  have hl := LeaseStep.releaseLease? m x
  have hx : Extends m (m.releaseLease? x).1 := .of_leaseStep hl
  have htask' : (m.releaseLease? x).1.tasks[t]? = some (.caller c) := by
    rw [hl.frame]
    exact htask
  obtain ⟨e', he', hext⟩ := hx id e he
  refine releaseLease? ?_
  unfold QueryManager.finishCaller
  generalize QueryManager.releaseLease? m x = r at hx htask' he' ⊢
  obtain ⟨m₁, fault⟩ := r
  refine endCaller htask' hc ?_
  cases fault with
  | none =>
    refine .returned (hasks.mono hx rfl) he' (hext.results.mem ho) fun i n y hst => ?_
    obtain ⟨hi, hn⟩ := hwait i n y hst
    exact ⟨hi, hn.symm⟩
  | some text => exact .fault text

/-- One who waits for an attempt goes on waiting, or has its result. -/
theorem awaitAttempt (hok : ManagerOK m) (htask : m.tasks[t]? = some (.caller c)) (hc : c.Pending)
    (hasks : m.Asks c id x) (he : m.executor? id = some e) (ha : ∃ a ∈ e.attempts, a.number = n)
    (hwait : c.Expects id n) : Works t given ⟨m, x, none⟩ (m.awaitAttempt t c id n x) := by
  have hex := hok.executor he
  obtain ⟨b, hb, rfl⟩ := ha
  unfold QueryManager.awaitAttempt
  rw [he]
  simp only
  cases hw : e.await? b.number with
  | none => exact act (.wait htask hc hasks he hb hwait) (done (leaseOf?_setTask htask _))
  | some w =>
    obtain ⟨e', o, madeUp⟩ := w
    simp only
    -- the result was there, or is made up now
    have hset : Acts t given ⟨m, x, none⟩ ⟨m.setExecutor id e', x, none⟩ ∧ ExecutorExt e e' ∧
        o ∈ e'.results ∧ o.number = b.number := by
      rcases hex.await?_cases hw with ⟨rfl, a, ha, hn, hst⟩ | ⟨a, rest, hl, hn, hst, rfl, rfl⟩
      · rw [QueryManager.setExecutor_self he]
        exact ⟨.refl, .refl _, ExecutorOK.mem_results.2 ⟨a, ha, hst⟩, (hex.outcome a ha o hst).1.trans hn⟩
      · have hu := Attempt.unsettled_of_stage hst rfl
        refine ⟨.single (.settle he hl (.dropped hst) (.inl (by simp [hst]))),
          .step (.store _ hl hu), ?_, hn⟩
        rw [ExecutorOK.results_store hl hu]
        exact List.mem_cons_self
    obtain ⟨hset, hext, ho, hn⟩ := hset
    have hx := Extends.setExecutor he hext
    have he' := QueryManager.executor?_setExecutor_self he e'
    rw [← hn] at hwait
    refine after hset ?_
    cases madeUp with
    | false => exact finishCaller htask hc (hasks.mono hx rfl) he' ho hwait
    | true =>
      refine act (.remark (.warned e'.droppedText) trivial) ?_
      exact finishCaller (m := (m.setExecutor id e').note _) htask hc (hasks.mono hx rfl) he' ho hwait

/-- A caller that starts an attempt waits for it. -/
theorem startAttempt (hok : ManagerOK m) (htask : m.tasks[t]? = some (.caller c)) (hc : c.Pending)
    (hasks : m.Asks c id x) (he : m.executor? id = some e) (hslot : e.slot = none) {r : RequestId}
    {s : Supply} (hn : m.supply.number < n) (hr : m.supply.request < r.index) (hn' : n ≤ s.number)
    (hr' : r.index ≤ s.request) (hwait : c.Expects id n) : Works t given ⟨m, x, none⟩
      ((({ m with supply := s }.setExecutor id (e.start n r)).spawn (.attempt id n)).1.awaitAttempt
        t c id n x) := by
  have ht := Nat.ne_of_lt (lt_of_task htask)
  have hstart : Act t given ⟨m, x, none⟩
      ⟨(({ m with supply := s }.setExecutor id (e.start n r)).spawn (.attempt id n)).1, x, none⟩ :=
    .start he hslot hn hr hn' hr' ht
  refine act hstart (awaitAttempt (e := e.start n r) (hstart.ok hok) ?_ hc
    (hasks.mono hstart.extends rfl) ?_ ⟨⟨n, r, .spawned⟩, List.mem_cons_self, rfl⟩ hwait)
  · exact (getElem?_spawn _ _ _).trans ((if_neg ht).trans htask)
  · exact QueryManager.executor?_setExecutor_self (m := { m with supply := s }) he _

theorem callInstance (hok : ManagerOK m) (htask : m.tasks[t]? = some (.caller c)) (hc : c.Pending)
    (hst : c.stage = .arriving) (hasks : m.Asks c id x) (he : m.executor? id = some e) :
    Works t given ⟨m, x, none⟩ (m.callInstance t c id x) := by
  have hnot : ∀ i k, c.Expects i k := by
    intro i k j l y hw
    rw [hst] at hw
    simp at hw
  have hex := hok.executor he
  -- a number is drawn first
  have hdraw : Act t given ⟨m, x, none⟩ ⟨{ m with supply := m.supply.drawNumber.2 }, x, none⟩ :=
    .draw _ (Int.le_of_lt (Int.lt_succ _)) (Nat.le_refl _)
  have hself : ({ m with supply := m.supply.drawNumber.2 } : QueryManager).setExecutor id e =
      { m with supply := m.supply.drawNumber.2 } :=
    QueryManager.setExecutor_self (m := { m with supply := m.supply.drawNumber.2 }) he
  have hok' := hdraw.ok hok
  have hasks' := hasks.mono hdraw.extends rfl
  refine act hdraw ?_
  unfold QueryManager.callInstance
  rw [he]
  simp only [QueryManager.enter, Executor.enter]
  rcases e.join_cases m.supply.drawNumber.1 m.supply.drawNumber.2 with
    ⟨o, hj, hlast, -⟩ | ⟨n, hj, hslot, -⟩ | ⟨hj, hslot, -⟩ <;> rw [hj] <;> simp only
  · rw [hself]
    rw [hex.last] at hlast
    exact finishCaller htask hc hasks' he (List.mem_of_mem_head? hlast) (hnot _ _)
  · rw [hself]
    obtain ⟨a, rest, hl, -, hn⟩ := hex.attempt_of_slot hslot
    exact awaitAttempt hok' htask hc hasks' he ⟨a, by rw [hl]; exact List.mem_cons_self, hn⟩ (hnot _ _)
  · exact startAttempt hok' htask hc hasks' he hslot (Int.lt_succ _) (Nat.lt_succ_self _)
      (Int.le_refl _) (Nat.le_refl _) (hnot _ _)

theorem arrive (hok : ManagerOK m) (hr : Registered m) (htask : m.tasks[t]? = some (.caller c))
    (hst : c.stage = .arriving) : Works t given ⟨m, none, none⟩ (m.arrive t c) := by
  have hc : c.Pending := fun ending hend => by rw [hst] at hend; simp at hend
  unfold QueryManager.arrive
  cases haddr : c.addressee with
  | direct id =>
    simp only
    cases he : m.executor? id with
    | none =>
      unfold QueryManager.callInstance
      rw [he]
      refine done ((leaseOf?_of_task htask).trans ?_)
      unfold Task.lease? Caller.lease?
      simp only [hst]
    | some e => exact callInstance hok htask hc hst (.direct haddr) he
  | leased spec =>
    simp only
    have hacq : Act t given ⟨m, none, none⟩ ⟨(m.acquire spec).1, some (m.acquire spec).2, none⟩ :=
      .acquire spec (.inr ⟨c, htask, haddr⟩)
    obtain ⟨hr₁, e, he, hk⟩ := hr.acquire spec
    have hasks : (m.acquire spec).1.Asks c (m.acquire spec).2.id (some (m.acquire spec).2) :=
      .leased haddr rfl he hk
    have hok₁ := hacq.ok hok
    have htask₁ : (m.acquire spec).1.tasks[t]? = some (.caller c) := by
      rw [tasks_acquire]
      exact htask
    refine act hacq ?_
    revert htask₁ hok₁ hasks he
    generalize (m.acquire spec).2 = lease
    generalize (m.acquire spec).1 = m₁
    intro he hasks hok₁ htask₁
    -- the block may close the live query under the caller
    have hclose : ∃ m₂, (if c.block.closes then (m₁.closeInstance lease.id).1 else m₁) = m₂ ∧
        Acts t given ⟨m₁, some lease, none⟩ ⟨m₂, some lease, none⟩ ∧ m₂.tasks = m₁.tasks := by
      refine ⟨_, rfl, ?_⟩
      split
      · rename_i hcloses
        exact ⟨.single (.close _ (.inr ⟨c, htask₁, hcloses⟩)), tasks_closeInstance _ _⟩
      · exact ⟨.refl, rfl⟩
    obtain ⟨m₂, heq, hclose, htasks⟩ := hclose
    rw [heq]
    rw [← htasks] at htask₁
    refine after hclose ?_
    split
    · -- a lease that cannot be given up is reported
      refine act (.release lease) ?_
      have htask₂ : (m₂.releaseLease lease).1.tasks[t]? = some (.caller c) := by
        rw [tasks_releaseLease]
        exact htask₁
      generalize m₂.releaseLease lease = r at htask₂ ⊢
      obtain ⟨m₃, fault⟩ := r
      cases fault with
      | none => exact endCaller htask₂ hc (.block hst _)
      | some text => exact act (.remark (.failed text) trivial) (endCaller (m := m₃.note _) htask₂ hc (.block hst _))
    · have hx := Acts.extends hclose
      obtain ⟨e₂, he₂, -⟩ := hx _ e he
      exact callInstance (Acts.ok hclose hok₁) htask₁ hc hst (hasks.mono hx rfl) he₂

/-! ## Subscriptions -/

/-- A subscription gives up its lease, and ends. -/
theorem endSubscription (htask : m.tasks[t]? = some (.subscription s₀)) (hrun : s₀.stage = .running)
    (hok : SubscriptionOK m s) (hlease : s.lease = s₀.lease) (hreact : s.react = s₀.react) :
    Works t given ⟨m, some s₀.lease, none⟩ (m.endSubscription t s) := by
  obtain ⟨e, he, -, hu⟩ := hok
  obtain ⟨e', he', hext⟩ := Extends.of_leaseStep (.releaseLease m s.lease) _ e he
  have htask' : (m.releaseLease s.lease).1.tasks[t]? = some (.subscription s₀) := by
    rw [tasks_releaseLease]
    exact htask
  have hu' : ∀ o ∈ s.updates.pending, o ∈ e'.results := fun o ho => hext.results.mem (hu o ho)
  rw [← hlease]
  refine act (.release s.lease) ?_
  unfold QueryManager.endSubscription
  generalize m.releaseLease s.lease = r at he' htask' ⊢
  obtain ⟨m₁, fault⟩ := r
  rw [hlease] at he'
  cases fault with
  | none =>
    exact act (.complete htask' hrun hlease hreact he' hu') (done (leaseOf?_setTask htask' _))
  | some text =>
    exact act (.fail htask' hrun hlease hreact he' hu') (done (leaseOf?_setTask htask' _))

end Works

/-- A reader gets what is stored. -/
theorem mem_results_of_next (hok : ExecutorOK m.supply e) {updates updates' : Updates}
    (hu : ∀ o ∈ updates.pending, o ∈ e.results) {o? : Option NumberedOutcome}
    (h : updates.next e = (updates', o?)) :
    (∀ o ∈ updates'.pending, o ∈ e.results) ∧ ∀ o, o? = some o → o ∈ e.results := by
  have hlast : ∀ o, updates.fresh? e = some o → o ∈ e.results := by
    intro o ho
    obtain ⟨ho, -⟩ := Option.filter_eq_some_iff.1 ho
    rw [hok.last] at ho
    exact List.mem_of_mem_head? ho
  unfold Updates.next at h
  split at h
  · rename_i o rest hp
    obtain ⟨rfl, rfl⟩ := Prod.mk.inj h
    rw [hp] at hu
    refine ⟨fun r hr => hu r (List.mem_cons_of_mem _ hr), fun r hr => ?_⟩
    rw [← Option.some.inj hr]
    exact hu o List.mem_cons_self
  · split at h
    · obtain ⟨rfl, rfl⟩ := Prod.mk.inj h
      exact ⟨hu, by simp⟩
    · split at h
      · rename_i o ho
        obtain ⟨rfl, rfl⟩ := Prod.mk.inj h
        refine ⟨hu, fun r hr => ?_⟩
        rw [← Option.some.inj hr]
        exact hlast o ho
      · obtain ⟨rfl, rfl⟩ := Prod.mk.inj h
        exact ⟨hu, by simp⟩

namespace Works

/-- A subscription has looked, and goes on. -/
theorem look (htask : m.tasks[t]? = some (.subscription s₀)) (hrun : s₀.stage = .running)
    (hok : SubscriptionOK m s) (hlease : s.lease = s₀.lease) (hstage : s.stage = s₀.stage)
    (hreact : s.react = s₀.react) :
    Works t given ⟨m, some s₀.lease, none⟩ (m.setTask t (.subscription s)) := by
  obtain ⟨e, he, -, hu⟩ := hok
  have hhand : s₀.lease? = some s₀.lease := by
    unfold Subscription.lease?
    rw [hrun]
  have hlook : Act t given ⟨m, s₀.lease?, none⟩ ⟨m.setTask t (.subscription s), s₀.lease?, none⟩ :=
    .look htask hlease hstage hreact (by rw [← hlease]; exact he) hu
  rw [hhand] at hlook
  refine act hlook (done ((leaseOf?_setTask htask _).trans ?_))
  show s.lease? = _
  unfold Subscription.lease?
  rw [hstage, hrun, hlease]

/-- A subscription hands over what there is, or ends. -/
theorem deliver (fuel : ℕ) : ∀ {m : QueryManager} {s : Subscription}, ManagerOK m →
    m.tasks[t]? = some (.subscription s₀) → s₀.stage = .running → SubscriptionOK m s →
    s.lease = s₀.lease → s.stage = s₀.stage → s.react = s₀.react →
    Works t given ⟨m, some s₀.lease, none⟩ (QueryManager.deliver fuel m t s) := by
  induction fuel with
  | zero =>
    intro m s _ htask hrun hs hlease hstage hreact
    exact look htask hrun hs hlease hstage hreact
  | succ fuel ih =>
    intro m s hok htask hrun hs hlease hstage hreact
    unfold QueryManager.deliver
    split
    · exact endSubscription htask hrun hs hlease hreact
    obtain ⟨e, he, hk, hu⟩ := hs
    rw [he]
    simp only
    cases hn : s.updates.next e with
    | mk updates o? =>
      obtain ⟨hu', ho⟩ := mem_results_of_next (hok.executor he) hu hn
      have hs' : SubscriptionOK m { s with updates } := ⟨e, he, hk, hu'⟩
      cases o? with
      | none => exact look htask hrun hs' hlease hstage hreact
      | some o =>
        have hhand : Act t given ⟨m, some s₀.lease, none⟩
            ⟨m.note (.handed t ⟨o, updates.source o⟩), some s₀.lease, none⟩ :=
          .hand htask hrun (by rw [← hlease]; exact he) (ho o rfl)
        refine act hhand ?_
        have hok₁ := hhand.ok hok
        simp only
        split
        · refine act (.remark (.failed (QueryManager.handlerPanicked s.lease.key)) trivial) ?_
          exact endSubscription (m := (m.note _).note _) htask hrun hs' hlease hreact
        · exact ih (m := m.note _) hok₁ htask hrun hs' hlease hstage hreact

/-! ## Attempts -/

/-- The task of an attempt calls the backend, or gives up. -/
theorem beginAttempt (hok : ManagerOK m) (htask : m.tasks[t]? = some (.attempt id n))
    (hq : t ∉ m.queue) (he : m.executor? id = some e) (hst : e.stage? n = some .spawned) :
    Works t given ⟨m, none, none⟩
      (match (e.begin n).attempt? n with
        | some ⟨_, request, .calling⟩ =>
          (m.setExecutor id (e.begin n)).note (.called t (e.begin n).spec request)
        | _ => m.setExecutor id (e.begin n)) := by
  have hex := hok.executor he
  have hlease : m.leaseOf? t = none := leaseOf?_of_task htask
  rcases hex.begin_cases n with ⟨hno, -⟩ | ⟨a, rest, hl, rfl, hsp, ⟨hc, hb⟩ | ⟨hc, hb⟩⟩
  · exact absurd hst hno
  · have hfind : (e.advance a rest .calling).attempt? a.number =
        some { a with stage := .calling } := by
      simp [Executor.advance, Executor.attempt?]
    rw [hb, hfind]
    exact act (.call he hl hsp hc htask hq) (done hlease)
  · have hfind : (e.store a rest (e.outcomeOf a (.error .executorClosed))).attempt? a.number =
        some { a with stage := .settled (e.outcomeOf a (.error .executorClosed)) } := by
      simp [Executor.store, Executor.attempt?]
    rw [hb, hfind]
    exact act (.settle he hl (.refused hsp hc) (.inr ⟨htask, hq⟩)) (done hlease)

/-- The backend's answer is taken, or the attempt is cancelled. -/
theorem resume (hok : ManagerOK m) (htask : m.tasks[t]? = some (.attempt id n))
    (he : m.executor? id = some e) : Works t given ⟨m, none, none⟩ (m.setExecutor id (e.resume n)) := by
  have hlease : m.leaseOf? t = none := leaseOf?_of_task htask
  rcases (hok.executor he).resume_cases n with
    hb | ⟨a, rest, hl, rfl, hcall, ⟨hc, hb⟩ | ⟨hc, ⟨r, hst, hb⟩ | ⟨⟨text, hst⟩, hb⟩⟩⟩ <;> rw [hb]
  · rw [QueryManager.setExecutor_self he]
    exact done hlease
  · exact act (.settle he hl (.cancelled hcall hc) (.of_isCalling hcall)) (done hlease)
  · exact act (.settle he hl (.answered hst hc) (.of_isCalling hcall)) (done hlease)
  · exact act (.die he hl hst hc) (done hlease)

/-- The backend answers, if the task waits for it. -/
theorem answer (hok : ManagerOK m) (htask : m.tasks[t]? = some (.attempt id n))
    (he : m.executor? id = some e) (reply : Reply) : ∃ given,
      Acts t given ⟨m, none, none⟩ ⟨m.setExecutor id (e.answer n reply), none, none⟩ ∧
        (given = {} ∨ given = { reply := some reply } ∧ m.isCalling t) := by
  have hex := hok.executor he
  rcases hex.answer_cases n reply with hb | ⟨a, rest, hl, rfl, hst, hb⟩ <;> rw [hb]
  · rw [QueryManager.setExecutor_self he]
    exact ⟨{}, .refl, .inl rfl⟩
  · refine ⟨{ reply := some reply }, .single (.reply he hl hst htask rfl), .inr ⟨rfl, ?_⟩⟩
    have hstage : e.stage? a.number = some .calling :=
      hex.stage?_eq_some.2 ⟨a, by rw [hl]; exact List.mem_cons_self, rfl, hst⟩
    unfold QueryManager.isCalling
    simp [htask, he, hstage]

/-! ## A run of a task -/

/-- **A task runs by its acts.** -/
theorem runTask (hok : ManagerOK m) (hc : Coherent m) (ht : t ∉ m.queue) :
    Works t given ⟨m, m.leaseOf? t, none⟩ (m.runTask t) := by
  unfold QueryManager.runTask
  cases htask : m.tasks[t]? with
  | none => exact done rfl
  | some y =>
    rw [leaseOf?_of_task htask]
    cases y with
    | attempt id n =>
      simp only
      cases he : m.executor? id with
      | none => exact done (leaseOf?_of_task htask)
      | some e =>
        simp only
        split
        · exact beginAttempt hok htask ht he ‹_›
        · exact resume hok htask he
    | caller c =>
      have hcaller := hc.caller htask
      simp only [Task.lease?, Caller.lease?]
      cases hst : c.stage with
      | arriving => exact arrive hok hc.registered htask hst
      | waiting id n lease =>
        obtain ⟨hasks, e, he, ha⟩ := hcaller.waiting id n lease hst
        refine awaitAttempt hok htask (fun ending hend => ?_) hasks he ha fun i k y hw => ?_
        · rw [hst] at hend
          simp at hend
        · rw [hst] at hw
          obtain ⟨rfl, rfl, -⟩ := CallerStage.waiting.inj hw
          exact ⟨rfl, rfl⟩
      | ended ending =>
        refine done ((leaseOf?_of_task htask).trans ?_)
        simp only [Task.lease?, Caller.lease?, hst]
    | subscription s =>
      simp only [Task.lease?, Subscription.lease?]
      have hdone : s.stage ≠ .running → Works t given ⟨m, none, none⟩ m := by
        intro hst
        refine done ((leaseOf?_of_task htask).trans ?_)
        simp only [Task.lease?, Subscription.lease?]
      cases hst : s.stage with
      | running => exact deliver _ hok htask hst (hc.subscription htask) rfl rfl rfl
      | completed => exact hdone (by simp [hst])
      | panicked text => exact hdone (by simp [hst])

end Works

end QueryClient
