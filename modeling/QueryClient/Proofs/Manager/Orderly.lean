import QueryClient.Proofs.Manager.Ledger

/-!
# Live queries that nobody closes

As long as users close no live query, each is closed by its last lease or with its manager, and
nothing is ever wrong with a lease that is given up. In every state the tasks that can go on are
queued.

* `Orderly`: a manager whose live queries users leave open; `Act.orderly`, `Lending.orderly_next`.
* `Awake`: **tasks that can go on are queued;** `Awake.step`.
* `Lending.Proper`: both, of a manager and the leases that users hold; `Lending.Proper.next`.
-/

namespace QueryClient

variable {m m' : QueryManager} {b b' : Bench} {t u : TaskId} {given : Input} {held : List Lease}
variable {id : InstanceId} {e e' : Executor} {x : Task} {l : Lending}

/-! ## Leases and the small changes -/

namespace LeasesOK

/-- Only the registry, the live queries and the cancellation count. -/
theorem congr (h : LeasesOK m held) (hreg : m'.registry = m.registry) (hlives : m'.lives = m.lives)
    (hcancel : m'.cancelled = m.cancelled) : LeasesOK m' held := by
  refine ⟨by rw [hreg]; exact h.books, by rw [hlives]; exact h.lives, by rw [hlives]; exact h.marked, ?_⟩
  rw [hlives, hcancel]
  exact h.closed

/-- The executor of a live query goes on. -/
theorem setExecutor (h : LeasesOK m held) (he : m.executor? id = some e) (hk : e'.key = e.key)
    (hc : e'.closed = e.closed) : LeasesOK (m.setExecutor id e') held := by
  obtain ⟨p, hp, rfl⟩ := QueryManager.executor?_eq_some.1 he
  have hget : ∀ (i : InstanceId) (q' : LiveQuery), (m.setExecutor id e').lives[i]? = some q' →
      ∃ q, m.lives[i]? = some q ∧ q'.closed = q.closed ∧ q'.executor.closed = q.executor.closed := by
    intro i q' hq'
    unfold QueryManager.setExecutor at hq'
    rw [List.getElem?_modify] at hq'
    obtain ⟨q, hq, hqq⟩ := Option.map_eq_some_iff.1 hq'
    split at hqq
    · rename_i hi
      rw [← hi, hp] at hq
      obtain rfl := Option.some.inj hq
      exact ⟨p, by rw [← hi]; exact hp, by rw [← hqq], by rw [← hqq]; exact hc⟩
    · exact ⟨q, hq, by rw [← hqq], by rw [← hqq]⟩
  refine ⟨h.books, fun x hx => ?_, fun i q' hq' => ?_, fun i q' hq' => ?_⟩
  · obtain ⟨q, hq, hqk⟩ := h.lives x hx
    unfold QueryManager.setExecutor
    rw [List.getElem?_modify, hq]
    by_cases hi : id = x.id
    · rw [hi, hq] at hp
      obtain rfl := Option.some.inj hp
      exact ⟨{ q with executor := e' }, by simp [hi], hk.trans hqk⟩
    · exact ⟨q, by simp [hi], hqk⟩
  · obtain ⟨q, hq, hqc, -⟩ := hget i q' hq'
    rw [hqc]
    exact h.marked i q hq
  · obtain ⟨q, hq, hqc, hec⟩ := hget i q' hq'
    rw [hqc, hec]
    exact h.closed i q hq

theorem closeAll (h : LeasesOK m held) : LeasesOK { m with
    cancelled := true
    lives := m.lives.map fun q => { q with executor := q.executor.close } } held := by
  have hframe := (queued_cancel m).frame
  exact h.cancel.congr (by rw [hframe]) (by rw [hframe]) (by rw [hframe])

/-- Once the manager has been cancelled, its executors are closed. -/
theorem shut (h : LeasesOK m held) (hc : m.cancelled) (he : m.executor? id = some e) :
    e.closed = true := by
  obtain ⟨q, hq, rfl⟩ := QueryManager.executor?_eq_some.1 he
  rw [h.closed id q hq, hc, Bool.or_true]

end LeasesOK

/-! ## Nobody closes live queries -/

/-- A caller leaves its live query open, and a subscription has not failed. -/
def Task.Mild : Task → Prop
  | .attempt .. => True
  | .caller c => c.block.closes = false
  | .subscription s => ∀ text, s.stage ≠ .panicked text

/-- **The manager is in keeping with the leases, and its tasks leave live queries open.** -/
structure Orderly (m : QueryManager) (held : List Lease) : Prop where
  leases : LeasesOK m held
  mild : ∀ (u : TaskId) (x : Task), m.tasks[u]? = some x → x.Mild

/-- Nothing was wrong with the lease that was given up. -/
structure Bench.Orderly (b : Bench) (t : TaskId) (held : List Lease) : Prop where
  orderly : QueryClient.Orderly b.manager (b.hand.toList ++ (b.manager.othersLeases t ++ held))
  fault : b.fault = none

theorem othersLeases_congr (h : m'.tasks = m.tasks) : m'.othersLeases t = m.othersLeases t := by
  unfold QueryManager.othersLeases
  rw [h]

namespace Orderly

theorem congr (h : Orderly m held) (heq : m' = { m with queue := m'.queue }) : Orderly m' held := by
  refine ⟨h.leases.congr (by rw [heq]) (by rw [heq]) (by rw [heq]), ?_⟩
  rw [heq]
  exact h.mild

theorem perm (h : Orderly m held) {held' : List Lease} (hp : held.Perm held') : Orderly m held' :=
  ⟨h.leases.perm hp, h.mild⟩

theorem setTask {y : Task} (h : Orderly m held) (htask : m.tasks[t]? = some x) (hy : y.Mild) :
    Orderly (m.setTask t y) held := by
  refine ⟨h.leases.congr rfl rfl rfl, fun u z hz => ?_⟩
  rw [getElem?_setTask htask] at hz
  split at hz
  · rw [← Option.some.inj hz]
    exact hy
  · exact h.mild u z hz

theorem spawn {y : Task} (h : Orderly m held) (hy : y.Mild) : Orderly (m.spawn y).1 held := by
  refine ⟨h.leases.congr rfl rfl rfl, fun u z hz => ?_⟩
  rw [getElem?_spawn] at hz
  split at hz
  · rw [← Option.some.inj hz]
    exact hy
  · exact h.mild u z hz

theorem setExecutor (h : Orderly m held) (he : m.executor? id = some e) (hk : e'.key = e.key)
    (hc : e'.closed = e.closed) : Orderly (m.setExecutor id e') held :=
  ⟨h.leases.setExecutor he hk hc, h.mild⟩

end Orderly

/-- **Every act keeps the manager in order,** unless it is that a user closes a live query. -/
theorem Act.orderly (h : Act t given b b') (hg : given.closes = false) (hb : b.Orderly t held) :
    b'.Orderly t held := by
  obtain ⟨ho, hf⟩ := hb
  have hopen : ∀ {m : QueryManager}, (∀ (u : TaskId) (x : Task), m.tasks[u]? = some x → x.Mild) →
      ¬ m.Closes t given := by
    rintro m hmild (hc | ⟨c, hc, hcloses⟩)
    · rw [hg] at hc
      simp at hc
    · have hno : c.block.closes = false := hmild t _ hc
      rw [hno] at hcloses
      simp at hcloses
  cases h with
  | @acquire m f spec hspec =>
    refine ⟨⟨?_, ?_⟩, hf⟩
    · simp only [othersLeases_congr (tasks_acquire m spec)]
      exact ho.leases.acquire spec
    · rw [tasks_acquire]
      exact ho.mild
  | @release m x =>
    obtain ⟨hfault, hl⟩ := ho.leases.releaseLease
    refine ⟨⟨?_, ?_⟩, hfault⟩
    · simp only [othersLeases_congr (tasks_releaseLease m x)]
      exact hl
    · rw [tasks_releaseLease]
      exact ho.mild
  | close id hclose => exact absurd hclose (hopen ho.mild)
  | closeExecutor id hclose =>
    rw [hg] at hclose
    simp at hclose
  | cancel => exact ⟨⟨ho.leases.closeAll, ho.mild⟩, hf⟩
  | draw s hn hr => exact ⟨⟨ho.leases.congr rfl rfl rfl, ho.mild⟩, hf⟩
  | remark n hn => exact ⟨⟨ho.leases.congr rfl rfl rfl, ho.mild⟩, hf⟩
  | hand => exact ⟨⟨ho.leases.congr rfl rfl rfl, ho.mild⟩, hf⟩
  | @start m x f id e n r s he hs hn hr hn' hr' ht =>
    have hset : Orderly ({ m with supply := s }.setExecutor id (e.start n r)) _ :=
      Orderly.setExecutor (m := { m with supply := s }) ⟨ho.leases.congr rfl rfl rfl, ho.mild⟩ he rfl rfl
    refine ⟨?_, hf⟩
    rw [othersLeases_spawn _ (.inr rfl)]
    exact hset.spawn trivial
  | @call m x f id e a rest he hl hst hc htask hq =>
    have hset : Orderly (m.setExecutor id (e.advance a rest .calling)) _ := ho.setExecutor he rfl rfl
    exact ⟨⟨hset.leases.congr rfl rfl rfl, hset.mild⟩, hf⟩
  | reply he hl hst htask hgiven => exact ⟨ho.setExecutor he rfl rfl, hf⟩
  | die he hl hst hc => exact ⟨ho.setExecutor he rfl rfl, hf⟩
  | settle he hl hcause ht => exact ⟨ho.setExecutor he rfl rfl, hf⟩
  | ask addressee block ht hspec hblock =>
    refine ⟨?_, hf⟩
    unfold QueryManager.ask
    rw [othersLeases_spawn _ (.inr rfl)]
    refine ho.spawn ?_
    -- the block may close only what users may close
    cases hc : block.closes with
    | false => exact hc
    | true =>
      rw [hg] at hblock
      exact absurd (hblock hc) (by simp)
  | subscribe he hk react ht =>
    refine ⟨?_, hf⟩
    rw [othersLeases_spawn _ (.inl ht)]
    exact ho.spawn fun text hst => by simp at hst
  | @wait m x f id e a c htask hc hasks he ha hwait =>
    refine ⟨?_, hf⟩
    rw [othersLeases_setTask]
    have hmild : c.block.closes = false := ho.mild t _ htask
    exact ho.setTask htask hmild
  | @finish m f c ending htask hc hend =>
    have hmild : c.block.closes = false := ho.mild t _ htask
    have hset : Orderly (m.setTask t (.caller { c with stage := .ended ending })) _ :=
      ho.setTask htask hmild
    refine ⟨⟨?_, hset.mild⟩, hf⟩
    rw [show (m.endCaller t c ending).othersLeases t = m.othersLeases t from othersLeases_setTask m t _]
    exact hset.leases.congr rfl rfl rfl
  | @look m f s s' e htask hlease hstage hreact he hu =>
    refine ⟨?_, hf⟩
    rw [othersLeases_setTask]
    refine ho.setTask htask fun text hst => ?_
    exact ho.mild t _ htask text (hstage.symm.trans hst)
  | @complete m s s' e htask hs hlease hreact he hu =>
    have hset : Orderly (m.setTask t (.subscription { s' with stage := .completed })) _ :=
      ho.setTask htask fun text hst => by simp at hst
    refine ⟨⟨?_, hset.mild⟩, hf⟩
    rw [show ((m.setTask t (.subscription { s' with stage := .completed })).note (.completed t)).othersLeases t =
      m.othersLeases t from othersLeases_setTask m t _]
    exact hset.leases.congr rfl rfl rfl
  | fail => simp at hf

theorem Acts.orderly (h : Acts t given b b') (hg : given.closes = false) (hb : b.Orderly t held) :
    b'.Orderly t held := by
  induction h with
  | refl => exact hb
  | tail _ hact ih => exact hact.orderly hg ih

/-- What closes no live query brings nobody who does. -/
theorem ManagerEvent.Gives.closes_eq_false {ev : ManagerEvent} (h : ev.Gives m t given)
    (hev : ev.closes = false) : given.closes = false := by
  cases hclose : given.closes with
  | false => rfl
  | true =>
    have hcloses := h.closes hclose
    rw [hev] at hcloses
    simp at hcloses

/-- **The manager stays in order,** whatever users do but close live queries. -/
theorem Lending.orderly_next (hok : ManagerOK l.manager) (hc : Coherent l.manager) {ev : ManagerEvent}
    (hev : ev.closes = false) (h : Orderly l.manager (l.manager.taskLeases ++ l.held)) :
    Orderly (l.next ev).manager ((l.next ev).manager.taskLeases ++ (l.next ev).held) := by
  refine carry hok hc (fun hp ho => ho.perm hp) (fun heq ho => ho.congr heq)
    (fun hgives _ _ hacts ho => ?_) h
  exact (Acts.orderly hacts (hgives.closes_eq_false hev) ⟨ho, rfl⟩).orderly

/-! ## Tasks that can go on are queued -/

/-- **Tasks that can go on are queued.** -/
def Awake (m : QueryManager) : Prop :=
  ∀ (u : TaskId) (x : Task), m.tasks[u]? = some x → m.isReady x → u ∈ m.queue

/-- Whether a task can go on depends on the executors that it refers to. -/
theorem isReady_congr (h : TaskOK m x) (hcancel : m'.cancelled = m.cancelled)
    (hex : ∀ id e, m.executor? id = some e → m'.executor? id = some e) :
    m'.isReady x = m.isReady x := by
  cases x with
  | attempt id n =>
    obtain ⟨e, he, -⟩ := h
    simp only [QueryManager.isReady, he, hex id e he]
  | caller c =>
    cases hst : c.stage with
    | waiting id n lease =>
      obtain ⟨-, e, he, -⟩ := h.waiting id n lease hst
      simp only [QueryManager.isReady, hst, he, hex id e he]
    | _ => simp only [QueryManager.isReady, hst]
  | subscription s =>
    obtain ⟨e, he, -⟩ := h
    simp only [QueryManager.isReady, he, hex _ e he, hcancel]

namespace Awake

theorem init (s : Supply) : Awake { supply := s } := fun u x hx => by simp at hx

/-- All tasks that can go on are queued once they have been woken. -/
theorem of_foldl {us : List TaskId} (hus : ∀ u < m.tasks.length, u ∈ us) :
    Awake (us.foldl QueryManager.wakeTask m) := by
  have hq := Queued.foldl_wakeTask us m
  intro u x hx hr
  rw [hq.isReady] at hr
  rw [hq.frame] at hx
  exact mem_queue_foldl_wakeTask us (hus u (lt_of_task hx)) (by rw [show m.tasks[u]? = some x from hx]; exact hr)

theorem wake (m : QueryManager) : Awake m.wake := by
  refine of_foldl fun u hu => ?_
  have hrank : ∀ r, QueryManager.rank (m.tasks.get ⟨u, hu⟩) = r → u ∈ m.ofRank r := by
    intro r hr
    refine List.mem_filter.2 ⟨List.mem_range.2 hu, ?_⟩
    rw [List.getElem?_eq_getElem hu]
    simpa using hr
  simp only [List.mem_append]
  cases hx : m.tasks.get ⟨u, hu⟩ with
  | subscription s => exact .inl (.inl (hrank 0 (by rw [hx]; rfl)))
  | attempt id n => exact .inl (.inr (hrank 1 (by rw [hx]; rfl)))
  | caller c => exact .inr (hrank 2 (by rw [hx]; rfl))

theorem favour (h : Awake m) (t : TaskId) : Awake (m.favour t) := by
  intro u x hx hr
  rw [favour_frame] at hx hr
  exact (Queued.favour m t).queue (h u x hx hr)

theorem spawn (h : Awake m) (y : Task) : Awake (m.spawn y).1 := by
  intro u x hx hr
  rw [getElem?_spawn] at hx
  split at hx
  · rename_i hu
    exact List.mem_append_right _ (List.mem_singleton.2 hu)
  · exact List.mem_append_left _ (h u x hx hr)

theorem acquire (h : Awake m) (hc : Coherent m) (spec : QuerySpec) : Awake (m.acquire spec).1 := by
  have hframe := (LeaseStep.acquire m spec).frame
  have hkeep : ∀ id e, m.executor? id = some e → (m.acquire spec).1.executor? id = some e := by
    intro id e he
    rcases acquire_cases hc.registered spec with ⟨cnt, f, -, -, -, hacq⟩ | ⟨-, hacq⟩ <;> rw [hacq]
    · exact he
    · obtain ⟨q, hq, -⟩ := QueryManager.executor?_eq_some.1 he
      have hne := Nat.ne_of_lt (List.getElem?_eq_some_iff.1 hq).1
      exact (executor?_openInstance _ spec id).trans ((if_neg hne).trans he)
  intro u x hx hr
  rw [tasks_acquire] at hx
  rw [isReady_congr (hc.tasks u x hx) (by rw [hframe]) hkeep] at hr
  rw [hframe]
  exact h u x hx hr

/-- A caller that has ended cannot go on. -/
theorem endCaller (h : Awake m) {c : Caller} (htask : m.tasks[t]? = some (.caller c))
    (ending : Ending NumberedOutcome) : Awake (m.endCaller t c ending) := by
  intro u x hx hr
  have hx' : (m.setTask t (.caller { c with stage := .ended ending })).tasks[u]? = some x := hx
  rw [getElem?_setTask htask] at hx'
  split at hx'
  · rw [← Option.some.inj hx'] at hr
    simp [QueryManager.isReady] at hr
  · exact h u x hx' hr

theorem abort (h : Awake m) (u : TaskId) : Awake (m.abort u) := by
  unfold QueryManager.abort
  split
  · rename_i c htask
    split
    · exact h.endCaller htask .dropped
    · exact .wake _
    · exact h
  · exact h

theorem subscribe (h : Awake m) (hc : Coherent m) (spec : QuerySpec) (executes : Bool)
    (react : Delivery → Reaction) : Awake (m.subscribe spec executes react).1 := by
  have hacq := h.acquire hc spec
  unfold QueryManager.subscribe
  simp only
  split
  · exact hacq
  · refine Awake.spawn ?_ _
    split
    · exact hacq.spawn _
    · exact hacq

/-- **Tasks that can go on stay queued.** -/
theorem step (h : Awake m) (hc : Coherent m) (ev : ManagerEvent) : Awake (m.step ev) := by
  cases ev with
  | drawn numbers requests => exact h
  | poll =>
    show Awake m.poll
    cases hq : m.queue with
    | nil => rw [poll_nil hq]; exact h
    | cons t rest => rw [poll_eq hq]; exact .wake _
  | favour u => exact h.favour u
  | acquire spec => exact h.acquire hc spec
  | release x => exact .wake _
  | close id => exact .wake _
  | closeExecutor id => exact .wake _
  | ask addressee block => exact h.spawn _
  | abort u => exact h.abort u
  | subscribe spec executes react => exact h.subscribe hc spec executes react
  | unsubscribe u =>
    show Awake (m.unsubscribe u)
    unfold QueryManager.unsubscribe
    split
    · exact .wake _
    · exact h
  | answer u reply =>
    rcases answer_eq m u reply with ⟨heq, -⟩ | ⟨id, n, e, -, -, heq, -⟩
    · rw [show m.step (.answer u reply) = m from heq]; exact h
    · rw [show m.step (.answer u reply) = _ from heq]; exact .wake _
  | answerNow u reply =>
    rcases answer_eq m u reply with ⟨-, heq⟩ | ⟨id, n, e, -, -, -, heq⟩
    · rw [show m.step (.answerNow u reply) = m from heq]; exact h
    · rw [show m.step (.answerNow u reply) = _ from heq]; exact .wake _
  | cancel =>
    refine of_foldl fun u hu => ?_
    exact List.mem_reverse.2 (List.mem_range.2 hu)

end Awake

/-! ## Runs -/

/-- **A manager whose live queries users leave open,** with the leases that they hold. -/
structure Lending.Proper (l : Lending) : Prop where
  ok : ManagerOK l.manager
  coherent : Coherent l.manager
  orderly : Orderly l.manager (l.manager.taskLeases ++ l.held)
  awake : Awake l.manager

namespace Lending.Proper

theorem init : Proper {} := ⟨.init {}, .init {}, ⟨.empty, fun u x hx => by simp at hx⟩, .init {}⟩

theorem next (h : l.Proper) {ev : ManagerEvent} (hev : ev.closes = false) : (l.next ev).Proper := by
  have hord := orderly_next h.ok h.coherent hev h.orderly
  rcases l.next_manager ev with heq | heq
  · refine ⟨?_, ?_, hord, ?_⟩ <;> rw [heq]
    · exact h.ok.step ev
    · exact h.coherent.step h.ok ev
    · exact h.awake.step h.coherent ev
  · rw [heq]
    exact h

theorem after (h : l.Proper) (es : List ManagerEvent)
    (hes : ∀ ev ∈ es, ev.closes = false) : (l.after es).Proper := by
  induction es generalizing l with
  | nil => exact h
  | cons ev es ih =>
    obtain ⟨hev, hes⟩ := List.forall_mem_cons.1 hes
    exact ih (h.next hev) hes

end Lending.Proper

end QueryClient
