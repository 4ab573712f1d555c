import QueryClient.Proofs.Service.Calls

/-!
# The end of a service is final

A service is closed at some point of its run. From then on nothing that comes from it calls the
backend or sends a request, and its operations are refused. When its managers have nothing left to
do, nothing is left of what went on in it: who waited for a call of the backend was told that it is
cancelled, subscriptions are completed, and only the leases that users hold are on the books.

* `Founded`: the ways to make a service.
* `Station.NothingLeft`: nothing is left of a service.
* `Station.Final`: **what holds after the end;** `close_final`.
-/

namespace QueryClient

variable {d : Directory} {id : ServiceId} {u : TaskId}

/-! ## New services -/

/-- **The ways to make a service:** on a given transport, over the web with the tokens of a manager
that is there, or for options that no service is remembered for. -/
inductive Founded : Directory → ServiceId → Prop where
  | given (d : Directory) (options : Options) : Founded (d.addGiven options).1 (d.addGiven options).2
  | web (d : Directory) (options : Options) (settings : Settings) {auth : AuthId}
      (h : auth < d.realm.managers.length) :
      Founded (d.addWeb options settings auth).1 (d.addWeb options settings auth).2
  | obtained {d d' : Directory} {options : Options} {requested : Option Settings}
      {environment : Option (List Char)} {id : ServiceId} (hnew : d.find? options.serviceKey = none)
      (h : d.obtain options requested environment = .ok (d', id)) : Founded d' id

/-- Nobody has used the service yet. -/
structure Service.Fresh (x : Service) (r : AuthRealm) : Prop where
  queries : x.queries = {}
  mutations : x.mutations = {}
  closed : x.closed = false
  auth : x.auth < r.managers.length
  transport : ∀ t, x.transport ≠ some (.rest t)

theorem Founded.fresh (h : Founded d id) : ∃ x, d.services[id]? = some x ∧ x.Fresh d.realm := by
  cases h with
  | given d options =>
    refine ⟨_, List.getElem?_concat_length, rfl, rfl, rfl, ?_, nofun⟩
    exact create_lt d.realm true
  | web d options settings hauth => exact ⟨_, List.getElem?_concat_length, rfl, rfl, rfl, hauth, nofun⟩
  | obtained hnew hobtain =>
    rename_i d options requested environment
    unfold Directory.obtain at hobtain
    rw [hnew] at hobtain
    obtain ⟨settings, -, hobtain⟩ := Station.bind_eq_ok hobtain
    obtain ⟨rfl, rfl⟩ := Prod.mk.inj (Except.ok.inj hobtain)
    refine ⟨_, List.getElem?_concat_length, rfl, rfl, rfl, ?_, nofun⟩
    exact create_lt d.realm false

namespace Station

/-- A service that was just made. -/
def found (h : Founded d id) : Station where
  directory := d
  id := id
  here := by
    obtain ⟨x, hx, -⟩ := h.fresh
    exact (List.getElem?_eq_some_iff.1 hx).1

/-- **A new service is in order.** -/
theorem InOrder.found (h : Founded d id) : (Station.found h).InOrder := by
  obtain ⟨x, hx, hfresh⟩ := h.fresh
  have hservice : (Station.found h).service = x :=
    Option.some.inj ((Station.found h).getElem?_service.symm.trans hx)
  refine ⟨⟨?_, ?_, ?_, ?_, ?_⟩, .of_nil rfl⟩
  · unfold lending
    rw [hservice, hfresh.queries]
    exact .init
  · rw [hservice, hfresh.mutations]
    intro u x hx
    simp at hx
  · rw [hservice]
    exact hfresh.auth
  · rw [hservice]
    exact fun t ht => absurd ht (hfresh.transport t)
  · rw [hservice, hfresh.closed]
    nofun

end Station

/-! ## After the end -/

/-- The backend was called for an attempt, and its answer has not been taken. -/
def QueryManager.IsOutstanding (m : QueryManager) (id : InstanceId) (n : Int) : Prop :=
  ∃ e, m.executor? id = some e ∧ ∃ a ∈ e.attempts, a.number = n ∧ a.isCalling

/-- An attempt ended in a failure of the given kind. -/
def QueryManager.FailedWith (m : QueryManager) (id : InstanceId) (n : Int) (code : ErrorCode) : Prop :=
  ∃ e, m.executor? id = some e ∧ ∃ a ∈ e.attempts, a.number = n ∧
    ∃ o err, a.stage = .settled o ∧ o.value.result = .error err ∧ err.code = code

/-- A caller waits for an attempt. -/
def QueryManager.WaitsFor (m : QueryManager) (u : TaskId) (id : InstanceId) (n : Int) : Prop :=
  ∃ c lease, m.tasks[u]? = some (.caller c) ∧ c.stage = .waiting id n lease

/-- A caller was told of a failure of the given kind. -/
def QueryManager.WasTold (m : QueryManager) (u : TaskId) (code : ErrorCode) : Prop :=
  ∃ c o err, m.tasks[u]? = some (.caller c) ∧ c.stage = .ended (.returned o) ∧
    o.value.result = .error err ∧ err.code = code

/-- The backend was called for an execution, and its answer has not been taken. -/
def MutationManager.IsOutstanding (m : MutationManager) (u : TaskId) : Prop :=
  ∃ x, m.executions[u]? = some x ∧ x.stage.isCalling

/-- An execution was told of a failure of the given kind. -/
def MutationManager.WasTold (m : MutationManager) (u : TaskId) (code : ErrorCode) : Prop :=
  ∃ x err, m.executions[u]? = some x ∧ x.stage = .ended (.returned (.error err)) ∧ err.code = code

namespace Station

variable {s e : Station} {gone : Client → Prop}

/-- **Nothing is left** of what went on in the service at the point `s`; some users have lost interest
since. -/
structure NothingLeft (gone : Client → Prop) (s e : Station) : Prop where
  queries : AllOver e.service.queries
  executions : ∀ (u : TaskId) x, e.service.mutations.executions[u]? = some x →
    ∃ ending, x.stage = .ended ending
  calls : e.calls = [] ∧ ∀ client, e.service.isCalling client = false
  cancelledAttempts : ∀ id n, s.service.queries.IsOutstanding id n →
    e.service.queries.FailedWith id n .cancelled
  cancelledCallers : ∀ u id n, s.service.queries.WaitsFor u id n →
    s.service.queries.IsOutstanding id n → ¬ gone (.task u) → e.service.queries.WasTold u .cancelled
  cancelledMutations : ∀ u, s.service.mutations.IsOutstanding u → ¬ gone (.execution u) →
    e.service.mutations.WasTold u .cancelled
  /-- Only users hold leases. -/
  registered : ∀ key, (e.service.queries.registry.entry? key).isSome ↔ ∃ x ∈ e.held, x.key = key
  users : ∀ key, e.service.queries.registry.users key = e.held.countP fun x => x.key = key

/-- **What holds after the end** of a service that was closed at the point `s`. -/
structure Final (gone : Client → Prop) (s e : Station) : Prop where
  closed : e.service.closed ∧ e.realm.isClosed e.service.auth
  /-- Nothing has called the backend since. -/
  orders : e.service.orders = s.service.orders
  sent : e.sent = s.sent
  components : e.service.components = .error .instanceClosed
  query : ∀ operation vars, e.service.query operation (.ok vars) = .error .instanceClosed
  mutate : ∀ operation vars, e.service.mutate operation (.ok vars) = .error .instanceClosed
  subscribe : ∀ operation vars react,
    e.service.subscribe operation (.ok vars) react = .error .instanceClosed
  useEmulator : ∀ host port, e.service.useEmulator host port = .error .instanceClosed
  setGenerated : ∀ generated, e.service.setGenerated generated = .error .instanceClosed
  code : Error.instanceClosed.code = .closed
  /-- Closing again has no effect. -/
  again : e.next .close = e
  idle : e.service.queries.queue = [] → e.service.mutations.queue = [] → NothingLeft gone s e

/-- The service is closed now, or was before. -/
theorem close_cases (s : Station) : s.close.service = s.service.shut ∨
    s.service.closed ∧ s.close.service = s.service := by
  cases hc : s.service.closed with
  | true => exact .inr ⟨rfl, by rw [close_of_closed hc]⟩
  | false => exact .inl (service_close hc)

theorem closed_close (s : Station) : s.close.service.closed := by
  rcases s.close_cases with heq | ⟨hc, heq⟩
  · rw [heq]
    rfl
  · rw [heq]
    exact hc

theorem executions_close (s : Station) :
    s.close.service.mutations.executions = s.service.mutations.executions := by
  rcases s.close_cases with heq | ⟨-, heq⟩
  · rw [heq]
    show s.service.mutations.cancel.executions = _
    rw [(MutationManager.wakes_cancel s.service.mutations).frame]
  · rw [heq]

/-- Closing calls nobody. -/
theorem orders_close (s : Station) : s.close.service.orders = s.service.orders := by
  rcases s.close_cases with heq | ⟨-, heq⟩
  · rw [heq]
    show s.service.queries.cancel.orders ++ s.service.mutations.cancel.orders = _
    rw [(queued_cancel s.service.queries).frame,
      (MutationManager.wakes_cancel s.service.mutations).frame]
    rfl
  · rw [heq]

/-- **An attempt that had called the backend** is doomed when the service is closed. -/
theorem doomed_close {n : Int} {i : InstanceId} (h : s.service.queries.IsOutstanding i n) :
    s.close.service.queries.Doomed i n := by
  obtain ⟨x, hx, a, ha, hn, hcalling⟩ := h
  have hdoomed : s.service.queries.Doomed i n := ⟨x, hx, a, ha, hn, .inl hcalling⟩
  rcases s.close_cases with heq | ⟨-, heq⟩
  · rw [heq]
    exact hdoomed.cancel
  · rw [heq]
    exact hdoomed

theorem condemned_close {n : Int} {i : InstanceId} (h : s.service.queries.IsOutstanding i n)
    (hwaits : s.service.queries.WaitsFor u i n) (p : TaskId → Prop) :
    Condemned p s.close.service.queries u i n := by
  obtain ⟨x, hx, a, ha, hn, hcalling⟩ := h
  obtain ⟨c, lease, htask, hst⟩ := hwaits
  have hcond : Condemned p s.service.queries u i n :=
    ⟨⟨x, hx, a, ha, hn, .inl hcalling⟩, c, htask, .inl ⟨lease, hst⟩⟩
  rcases s.close_cases with heq | ⟨-, heq⟩
  · rw [heq]
    exact hcond.cancel
  · rw [heq]
    exact hcond

/-- **An execution that had called the backend** is told that it is cancelled. -/
theorem Since.cancelled (h : Since gone s.close e) (hc : s.close.service.mutations.cancelled)
    (hended : ∀ (u : TaskId) x, e.service.mutations.executions[u]? = some x →
      ∃ ending, x.stage = .ended ending)
    (hout : s.service.mutations.IsOutstanding u) (hgone : ¬ gone (.execution u)) :
    e.service.mutations.WasTold u .cancelled := by
  obtain ⟨x, hx, hst⟩ := hout
  rw [← executions_close] at hx
  obtain ⟨st, hx', hsteps⟩ := h.mutations.own u x hx
  rw [hc] at hsteps
  obtain ⟨ending, hend⟩ := hended u _ hx'
  -- it waited for the backend, and what has ended does not
  rcases MutationManager.Lost.steps (.inl hst) hsteps with hcall | ⟨hg, -⟩ | hcancelled
  · simp only at hend
    simp [hend, ExecutionStage.isCalling] at hcall
  · exact absurd hg hgone
  · exact ⟨_, _, hx', hcancelled, rfl⟩

/-- **Nothing is left** when a closed service has nothing left to do. -/
theorem Steps.nothingLeft_of_idle (h : Steps gone s.close e) (hs : s.close.InOrder)
    (hq : e.service.queries.queue = []) (hm : e.service.mutations.queue = []) : NothingLeft gone s e := by
  have hsince := h.evolves.since (closed_close s)
  have hproper := h.evolves.proper
  obtain ⟨hqc, hmc, -⟩ := hproper.closed hsince.closed
  have hover : AllOver e.service.queries := hproper.queries.allOver hqc hq
  have hended : ∀ (u : TaskId) x, e.service.mutations.executions[u]? = some x →
      ∃ ending, x.stage = .ended ending := fun u x hx => hproper.mutations.allOver hmc hm hx
  have hcalling : ∀ client, e.service.isCalling client = false := by
    rintro (u | u)
    · exact hover.isCalling hproper.queries.ok u
    · show e.service.mutations.isCalling u = false
      unfold MutationManager.isCalling MutationManager.stage?
      cases hx : e.service.mutations.executions[u]? with
      | none => rfl
      | some x =>
        obtain ⟨ending, hst⟩ := hended u x hx
        simp [hst]
  -- no task holds a lease any more, so that the books have those of users only
  have hbooks : Books e.service.queries.registry e.held := by
    have hall := hproper.queries.orderly.leases.books
    rwa [show e.lending.manager.taskLeases = [] from hover.taskLeases, List.nil_append] at hall
  refine ⟨hover, hended, ⟨?_, hcalling⟩, fun i n hout => ?_, fun u i n hwaits hout hgone => ?_,
    fun u hout hgone => ?_, hbooks.isSome_entry?, hbooks.users⟩
  · refine List.eq_nil_iff_forall_not_mem.2 fun x hx => ?_
    have hwaits := h.settled.calling x hx
    rw [hcalling] at hwaits
    simp at hwaits
  · have hdoomed := hsince.queries.doomed i n (doomed_close hout)
    obtain ⟨x, hx, a, ha, hn, o, hst, ho⟩ := hover.doomed hdoomed
    exact ⟨x, hx, a, ha, hn, o, _, hst, ho, rfl⟩
  · have hcond := hsince.queries.condemned u i n (condemned_close hout hwaits _)
    obtain ⟨c, htask, ⟨hg, -⟩ | ⟨o, hst, ho⟩⟩ := hover.condemned hcond
    · exact absurd hg hgone
    · exact ⟨c, o, _, htask, hst, ho, rfl⟩
  · exact hsince.cancelled (hs.proper.closed (closed_close s)).2.1 hended hout hgone

end Station

/-! ## A closed service refuses -/

namespace Service

variable {x : Service}

/-- The managers are refused. -/
theorem components_of_closed (h : x.closed) : x.components = .error .instanceClosed := if_pos h

/-- What needs the managers is refused. -/
theorem components_bind_of_closed {α : Type} (h : x.closed) (f : Service → Except Error α) :
    x.components >>= f = .error .instanceClosed := by
  rw [components_of_closed h]
  rfl

/-- What changes the settings is refused. -/
theorem ensureConfigurable_bind_of_closed {α : Type} (h : x.closed) (operation : String)
    (f : Unit → Except Error α) : x.ensureConfigurable operation >>= f = .error .instanceClosed := by
  rw [show x.ensureConfigurable operation = .error .instanceClosed from if_pos h]
  rfl

end Service

/-- **The end of a service is final:** a service that was made in any way runs in any way, is closed,
and runs on in any way. -/
theorem close_final (h : Founded d id) (es more : List ServiceEvent) :
    Station.Final (fun client => .abandon client ∈ more) ((Station.found h).after es)
      ((((Station.found h).after es).next .close).after more) := by
  have hrun : Station.Steps (fun client => .abandon client ∈ es) _ _ :=
    (Station.InOrder.found h).run es fun _ hmem => hmem
  set s := (Station.found h).after es
  have hs : s.InOrder := ⟨hrun.evolves.proper, hrun.settled⟩
  have hstep : Station.Steps (fun client => .abandon client ∈ more) s s.close := .close hs
  have hclose : s.close.InOrder := ⟨hstep.evolves.proper, hstep.settled⟩
  have hmore := hclose.run more fun _ hmem => hmem
  have hc := Station.closed_close s
  have hsince := hmore.evolves.since hc
  have horders : (s.close.after more).service.orders = s.close.service.orders := by
    obtain ⟨hq, hm⟩ := hsince.orders hclose.proper hc
    unfold Service.orders
    rw [hq, hm]
  exact
    { closed := ⟨hsince.closed, (hmore.evolves.proper.closed hsince.closed).2.2⟩
      orders := horders.trans (Station.orders_close s)
      sent := hmore.sent hc
      components := Service.components_of_closed hsince.closed
      query := fun _ _ => Service.components_bind_of_closed hsince.closed _
      mutate := fun _ _ => Service.components_bind_of_closed hsince.closed _
      subscribe := fun _ _ _ => Service.components_bind_of_closed hsince.closed _
      useEmulator := fun _ _ => Service.ensureConfigurable_bind_of_closed hsince.closed _ _
      setGenerated := fun _ => Service.ensureConfigurable_bind_of_closed hsince.closed _ _
      code := rfl
      again := Station.close_of_closed hsince.closed
      idle := hmore.nothingLeft_of_idle hclose }

/-! ## A cinema -/

/-- A token manager that has found its provider. -/
def cinema : Directory := { realm := (({ available := true } : AuthRealm).create false).1 }

/-- Where the cinema's movies are. -/
def cinemaOptions : Options where
  connector := ⟨"europe-west1", "movies", "reviews"⟩
  projectId := "demo"

theorem founded_cinema : Founded (cinema.addWeb cinemaOptions .production 0).1
    (cinema.addWeb cinemaOptions .production 0).2 :=
  .web cinema cinemaOptions .production (by decide)

/-- A query waits for its token when a mutation has got one and its request is sent. -/
def cinemaRun : List ServiceEvent :=
  [.subscribe "GetMovie" (.ok [("id", .int 1)]) fun _ => {},
    .query "GetMovie" (.ok [("id", .int 1)]), .mutate "AddMovie" (.ok []),
    .queries .poll, .queries .poll, .queries .poll, .queries .poll, .mutations .poll,
    .auth .poll, .auth .poll, .auth (.answerNow 1 (.ok (some "token")))]

/-- All that is left goes on. -/
def cinemaEnd : List ServiceEvent :=
  [.queries .poll, .queries .poll, .queries .poll, .queries .poll, .queries .poll, .mutations .poll]

theorem close_final_cinema :
    let s := (Station.found founded_cinema).after cinemaRun
    let e := (s.next .close).after cinemaEnd
    ((s.calls.map fun x => x.order.client) = [.task 3, .execution 0] ∧ s.sent.length = 1 ∧
      e.service.queries.queue = [] ∧ e.service.mutations.queue = []) ∧
      Station.Final (fun client => .abandon client ∈ cinemaEnd) s e :=
  ⟨by decide +kernel, close_final founded_cinema cinemaRun cinemaEnd⟩

end QueryClient
