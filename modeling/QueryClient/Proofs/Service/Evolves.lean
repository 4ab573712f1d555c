import QueryClient.Proofs.Service.Station

/-!
# What becomes of a service

Whatever happens to a service, its managers stay in order, and its calls get their tokens from its
token manager. Closing it cancels its managers and closes the token manager, and from then on no
manager calls the backend and no fetch brings a token. Some users may lose interest.

* `Station.Proper`: a service in order.
* `Station.Since`: **what follows from the end of a service.**
* `Station.Evolves`: a service goes on in order, with what follows from its end; one lemma for each
  kind of change.
-/

namespace QueryClient.Station

variable {s s' s'' : Station} {gone : Client → Prop}

@[simp] theorem service_setService (s : Station) (x : Service) : (s.setService x).service = x := by
  simp [service, setService, Directory.set]

@[simp] theorem service_setLending (s : Station) (l : Lending) :
    (s.setLending l).service = { s.service with queries := l.manager } := service_setService s _

@[simp] theorem service_setMutations (s : Station) (m : MutationManager) :
    (s.setMutations m).service = { s.service with mutations := m } := service_setService s _

/-! ## What is kept -/

/-- **A service in order:** its managers are, its calls get their tokens from its token manager, and
when it is closed, all of these are. -/
structure Proper (s : Station) : Prop where
  queries : s.lending.Proper
  mutations : s.service.mutations.Awake
  auth : s.service.auth < s.realm.managers.length
  transport : ∀ t, s.service.transport = some (.rest t) → t.manager = s.service.auth
  closed : s.service.closed → s.service.queries.cancelled ∧ s.service.mutations.cancelled ∧
    s.realm.isClosed s.service.auth

/-- **What follows once the service is closed:** its managers call the backend no more, and a fetch
that has brought no token brings none. -/
structure Since (gone : Client → Prop) (s s' : Station) : Prop where
  closed : s'.service.closed
  queries : Aftermath (fun id => gone (.task id)) s.service.queries s'.service.queries
  mutations : MutationManager.Follows (fun id => gone (.execution id)) s.service.mutations
    s'.service.mutations
  tokenless : ∀ f, s.realm.Serves s.service.auth f → s.realm.Tokenless f → s'.realm.Tokenless f

/-- **A service goes on** in order; what follows from its end is kept. -/
structure Evolves (gone : Client → Prop) (s s' : Station) : Prop where
  proper : s'.Proper
  auth : s'.service.auth = s.service.auth
  fetches : ∀ f, s.realm.Serves s.service.auth f → s'.realm.Serves s.service.auth f
  since : s.service.closed → Since gone s s'

namespace Evolves

/-- Calls over the web do not concern the service. -/
theorem of_eq (h : s.Proper) (hd : s'.directory = s.directory) (hid : s'.id = s.id)
    (hheld : s'.held = s.held) : Evolves gone s s' := by
  obtain ⟨d, i, hi, held, calls, sent⟩ := s
  obtain ⟨d', i', hi', held', calls', sent'⟩ := s'
  simp only at hd hid hheld
  subst hd hid hheld
  exact ⟨⟨h.queries, h.mutations, h.auth, h.transport, h.closed⟩, rfl, fun _ hf => hf,
    fun hc => ⟨hc, .refl _, .of_eq rfl rfl rfl, fun _ _ ht => ht⟩⟩

theorem refl (h : s.Proper) : Evolves gone s s := of_eq h rfl rfl rfl

theorem trans (h : Evolves gone s s') (h' : Evolves gone s' s'') : Evolves gone s s'' := by
  refine ⟨h'.proper, h'.auth.trans h.auth, fun f hf => ?_, fun hc => ?_⟩
  · have := h'.fetches f
    rw [h.auth] at this
    exact this (h.fetches f hf)
  · have hs := h.since hc
    have hs' := h'.since hs.closed
    refine ⟨hs'.closed, hs.queries.trans hs'.queries, hs.mutations.trans hs'.mutations,
      fun f hf ht => ?_⟩
    have := hs'.tokenless f
    rw [h.auth] at this
    exact this (h.fetches f hf) (hs.tokenless f hf ht)

/-- Something happens to the tokens. -/
theorem realm (h : s.Proper) (ev : AuthEvent) : Evolves gone s (s.setRealm (s.realm.step ev)) := by
  obtain ⟨hlen, -, hclosed⟩ := step_mono s.realm ev
  refine ⟨⟨h.queries, h.mutations, Nat.lt_of_lt_of_le h.auth hlen, h.transport, fun hc => ?_⟩, rfl,
    fun f hf => hf.step ev, fun hc => ⟨hc, .refl _, .of_eq rfl rfl rfl, fun f hf ht => ?_⟩⟩
  · obtain ⟨hq, hm, hr⟩ := h.closed hc
    exact ⟨hq, hm, hclosed _ hr⟩
  · exact ht.step hf (h.closed hc).2.2 ev

/-- The service changes, but not its realm. -/
theorem service (h : s.Proper) (hs : s'.realm = s.realm) (hauth : s'.service.auth = s.service.auth)
    (hq : s'.lending.Proper) (hm : s'.service.mutations.Awake)
    (ht : ∀ t, s'.service.transport = some (.rest t) → t.manager = s.service.auth)
    (hopen : s'.service.closed → s.service.closed)
    (hc : s.service.closed → s'.service.closed ∧
      (s'.service.queries.cancelled ∧
        Aftermath (fun id => gone (.task id)) s.service.queries s'.service.queries) ∧
      MutationManager.Follows (fun id => gone (.execution id)) s.service.mutations
        s'.service.mutations) : Evolves gone s s' := by
  refine ⟨⟨hq, hm, by rw [hs, hauth]; exact h.auth, by rw [hauth]; exact ht, fun hc' => ?_⟩, hauth,
    fun f hf => by rw [hs]; exact hf, fun hc' => ?_⟩
  · obtain ⟨-, hmc, hr⟩ := h.closed (hopen hc')
    obtain ⟨-, ⟨hqc, -⟩, hf⟩ := hc (hopen hc')
    exact ⟨hqc, hf.cancelled.trans hmc, by rw [hs, hauth]; exact hr⟩
  · obtain ⟨hclosed, ⟨-, ha⟩, hf⟩ := hc hc'
    exact ⟨hclosed, ha, hf, fun f _ ht => by rw [hs]; exact ht⟩

/-- Something happens to the queries. -/
theorem lending (h : s.Proper) (ev : ManagerEvent) (hev : ev.closes = false)
    (hgone : ∀ id, ev = .abort id → gone (.task id)) :
    Evolves gone s (s.setLending (s.lending.next ev)) := by
  have hnext := h.queries.next hev
  refine service h rfl (by simp) ?_ (by simpa using h.mutations) (by simpa using h.transport)
    (by simp) fun hc => ?_
  · unfold Station.lending
    rw [service_setLending]
    exact ⟨hnext.ok, hnext.coherent, hnext.orderly, hnext.awake⟩
  · have hafter := h.queries.aftermath (h.closed hc).1 hev hgone
    rw [service_setLending]
    exact ⟨hc, hafter, .of_eq rfl rfl rfl⟩

/-- Something happens to the mutations. -/
theorem mutations (h : s.Proper) (ev : MutationEvent)
    (hgone : ∀ id, ev = .abort id → gone (.execution id)) :
    Evolves gone s (s.setMutations (s.service.mutations.step ev)) := by
  refine service h rfl (by simp) ?_ (by simpa using h.mutations.step ev) (by simpa using h.transport)
    (by simp) fun hc => ?_
  · unfold Station.lending
    rw [service_setMutations]
    exact h.queries
  · rw [service_setMutations]
    exact ⟨hc, ⟨(h.closed hc).1, .refl _⟩, .step _ hgone⟩

/-- The backend answers. -/
theorem replyNow (h : s.Proper) (client : Client) (result : Except Error OperationResult) :
    Evolves gone s (s.replyNow client result) := by
  cases client with
  | task id => exact lending h _ rfl nofun
  | execution id => exact mutations h _ nofun


/-! ## The service's own operations -/

/-- An open service changes, and stays in order. -/
theorem configured (h : s.Proper) {x : Service} (hopen : s.service.closed = false)
    (hx : x.closed = s.service.closed) (hauth : x.auth = s.service.auth)
    (hq : x.queries = s.service.queries) (hm : x.mutations = s.service.mutations)
    (ht : ∀ t, x.transport = some (.rest t) → t.manager = s.service.auth) :
    Evolves gone s (s.setService x) := by
  refine service h rfl (by simpa using hauth) ?_ (by simpa [hm] using h.mutations) (by simpa using ht)
    (by simp [hx]) (by simp [hopen])
  unfold Station.lending
  rw [service_setService, hq]
  exact h.queries

/-- A setting changes. -/
theorem configure (h : s.Proper) {x : Service} {operation : String}
    (hs : s.service.ensureConfigurable operation = .ok ()) (hx : x.closed = s.service.closed)
    (hauth : x.auth = s.service.auth) (hq : x.queries = s.service.queries)
    (hm : x.mutations = s.service.mutations) (ht : x.transport = s.service.transport) :
    Evolves gone s (s.setService x) := by
  unfold Service.ensureConfigurable at hs
  cases hc : s.service.closed with
  | false => exact configured h hc hx hauth hq hm (by rw [ht]; exact h.transport)
  | true => simp [hc] at hs

/-- The managers are needed. -/
theorem components (h : s.Proper) {x : Service} (hx : s.service.components = .ok x) :
    Evolves gone s (s.setService x) := by
  unfold Service.components at hx
  split at hx
  · simp at hx
  rename_i hclosed
  have hopen : s.service.closed = false := by simpa using hclosed
  split at hx
  · obtain rfl := Except.ok.inj hx
    exact configured h hopen rfl rfl rfl rfl h.transport
  · obtain rfl := Except.ok.inj hx
    refine configured h hopen rfl rfl rfl rfl fun t ht => ?_
    -- a transport of the service's own takes the service's tokens
    cases htr : s.service.transport with
    | none =>
      simp only [htr, Option.getD_none, Option.some.injEq, Transport.rest.injEq] at ht
      rw [← ht]
      rfl
    | some own => exact h.transport t (by simpa [htr] using ht)

end Evolves

theorem setLending_setService (s : Station) (x : Service) (l : Lending) :
    (s.setService x).setLending l =
      { s.setService { x with queries := l.manager } with held := l.held } := by
  unfold setLending
  rw [service_setService]
  simp [setService, Directory.set]

theorem setMutations_setService (s : Station) (x : Service) (m : MutationManager) :
    (s.setService x).setMutations m = s.setService { x with mutations := m } := by
  unfold setMutations
  rw [service_setService]
  simp [setService, Directory.set]

/-- What is done with what came out well. -/
theorem bind_eq_ok {α β : Type} {x : Except Error α} {f : α → Except Error β} {b : β}
    (h : x >>= f = .ok b) : ∃ a, x = .ok a ∧ f a = .ok b := by
  cases x with
  | error e => exact nomatch h
  | ok a => exact ⟨a, rfl, h⟩

theorem map_eq_ok {α β : Type} {x : Except Error α} {f : α → β} {b : β} (h : x.map f = .ok b) :
    ∃ a, x = .ok a ∧ f a = b := by
  cases x with
  | error e => exact nomatch h
  | ok a => exact ⟨a, rfl, Except.ok.inj h⟩

namespace Evolves

/-- Operations of the service. -/
theorem query (h : s.Proper) {operation : String} {vars : Except Error Struct} {y : Service × TaskId}
    (hy : s.service.query operation vars = .ok y) : Evolves gone s (s.setService y.1) := by
  obtain ⟨v, -, hy⟩ := bind_eq_ok hy
  obtain ⟨x, hx, hy⟩ := bind_eq_ok hy
  have hcomp : Evolves gone s (s.setService x) := components h hx
  have hnext := hcomp.trans (lending hcomp.proper (.ask (.leased ⟨operation, v⟩) {}) rfl nofun)
  unfold Station.lending at hnext
  rw [setLending_setService, service_setService] at hnext
  obtain rfl := Except.ok.inj hy
  exact hnext

theorem mutate (h : s.Proper) {operation : String} {vars : Except Error Struct} {y : Service × TaskId}
    (hy : s.service.mutate operation vars = .ok y) : Evolves gone s (s.setService y.1) := by
  obtain ⟨v, -, hy⟩ := bind_eq_ok hy
  obtain ⟨x, hx, hy⟩ := bind_eq_ok hy
  have hcomp : Evolves gone s (s.setService x) := components h hx
  have hnext := hcomp.trans (mutations hcomp.proper (.execute operation v) nofun)
  rw [setMutations_setService, service_setService] at hnext
  obtain rfl := Except.ok.inj hy
  exact hnext

theorem subscribe (h : s.Proper) {operation : String} {vars : Except Error Struct}
    {react : Delivery → Reaction} {y : Service × TaskId}
    (hy : s.service.subscribe operation vars react = .ok y) : Evolves gone s (s.setService y.1) := by
  obtain ⟨v, -, hy⟩ := bind_eq_ok hy
  obtain ⟨x, hx, hy⟩ := bind_eq_ok hy
  have hcomp : Evolves gone s (s.setService x) := components h hx
  have hnext := hcomp.trans (lending hcomp.proper (.subscribe ⟨operation, v⟩ true react) rfl nofun)
  unfold Station.lending at hnext
  rw [setLending_setService, service_setService] at hnext
  obtain rfl := Except.ok.inj hy
  exact hnext

end Evolves

/-! ## The end -/

theorem getElem?_service (s : Station) : s.directory.services[s.id]? = some s.service :=
  List.getElem?_eq_getElem s.here

/-- Closing again has no effect. -/
theorem close_of_closed (h : s.service.closed) : s.close = s := by
  have hd : s.directory.close s.id = s.directory := by
    unfold Directory.close
    simp [s.getElem?_service, h]
  simp only [close, hd]

theorem service_close (h : s.service.closed = false) : s.close.service = s.service.shut := by
  refine Option.some.inj (s.close.getElem?_service.symm.trans ?_)
  show (s.directory.close s.id).services[s.id]? = _
  unfold Directory.close
  simp only [s.getElem?_service, h]
  exact (List.getElem?_set_self s.here).trans rfl

theorem realm_close (h : s.service.closed = false) : s.close.realm = s.realm.close s.service.auth := by
  show (s.directory.close s.id).realm = _
  unfold Directory.close
  simp only [s.getElem?_service, h]
  rfl

/-- **The service is closed.** -/
theorem Evolves.close (h : s.Proper) : Evolves gone s s.close := by
  cases hc : s.service.closed with
  | true => rw [close_of_closed hc]; exact .refl h
  | false =>
    -- the managers are cancelled, which is an event of theirs, and the realm closes the token manager
    have hservice := service_close hc
    have hrealm := realm_close hc
    have hnext : (s.lending.next .cancel).Proper := h.queries.next rfl
    refine ⟨⟨?_, ?_, ?_, ?_, fun _ => ⟨?_, ?_, ?_⟩⟩, ?_, fun f hf => ?_, fun hclosed => ?_⟩
    · unfold Station.lending
      rw [hservice]
      exact ⟨hnext.ok, hnext.coherent, hnext.orderly, hnext.awake⟩
    · rw [hservice]
      exact .cancel _
    · rw [hservice, hrealm]
      exact Nat.lt_of_lt_of_le h.auth (step_mono s.realm (.close s.service.auth)).1
    · rw [hservice]
      exact h.transport
    · rw [hservice]
      exact Gone.cancelled_cancel _
    · rw [hservice]
      exact MutationManager.cancelled_cancel _
    · rw [hservice, hrealm]
      exact isClosed_close h.auth
    · rw [hservice]
      rfl
    · rw [hrealm]
      exact hf.step (.close s.service.auth)
    · rw [hc] at hclosed
      simp at hclosed

end QueryClient.Station
