import QueryClient.Proofs.Service.Evolves

/-!
# A directory at work

All services of a directory are at work at once: services are asked for and made, used and closed, in any
order. What happens to one service leaves the others as they are, and its own options, settings and token
manager, unless it is closed or sent to an emulator.

* `Premises`, `PremisesEvent`, `Premises.step`: **a directory with all its services at work,** with events.
* `premisesAt`: the premises after the first events.
* `Station.LeavesOthers`: what the work of a service leaves as it is, with one lemma for each kind of work.
* `Station.Turns`, `Station.turns`: **what an event does to a directory.**
-/

namespace QueryClient

/-! ## Premises -/

/-- **A directory with all its services at work.** -/
structure Premises where
  directory : Directory := {}
  /-- The leases that users hold on the live queries of each service. -/
  held : ServiceId → List Lease := fun _ => []
  /-- The calls over the web of each service that have not been answered. -/
  calls : ServiceId → List WebCall := fun _ => []
  /-- The requests that each service has sent. -/
  sent : ServiceId → List HttpRequest := fun _ => []

/-- What happens to services and their directory. -/
inductive PremisesEvent where
  /-- The service for options is asked for. -/
  | obtain (options : Options) (requested : Option Settings) (environment : Option (List Char))
  /-- A service is made on a given transport. -/
  | given (options : Options)
  /-- A service is made over the web, with the tokens of a manager that is there. -/
  | web (options : Options) (settings : Settings) (auth : AuthId)
  /-- Something happens to a service that is there. -/
  | at (id : ServiceId) (ev : ServiceEvent)
  /-- Something happens to the tokens. -/
  | auth (ev : AuthEvent)

namespace Premises

/-- A service of the premises. -/
def station (p : Premises) (id : ServiceId) (here : id < p.directory.services.length) : Station where
  directory := p.directory
  id := id
  here := here
  held := p.held id
  calls := p.calls id
  sent := p.sent id

/-- A service has done something. -/
def setStation (p : Premises) (s : Station) : Premises where
  directory := s.directory
  held id := if id = s.id then s.held else p.held id
  calls id := if id = s.id then s.calls else p.calls id
  sent id := if id = s.id then s.sent else p.sent id

/-- **What an event does.** Where no service comes out of it, nothing happens. -/
def step (p : Premises) : PremisesEvent → Premises
  | .obtain options requested environment =>
    match p.directory.obtain options requested environment with
    | .error _ => p
    | .ok (d, _) => { p with directory := d }
  | .given options => { p with directory := (p.directory.addGiven options).1 }
  | .web options settings auth =>
    if auth < p.directory.realm.managers.length then
      { p with directory := (p.directory.addWeb options settings auth).1 }
    else p
  | .at id ev =>
    if here : id < p.directory.services.length then p.setStation ((p.station id here).next ev) else p
  | .auth ev => { p with directory := { p.directory with realm := p.directory.realm.step ev } }

end Premises

/-- The premises after the first `n` events. -/
def premisesAt (es : List PremisesEvent) (n : ℕ) : Premises := (es.take n).foldl Premises.step {}

theorem premisesAt_succ {es : List PremisesEvent} {n : ℕ} (hn : n < es.length) :
    premisesAt es (n + 1) = (premisesAt es n).step es[n] := by
  simp only [premisesAt]
  rw [List.take_add_one, List.getElem?_eq_getElem hn, Option.toList_some, List.foldl_append]
  rfl

/-- After the last event nothing happens. -/
theorem premisesAt_of_le {es : List PremisesEvent} {n : ℕ} (hn : es.length ≤ n) :
    premisesAt es (n + 1) = premisesAt es n := by
  simp only [premisesAt]
  rw [List.take_of_length_le hn, List.take_of_length_le (Nat.le_succ_of_le hn)]

/-! ## What the work of a service leaves as it is -/

namespace Station

variable {s s' s'' : Station}

/-- **The work of a service** leaves the other services as they are, what is remembered, and its own
options, settings and token manager. It does not close the service. -/
structure LeavesOthers (s s' : Station) : Prop where
  id : s'.id = s.id
  count : s'.directory.services.length = s.directory.services.length
  others : ∀ j, j ≠ s.id → s'.directory.services[j]? = s.directory.services[j]?
  remembered : s'.directory.remembered = s.directory.remembered
  managers : s.realm.managers.length ≤ s'.realm.managers.length
  options : s'.service.options = s.service.options
  settings : s'.service.settings = s.service.settings
  auth : s'.service.auth = s.service.auth
  closed : s'.service.closed = s.service.closed

namespace LeavesOthers

theorem refl (s : Station) : LeavesOthers s s := ⟨rfl, rfl, fun _ _ => rfl, rfl, Nat.le_refl _, rfl, rfl, rfl, rfl⟩

theorem trans (h : LeavesOthers s s') (h' : LeavesOthers s' s'') : LeavesOthers s s'' :=
  ⟨h'.id.trans h.id, h'.count.trans h.count,
    fun j hj => (h'.others j (by rwa [h.id])).trans (h.others j hj), h'.remembered.trans h.remembered,
    Nat.le_trans h.managers h'.managers, h'.options.trans h.options, h'.settings.trans h.settings,
    h'.auth.trans h.auth, h'.closed.trans h.closed⟩

/-- The service changes in nothing that counts. -/
theorem setService (s : Station) {x : Service} (ho : x.options = s.service.options)
    (hs : x.settings = s.service.settings) (ha : x.auth = s.service.auth)
    (hc : x.closed = s.service.closed) : LeavesOthers s (s.setService x) := by
  refine ⟨rfl, List.length_set, fun j hj => ?_, rfl, Nat.le_refl _, ?_, ?_, ?_, ?_⟩
  · exact List.getElem?_set_ne (Ne.symm hj)
  · rw [service_setService, ho]
  · rw [service_setService, hs]
  · rw [service_setService, ha]
  · rw [service_setService, hc]

/-- Calls and leases are no part of the directory. -/
theorem of_directory (hd : s'.directory = s.directory) (hid : s'.id = s.id) : LeavesOthers s s' := by
  obtain ⟨d, i, hi, held, calls, sent⟩ := s
  obtain ⟨d', i', hi', held', calls', sent'⟩ := s'
  simp only at hd hid
  subst hd hid
  exact ⟨rfl, rfl, fun _ _ => rfl, rfl, Nat.le_refl _, rfl, rfl, rfl, rfl⟩

/-- Something happens to the tokens. -/
theorem setRealm (s : Station) (ev : AuthEvent) : LeavesOthers s (s.setRealm (s.realm.step ev)) :=
  ⟨rfl, rfl, fun _ _ => rfl, rfl, (step_mono s.realm ev).1, rfl, rfl, rfl, rfl⟩

theorem setLending (s : Station) (l : Lending) : LeavesOthers s (s.setLending l) := by
  have hset : LeavesOthers s (s.setService { s.service with queries := l.manager }) :=
    setService s rfl rfl rfl rfl
  exact hset.trans (of_directory rfl rfl)

theorem setMutations (s : Station) (m : MutationManager) : LeavesOthers s (s.setMutations m) :=
  setService s rfl rfl rfl rfl

theorem replyNow (s : Station) (client : Client) (result : Except Error OperationResult) :
    LeavesOthers s (s.replyNow client result) := by
  cases client with
  | task id => exact setLending s _
  | execution id => exact setMutations s _

theorem foldl {α : Type} {op : Station → α → Station} (hop : ∀ s x, LeavesOthers s (op s x)) (xs : List α) :
    ∀ s, LeavesOthers s (xs.foldl op s) := by
  induction xs with
  | nil => exact refl
  | cons x xs ih => exact fun s => (hop s x).trans (ih _)

theorem callWeb (t : RestTransport) (s : Station) (order : Order) : LeavesOthers s (callWeb t s order) := by
  unfold Station.callWeb
  split
  · exact replyNow s _ _
  · exact (setRealm s (.fetch t.manager)).trans (of_directory rfl rfl)

theorem goOn (s : Station) (x : WebCall) : LeavesOthers s (s.goOn x) := by
  unfold Station.goOn
  split
  · unfold Station.proceed
    split
    · exact replyNow s _ _
    · exact of_directory rfl rfl
  · exact refl s

theorem advance (s : Station) : LeavesOthers s s.advance := by
  have hcalls : LeavesOthers s { s with calls := s.calls.filter fun x => (s.ended? x).isNone } :=
    of_directory rfl rfl
  exact hcalls.trans (foldl goOn _ _)

theorem abortAll (fs : List FetchId) : ∀ s : Station, LeavesOthers s (s.setRealm (fs.foldl AuthRealm.abort s.realm)) := by
  induction fs with
  | nil => exact fun s => of_directory rfl rfl
  | cons f fs ih =>
    intro s
    have hrest := ih (s.setRealm (s.realm.abort f))
    exact (setRealm s (.abort f)).trans hrest

theorem settle (s : Station) : LeavesOthers s s.settle :=
  (advance s).trans ((abortAll _ s.advance).trans (of_directory rfl rfl))

theorem heed (s : Station) (before : Service) : LeavesOthers s (s.heed before) := by
  unfold Station.heed
  split
  · exact (foldl (callWeb _) _ s).trans (settle _)
  · exact settle s

theorem respond (s : Station) (place : ℕ) (answer : HttpAnswer) : LeavesOthers s (s.respond place answer) := by
  unfold Station.respond
  split
  · exact refl s
  rename_i x hx
  split
  · exact refl s
  rename_i token htoken
  have herase : LeavesOthers s { s with calls := s.calls.eraseIdx place } := of_directory rfl rfl
  have hreply : ∀ {s₁ : Station}, LeavesOthers s s₁ →
      LeavesOthers s (s₁.replyNow x.order.client (x.complete token answer).result).settle :=
    fun h => h.trans ((replyNow _ _ _).trans (settle _))
  simp only
  split
  · exact hreply (herase.trans (setRealm _ (.forceRefresh x.transport.manager)))
  · exact hreply herase

/-- An operation that keeps what counts of the service. -/
theorem operate (s : Station) {result : Except Error Service}
    (h : ∀ x, result = .ok x → x.options = s.service.options ∧ x.settings = s.service.settings ∧
      x.auth = s.service.auth ∧ x.closed = s.service.closed) : LeavesOthers s (s.operate result) := by
  cases result with
  | error e => exact refl s
  | ok x =>
    obtain ⟨ho, hs, ha, hc⟩ := h x rfl
    exact (setService s ho hs ha hc).trans (heed _ _)

end LeavesOthers

/-- The managers are built on what the service is. -/
theorem components_keeps {x y : Service} (h : x.components = .ok y) : y.options = x.options ∧
    y.settings = x.settings ∧ y.auth = x.auth ∧ y.closed = x.closed := by
  unfold Service.components at h
  split at h
  · simp at h
  split at h
  · obtain rfl := Except.ok.inj h
    exact ⟨rfl, rfl, rfl, rfl⟩
  · obtain rfl := Except.ok.inj h
    exact ⟨rfl, rfl, rfl, rfl⟩

/-- Whatever is asked of the managers, once they are built, keeps what the service is. -/
theorem managed_keeps {x y : Service} {vars : Except Error Struct} {f : Struct → Service → Service × TaskId}
    (hf : ∀ v z, (f v z).1.options = z.options ∧ (f v z).1.settings = z.settings ∧
      (f v z).1.auth = z.auth ∧ (f v z).1.closed = z.closed)
    (h : (vars >>= fun v => x.components >>= fun z => pure (f v z)).map Prod.fst = .ok y) :
    y.options = x.options ∧ y.settings = x.settings ∧ y.auth = x.auth ∧ y.closed = x.closed := by
  obtain ⟨w, hw, rfl⟩ := map_eq_ok h
  obtain ⟨v, -, hw⟩ := bind_eq_ok hw
  obtain ⟨z, hz, hw⟩ := bind_eq_ok hw
  obtain rfl := Except.ok.inj hw
  obtain ⟨ho, hs, ha, hc⟩ := hf v z
  obtain ⟨ho', hs', ha', hc'⟩ := components_keeps hz
  exact ⟨ho.trans ho', hs.trans hs', ha.trans ha', hc.trans hc'⟩

/-! ## What an event does to a directory -/

end Station

/-- The settings of a service after an event at it: an open service that nobody has used yet can be sent to
an emulator. -/
def Service.settingsAfter (x : Service) : ServiceEvent → Settings
  | .useEmulator host port => if x.closed || x.built then x.settings else .emulator host port
  | _ => x.settings

namespace Station

/-- **What an event at a service does to its directory.** -/
inductive Turns (s s' : Station) : ServiceEvent → Prop where
  | stays {ev : ServiceEvent} (hev : ev ≠ .close) (hset : s.service.settingsAfter ev = s.service.settings)
      (h : LeavesOthers s s') : Turns s s' ev
  | routed {host : Option String} {port : Option UInt16}
      (hset : s.service.settingsAfter (.useEmulator host port) = .emulator host port)
      (h : LeavesOthers (s.setService { s.service with settings := .emulator host port }) s') :
      Turns s s' (.useEmulator host port)
  | closes (h : s' = s.close) : Turns s s' .close

theorem turns_useEmulator (s : Station) (host : Option String) (port : Option UInt16) :
    Turns s (s.next (.useEmulator host port)) (.useEmulator host port) := by
  show Turns s (s.operate (s.service.useEmulator host port)) _
  have hset : s.service.settingsAfter (.useEmulator host port) =
      if (s.service.ensureConfigurable "use_emulator()").isOk then .emulator host port else s.service.settings := by
    unfold Service.settingsAfter Service.ensureConfigurable
    cases s.service.closed <;> cases s.service.built <;> rfl
  cases hs : s.service.ensureConfigurable "use_emulator()" with
  | error e =>
    rw [hs] at hset
    simp only [Service.useEmulator, hs]
    exact .stays (by simp) hset (.refl s)
  | ok u =>
    rw [hs] at hset
    simp only [Service.useEmulator, hs]
    exact .routed hset (.heed _ _)

theorem turns (s : Station) (ev : ServiceEvent) : Turns s (s.next ev) ev := by
  cases ev with
  | useEmulator host port => exact turns_useEmulator s host port
  | setGenerated generated =>
    refine .stays (by simp) rfl (.operate s fun x hx => ?_)
    obtain ⟨u, hs, hx⟩ := bind_eq_ok hx
    obtain rfl := Except.ok.inj hx
    exact ⟨rfl, rfl, rfl, rfl⟩
  | prepare => exact .stays (by simp) rfl (.operate s fun x hx => components_keeps hx)
  | query operation vars =>
    exact .stays (by simp) rfl (.operate s fun x hx => managed_keeps (fun v z => ⟨rfl, rfl, rfl, rfl⟩) hx)
  | mutate operation vars =>
    exact .stays (by simp) rfl (.operate s fun x hx => managed_keeps (fun v z => ⟨rfl, rfl, rfl, rfl⟩) hx)
  | subscribe operation vars react =>
    exact .stays (by simp) rfl (.operate s fun x hx => managed_keeps (fun v z => ⟨rfl, rfl, rfl, rfl⟩) hx)
  | queries ev =>
    refine .stays (by simp) rfl ?_
    simp only [next]
    split
    · exact (LeavesOthers.setLending s _).trans (.heed _ _)
    · exact .refl s
  | mutations ev =>
    refine .stays (by simp) rfl ?_
    simp only [next]
    split
    · exact (LeavesOthers.setMutations s _).trans (.heed _ _)
    · exact .refl s
  | auth ev => exact .stays (by simp) rfl ((LeavesOthers.setRealm s ev).trans (.settle _))
  | respond place answer => exact .stays (by simp) rfl (.respond s place answer)
  | close => exact .closes rfl

end Station

end QueryClient
