import QueryClient.Proofs.Service.Evolves

/-!
# Calls over the web

A call over the web is made for a task or an execution that waits for it, and waits for a token of
the service's token manager or has sent its request. Once the service is closed, no token comes any
more, so that no request is sent.

* `Station.Settled`: what holds of the calls between events; `Station.Served.settle`.
* `Station.Since.orders`: a closed service calls the backend no more.
* `Station.InOrder`: a service in order with its calls.
* `Station.Steps`: **what an event does;** `Station.InOrder.steps`, `Station.InOrder.run`.
-/

namespace QueryClient.Station

variable {s s' s'' : Station} {gone : Client → Prop}

/-! ## Calls and their tokens -/

/-- Calls get their tokens from the service's token manager. -/
def Served (s : Station) : Prop := ∀ x ∈ s.calls, s.realm.Serves s.service.auth x.fetch

/-- Calls that wait for a token have got none. -/
def Waits (s : Station) : Prop := ∀ x ∈ s.calls, x.token = none → s.realm.Tokenless x.fetch

/-- **The calls between events:** somebody waits for each. -/
structure Settled (s : Station) : Prop where
  served : s.Served
  waits : s.Waits
  calling : ∀ x ∈ s.calls, s.service.isCalling x.order.client

theorem Settled.of_nil (h : s.calls = []) : s.Settled :=
  ⟨by simp [Served, h], by simp [Waits, h], by simp [h]⟩

theorem Served.evolves (h : s.Served) (he : Evolves gone s s') (hcalls : ∀ x ∈ s'.calls, x ∈ s.calls) :
    s'.Served := fun x hx => by
  rw [he.auth]
  exact he.fetches _ (h x (hcalls x hx))

/-- Once the service is closed, calls that wait for a token get none. -/
theorem Waits.evolves (h : s.Waits) (hs : s.Served) (hc : s.service.closed) (he : Evolves gone s s')
    (hcalls : ∀ x ∈ s'.calls, x ∈ s.calls) : s'.Waits := fun x hx hx' =>
  (he.since hc).tokenless _ (hs x (hcalls x hx)) (h x (hcalls x hx) hx')

/-! ## Calls go on -/

/-- Some calls go on. -/
structure CallsGoOn (gone : Client → Prop) (due : List WebCall) (s s' : Station) : Prop where
  evolves : Evolves gone s s'
  realm : s'.realm = s.realm
  calls : ∀ y ∈ s'.calls, y ∈ s.calls ∨ ∃ x ∈ due, y.fetch = x.fetch ∧ y.token ≠ none
  sent : (∀ x ∈ due, s.realm.Tokenless x.fetch) → s'.sent = s.sent

theorem realm_replyNow (s : Station) (client : Client) (result : Except Error OperationResult) :
    (s.replyNow client result).realm = s.realm := by
  cases client <;> rfl

theorem calls_replyNow (s : Station) (client : Client) (result : Except Error OperationResult) :
    (s.replyNow client result).calls = s.calls := by
  cases client <;> rfl

theorem sent_replyNow (s : Station) (client : Client) (result : Except Error OperationResult) :
    (s.replyNow client result).sent = s.sent := by
  cases client <;> rfl

namespace CallsGoOn

theorem refl (h : s.Proper) (due : List WebCall) : CallsGoOn gone due s s :=
  ⟨.refl h, rfl, fun _ hy => .inl hy, fun _ => rfl⟩

theorem trans {due due' : List WebCall} (h : CallsGoOn gone due s s') (h' : CallsGoOn gone due' s' s'') :
    CallsGoOn gone (due ++ due') s s'' := by
  refine ⟨h.evolves.trans h'.evolves, h'.realm.trans h.realm, fun y hy => ?_, fun hdue => ?_⟩
  · rcases h'.calls y hy with hy' | ⟨x, hx, hxy⟩
    · rcases h.calls y hy' with hy'' | ⟨x, hx, hxy⟩
      · exact .inl hy''
      · exact .inr ⟨x, List.mem_append_left _ hx, hxy⟩
    · exact .inr ⟨x, List.mem_append_right _ hx, hxy⟩
  · have hsent' := h'.sent fun x hx => by
      rw [h.realm]
      exact hdue x (List.mem_append_right _ hx)
    exact hsent'.trans (h.sent fun x hx => hdue x (List.mem_append_left _ hx))

theorem replyNow (h : s.Proper) (client : Client) (result : Except Error OperationResult)
    (due : List WebCall) : CallsGoOn gone due s (s.replyNow client result) :=
  ⟨.replyNow h client result, realm_replyNow .., fun y hy => .inl (by rwa [calls_replyNow] at hy),
    fun _ => sent_replyNow ..⟩

/-- **A call goes on.** Without a token it sends no request. -/
theorem goOn (h : s.Proper) (x : WebCall) : CallsGoOn gone [x] s (s.goOn x) := by
  unfold Station.goOn
  split
  swap
  · exact refl h _
  rename_i token hended
  unfold proceed
  split
  · exact replyNow h _ _ _
  rename_i request hsent
  refine ⟨.of_eq h rfl rfl rfl, rfl, fun y hy => ?_, fun hdue => ?_⟩
  · rcases List.mem_append.1 hy with hy | hy
    · exact .inl hy
    · obtain rfl := List.mem_singleton.1 hy
      exact .inr ⟨x, List.mem_singleton_self x, rfl, by simp⟩
  · -- a request was sent, so that the fetch had brought a token
    unfold ended? at hended
    split at hended
    swap
    · simp at hended
    rename_i ending hx hst
    obtain rfl := Option.some.inj hended
    obtain ⟨z, hz, hzs⟩ := Option.map_eq_some_iff.1 hst
    cases token with
    | ok token => exact absurd hzs (hdue x (List.mem_singleton_self x) z token hz)
    | error e => simp [WebCall.request?, WebCall.complete, RestTransport.complete, Except.bind] at hsent

theorem foldl (due : List WebCall) : ∀ {s : Station}, s.Proper →
    CallsGoOn gone due s (due.foldl Station.goOn s) := by
  induction due with
  | nil => exact fun h => refl h _
  | cons x xs ih =>
    intro s h
    have hfirst : CallsGoOn gone [x] s _ := goOn h x
    exact hfirst.trans (ih hfirst.evolves.proper)

end CallsGoOn

/-- **All calls go on whose fetch has ended.** -/
theorem advance_spec (h : s.Proper) : Evolves gone s s.advance ∧ s.advance.realm = s.realm ∧
    (s.Served → s.advance.Served) ∧ s.advance.Waits ∧ (s.Waits → s.advance.sent = s.sent) := by
  have hkept : Evolves gone s { s with calls := s.calls.filter fun x => (s.ended? x).isNone } :=
    .of_eq h rfl rfl rfl
  have hgo : CallsGoOn gone _ _ _ := .foldl (s.calls.filter fun x => (s.ended? x).isSome) hkept.proper
  have hcalls : ∀ y ∈ s.advance.calls, (y ∈ s.calls ∧ s.ended? y = none) ∨
      ∃ x ∈ s.calls, y.fetch = x.fetch ∧ y.token ≠ none := by
    intro y hy
    rcases hgo.calls y hy with hy' | ⟨x, hx, hxy⟩
    · exact .inl (by simpa using List.mem_filter.1 hy')
    · exact .inr ⟨x, (List.mem_filter.1 hx).1, hxy⟩
  have hrealm : s.advance.realm = s.realm := hgo.realm
  have hevolves : Evolves gone s s.advance := hkept.trans hgo.evolves
  refine ⟨hevolves, hrealm, fun hs y hy => ?_, fun y hy hnone => ?_, fun hw => ?_⟩
  · rw [hevolves.auth, hrealm]
    rcases hcalls y hy with ⟨hy', -⟩ | ⟨x, hx, hxy, -⟩
    · exact hs y hy'
    · rw [hxy]
      exact hs x hx
  · rw [hrealm]
    rcases hcalls y hy with ⟨-, hended⟩ | ⟨x, -, -, htoken⟩
    · intro z token hz hst
      have hstage : s.realm.stage? y.fetch = some (.ended (.returned (.ok token))) := by
        unfold AuthRealm.stage?
        rw [hz]
        exact congrArg some hst
      simp [ended?, hnone, hstage] at hended
    · exact absurd hnone htoken
  · refine hgo.sent fun x hx => ?_
    obtain ⟨hx, hended⟩ := List.mem_filter.1 hx
    refine hw x hx ?_
    unfold ended? at hended
    split at hended
    · assumption
    · simp at hended

/-! ## Calls are given up -/

/-- Fetches are abandoned. -/
theorem abort_foldl (fs : List FetchId) : ∀ {s : Station}, s.Proper →
    Evolves gone s (s.setRealm (fs.foldl AuthRealm.abort s.realm)) ∧
      ∀ f, s.realm.Tokenless f → (fs.foldl AuthRealm.abort s.realm).Tokenless f := by
  induction fs with
  | nil => exact fun h => ⟨.of_eq h rfl rfl rfl, fun _ ht => ht⟩
  | cons g gs ih =>
    intro s h
    have hfirst : Evolves gone s _ := .realm h (.abort g)
    obtain ⟨hrest, htokenless⟩ := ih hfirst.proper
    exact ⟨hfirst.trans hrest, fun f ht => htokenless f (ht.abort g)⟩

/-- **Calls that nobody waits for are given up.** -/
theorem tidy_spec (h : s.Proper) (hs : s.Served) (hw : s.Waits) :
    Evolves gone s s.tidy ∧ s.tidy.Settled ∧ s.tidy.sent = s.sent := by
  have habort : Evolves gone s _ ∧ _ :=
    abort_foldl ((s.calls.filter fun x => !s.service.isCalling x.order.client).map (·.fetch)) h
  have hcalls : ∀ x ∈ s.tidy.calls, x ∈ s.calls ∧ s.service.isCalling x.order.client := fun x hx =>
    List.mem_filter.1 hx
  have hevolves : Evolves gone s s.tidy := habort.1.trans (.of_eq habort.1.proper rfl rfl rfl)
  exact ⟨hevolves, ⟨hs.evolves hevolves fun x hx => (hcalls x hx).1,
    fun x hx hnone => habort.2 _ (hw x (hcalls x hx).1 hnone), fun x hx => (hcalls x hx).2⟩, rfl⟩

/-- **What follows for calls over the web.** No request is sent if all calls that wait for a token
have got none. -/
theorem settle_spec (h : s.Proper) (hs : s.Served) :
    Evolves gone s s.settle ∧ s.settle.Settled ∧ (s.Waits → s.settle.sent = s.sent) := by
  obtain ⟨hadvance, -, hserved, hwaits, hsent⟩ := advance_spec h
  obtain ⟨htidy, hsettled, hsent'⟩ := tidy_spec hadvance.proper (hserved hs) hwaits
  exact ⟨hadvance.trans htidy, hsettled, fun hw => hsent'.trans (hsent hw)⟩

/-! ## Calls begin -/

/-- A call begins. -/
theorem callWeb_spec (h : s.Proper) (hs : s.Served) {t : RestTransport}
    (ht : t.manager = s.service.auth) (order : Order) :
    Evolves gone s (callWeb t s order) ∧ (callWeb t s order).Served := by
  unfold callWeb
  split
  · have hreply : Evolves gone s _ := .replyNow h order.client (.error ‹_›)
    exact ⟨hreply, hs.evolves hreply fun x hx => by rwa [calls_replyNow] at hx⟩
  · have hfetch : Evolves gone s (s.setRealm (s.realm.fetch t.manager).1) :=
      .realm h (.fetch t.manager)
    refine ⟨hfetch.trans (.of_eq hfetch.proper rfl rfl rfl), fun x hx => ?_⟩
    rcases List.mem_append.1 hx with hx | hx
    · exact hfetch.fetches _ (hs x hx)
    · obtain rfl := List.mem_singleton.1 hx
      show (s.realm.fetch t.manager).1.Serves s.service.auth (s.realm.fetch t.manager).2
      rw [← ht]
      exact .fetch s.realm t.manager

theorem callWeb_foldl {t : RestTransport} (orders : List Order) : ∀ {s : Station}, s.Proper → s.Served →
    t.manager = s.service.auth →
    Evolves gone s (orders.foldl (callWeb t) s) ∧ (orders.foldl (callWeb t) s).Served := by
  induction orders with
  | nil => exact fun h hs _ => ⟨.refl h, hs⟩
  | cons o os ih =>
    intro s h hs ht
    obtain ⟨hfirst, hserved⟩ := callWeb_spec h hs ht o
    obtain ⟨hrest, hserved'⟩ := ih hfirst.proper hserved (ht.trans hfirst.auth.symm)
    exact ⟨hfirst.trans hrest, hserved'⟩

/-- **The calls begin that a service has made.** -/
theorem heed_spec (h : s.Proper) (hs : s.Served) (before : Service) :
    Evolves gone s (s.heed before) ∧ (s.heed before).Settled ∧
      (s.service.ordersSince before = [] → s.Waits → (s.heed before).sent = s.sent) := by
  unfold heed
  split
  · rename_i t ht
    obtain ⟨hcalls, hserved⟩ := callWeb_foldl (s.service.ordersSince before) h hs (h.transport t ht)
    obtain ⟨hsettle, hsettled, hsent⟩ := settle_spec hcalls.proper hserved
    refine ⟨hcalls.trans hsettle, hsettled, fun hnone hw => ?_⟩
    rw [hnone] at hsent ⊢
    exact hsent hw
  · obtain ⟨hsettle, hsettled, hsent⟩ := settle_spec h hs
    exact ⟨hsettle, hsettled, fun _ => hsent⟩

/-! ## A closed service makes no calls -/

theorem orders_eq (m : QueryManager) :
    m.orders = (m.journal.filter Note.isCall).filterMap Note.order? := by
  unfold QueryManager.orders
  rw [List.filterMap_filter]
  refine congrArg (m.journal.filterMap ·) (funext fun n => ?_)
  cases n <;> rfl

theorem orders_eq_mutations (m : MutationManager) :
    m.orders = (m.journal.filter MutationNote.isCall).filterMap MutationNote.order? := by
  unfold MutationManager.orders
  rw [List.filterMap_filter]
  refine congrArg (m.journal.filterMap ·) (funext fun n => ?_)
  cases n <;> rfl

/-- **What a closed service does calls the backend no more.** -/
theorem Since.orders (h : s.Proper) (hc : s.service.closed) (hs : Since gone s s') :
    s'.service.queries.orders = s.service.queries.orders ∧
      s'.service.mutations.orders = s.service.mutations.orders := by
  rw [orders_eq, orders_eq, orders_eq_mutations, orders_eq_mutations]
  exact ⟨congrArg _ hs.queries.quiet, congrArg _ (hs.mutations.quiet (h.closed hc).2.1)⟩

theorem Since.ordersSince (h : s.Proper) (hc : s.service.closed) (hs : Since gone s s') :
    s'.service.ordersSince s.service = [] := by
  obtain ⟨hq, hm⟩ := hs.orders h hc
  unfold Service.ordersSince
  rw [hq, hm]
  simp

/-! ## Events -/

/-- **A service in order, with its calls.** -/
structure InOrder (s : Station) : Prop where
  proper : s.Proper
  settled : s.Settled

/-- **What an event does.** A closed service sends no request. -/
structure Steps (gone : Client → Prop) (s s' : Station) : Prop where
  evolves : Evolves gone s s'
  settled : s'.Settled
  sent : s.service.closed → s'.sent = s.sent

namespace Steps

theorem refl (h : s.InOrder) : Steps gone s s := ⟨.refl h.proper, h.settled, fun _ => rfl⟩

/-- The calls go on after the service has. -/
theorem settle (h : s.InOrder) (he : Evolves gone s s') (hcalls : ∀ x ∈ s'.calls, x ∈ s.calls)
    (hsent : s'.sent = s.sent) : Steps gone s s'.settle := by
  obtain ⟨hevolves, hsettled, hquiet⟩ := settle_spec he.proper (h.settled.served.evolves he hcalls)
  refine ⟨he.trans hevolves, hsettled, fun hc => (hquiet ?_).trans hsent⟩
  -- of a closed service, the calls that waited for a token still do
  exact h.settled.waits.evolves h.settled.served hc he hcalls

/-- Calls begin after the service has gone on. -/
theorem heed (h : s.InOrder) (he : Evolves gone s s') (hcalls : s'.calls = s.calls)
    (hsent : s'.sent = s.sent) : Steps gone s (s'.heed s.service) := by
  have hsub : ∀ x ∈ s'.calls, x ∈ s.calls := fun x hx => by rwa [hcalls] at hx
  obtain ⟨hevolves, hsettled, hquiet⟩ :=
    heed_spec he.proper (h.settled.served.evolves he hsub) s.service
  -- a closed service has made no call that could begin, and no token came for those that wait
  refine ⟨he.trans hevolves, hsettled, fun hc => (hquiet ?_ ?_).trans hsent⟩
  · exact (he.since hc).ordersSince h.proper hc
  · exact h.settled.waits.evolves h.settled.served hc he hsub

theorem operate (h : s.InOrder) {result : Except Error Service}
    (hresult : ∀ x, result = .ok x → Evolves gone s (s.setService x)) :
    Steps gone s (s.operate result) := by
  cases result with
  | error e => exact refl h
  | ok x => exact heed h (hresult x rfl) rfl rfl

theorem respond (h : s.InOrder) (place : ℕ) (answer : HttpAnswer) :
    Steps gone s (s.respond place answer) := by
  unfold Station.respond
  split
  · exact refl h
  rename_i x hx
  split
  · exact refl h
  rename_i token htoken
  set call := x.complete token answer
  have herase : Evolves gone s { s with calls := s.calls.eraseIdx place } := .of_eq h.proper rfl rfl rfl
  have hsub : ∀ y ∈ s.calls.eraseIdx place, y ∈ s.calls := fun y hy => List.mem_of_mem_eraseIdx hy
  -- the answer reaches the client, whether the token was refused or not
  have hreply : ∀ {s₁ : Station}, Evolves gone s s₁ → (∀ y ∈ s₁.calls, y ∈ s.calls) →
      s₁.sent = s.sent → Steps gone s (s₁.replyNow x.order.client call.result).settle := by
    intro s₁ he hcalls hsent
    refine settle h (he.trans (.replyNow he.proper _ _)) (fun y hy => ?_) ?_
    · rw [calls_replyNow] at hy
      exact hcalls y hy
    · rw [sent_replyNow]
      exact hsent
  by_cases hr : call.refused
  · simp only [hr, if_true]
    exact hreply (herase.trans (.realm herase.proper _)) hsub rfl
  · simp only [hr]
    exact hreply herase hsub rfl

end Steps

/-- Who waits for the backend still does when the service is closed. -/
theorem isCalling_shut (x : Service) (client : Client) :
    x.shut.isCalling client = x.isCalling client := by
  cases client with
  | task id =>
    show x.queries.cancel.isCalling id = x.queries.isCalling id
    have hstage : ∀ i n, ((x.queries.cancel.executor? i).bind fun e => e.stage? n) =
        (x.queries.executor? i).bind fun e => e.stage? n := by
      intro i n
      rw [(queued_cancel x.queries).frame]
      simp only [QueryManager.executor?, List.getElem?_map]
      cases x.queries.lives[i]? <;> rfl
    unfold QueryManager.isCalling
    simp only [hstage]
    rw [(queued_cancel x.queries).frame]
  | execution id =>
    show x.mutations.cancel.isCalling id = x.mutations.isCalling id
    rw [(MutationManager.wakes_cancel x.mutations).frame]
    rfl

/-- Closing leaves the calls as they are. -/
theorem Steps.close (h : s.InOrder) : Steps gone s s.close := by
  cases hc : s.service.closed with
  | true => rw [close_of_closed hc]; exact .refl h
  | false =>
    have he : Evolves gone s s.close := .close h.proper
    -- the fetches stay as they are, so that no call has got a token by this
    refine ⟨he, ⟨h.settled.served.evolves he fun x hx => hx, fun x hx hnone => ?_, fun x hx => ?_⟩,
      fun _ => rfl⟩
    · intro y token hy
      rw [realm_close hc, (Keeps.close s.realm s.service.auth : Keeps [] _ _).fetches] at hy
      exact h.settled.waits x hx hnone y token hy
    · rw [service_close hc, isCalling_shut]
      exact h.settled.calling x hx

/-- Users close no live query. -/
theorem closes_of_isAllowed {ev : ManagerEvent} (h : ev.isAllowed) : ev.closes = false := by
  cases ev with
  | cancel => rfl
  | favour u => rfl
  | _ => simpa [ManagerEvent.isAllowed] using h

/-- **What an event does.** -/
theorem InOrder.steps (h : s.InOrder) (ev : ServiceEvent)
    (hgone : ∀ client, ev = .abandon client → gone client) : Steps gone s (s.next ev) := by
  cases ev with
  | useEmulator host port =>
    refine .operate h fun x hx => ?_
    obtain ⟨u, hs, hx⟩ := bind_eq_ok hx
    obtain rfl := Except.ok.inj hx
    exact .configure h.proper hs rfl rfl rfl rfl rfl
  | setGenerated generated =>
    refine .operate h fun x hx => ?_
    obtain ⟨u, hs, hx⟩ := bind_eq_ok hx
    obtain rfl := Except.ok.inj hx
    exact .configure h.proper hs rfl rfl rfl rfl rfl
  | prepare => exact .operate h fun x hx => .components h.proper hx
  | query operation vars =>
    refine .operate h fun x hx => ?_
    obtain ⟨y, hy, rfl⟩ := map_eq_ok hx
    exact .query h.proper hy
  | mutate operation vars =>
    refine .operate h fun x hx => ?_
    obtain ⟨y, hy, rfl⟩ := map_eq_ok hx
    exact .mutate h.proper hy
  | subscribe operation vars react =>
    refine .operate h fun x hx => ?_
    obtain ⟨y, hy, rfl⟩ := map_eq_ok hx
    exact .subscribe h.proper hy
  | queries ev =>
    simp only [Station.next]
    split
    · rename_i hev
      have hcloses := closes_of_isAllowed (Bool.and_eq_true_iff.1 hev).2
      refine .heed h (.lending h.proper ev hcloses fun id heq => hgone (.task id) ?_) rfl rfl
      rw [heq]
      rfl
    · exact .refl h
  | mutations ev =>
    simp only [Station.next]
    split
    · refine .heed h (.mutations h.proper ev fun id heq => hgone (.execution id) ?_) rfl rfl
      rw [heq]
      rfl
    · exact .refl h
  | auth ev => exact .settle h (.realm h.proper ev) (fun x hx => hx) rfl
  | respond place answer => exact .respond h place answer
  | close => exact .close h

theorem Steps.trans (h : Steps gone s s') (h' : Steps gone s' s'') : Steps gone s s'' :=
  ⟨h.evolves.trans h'.evolves, h'.settled, fun hc =>
    (h'.sent (h.evolves.since hc).closed).trans (h.sent hc)⟩

/-- **What a run does.** -/
theorem InOrder.run (es : List ServiceEvent) : ∀ {s : Station}, s.InOrder →
    (∀ client, .abandon client ∈ es → gone client) → Steps gone s (s.after es) := by
  induction es with
  | nil => exact fun h _ => .refl h
  | cons ev es ih =>
    intro s h hgone
    have hstep : Steps gone s (s.next ev) :=
      h.steps ev fun client heq => hgone client (by rw [heq]; exact List.mem_cons_self)
    exact hstep.trans (ih ⟨hstep.evolves.proper, hstep.settled⟩ fun client hmem =>
      hgone client (List.mem_cons_of_mem _ hmem))

end QueryClient.Station
