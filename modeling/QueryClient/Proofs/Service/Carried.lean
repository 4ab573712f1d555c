import QueryClient.Proofs.Manager.Origins
import QueryClient.Proofs.Service.Calls

/-!
# Calls over one transport

The calls that a service's managers make begin on its transport. While they go on, wait for their tokens
and are answered, the service gets replies and nothing else, and a reply makes nobody call again.

* `MutationManager.HasCalled`, `MutationManager.Noted`: executions that have called the backend.
* `Service.Alike`: what calls over the web leave of a service.
* `Service.Works`: what a service's managers do.
* `HttpRequest.IsFor`: the request that a transport sends for a call.
* `Station.Carried`: **all calls and all requests are over one transport.**
* `Station.Plies`: calls go on over it, with one lemma for each kind of work; `Station.Plies.heed`.
-/

namespace QueryClient

/-! ## Executions that have called -/

namespace MutationManager

variable {m m' : MutationManager} {id u : TaskId}

/-- The execution has called the backend, or has ended. -/
def HasCalled (m : MutationManager) (id : TaskId) : Prop :=
  ∃ x, m.executions[id]? = some x ∧ x.stage ≠ .arriving

/-- The executions whose calls are noted have called. -/
def Noted (m : MutationManager) : Prop :=
  ∀ id operation vars request, .called id operation vars request ∈ m.journal → m.HasCalled id

/-- **Nobody calls twice.** -/
theorem HasCalled.step (h : m.HasCalled u) (ev : MutationEvent) : (m.step ev).HasCalled u := by
  obtain ⟨x, hx, hst⟩ := h
  have hfollows : Follows (fun _ => True) m (m.step ev) := .step m fun _ _ => trivial
  obtain ⟨st, hx', hsteps⟩ := hfollows.own u x hx
  refine ⟨_, hx', ?_⟩
  -- no step leads back to an execution that arrives
  induction hsteps with
  | refl => exact hst
  | tail _ hstep _ => cases hstep <;> nofun

/-- What is noted when an execution goes on. -/
theorem journal_runExecution (m : MutationManager) (id : TaskId) :
    (∃ notes, (m.runExecution id).journal = m.journal ++ notes ∧ ∀ n ∈ notes, n.order? = none) ∨
    ∃ x request, m.executions[id]? = some x ∧ x.stage = .arriving ∧
      (m.runExecution id).journal = m.journal ++ [.called id x.operation x.vars request] ∧
      (m.runExecution id).HasCalled id := by
  have hsame : ∃ notes, m.journal = m.journal ++ notes ∧ ∀ n ∈ notes, n.order? = none :=
    ⟨[], (List.append_nil _).symm, nofun⟩
  have hfinish : ∀ ending, ∃ notes, (m.finish id ending).journal = m.journal ++ notes ∧
      ∀ n ∈ notes, n.order? = none := by
    refine fun ending => ⟨[.ended id ending], rfl, fun n hn => ?_⟩
    rw [List.mem_singleton.1 hn]
    rfl
  unfold runExecution
  split
  · exact .inl hsame
  rename_i x hx
  split
  · rename_i hst
    split
    · exact .inl (hfinish _)
    · refine .inr ⟨x, _, hx, hst, rfl, { x with stage := .calling m.supply.drawRequest.1 }, ?_, nofun⟩
      refine (getElem?_setStage _ id id _).trans ?_
      rw [show ({ m with supply := m.supply.drawRequest.2 } : MutationManager).executions = m.executions from rfl,
        hx, Option.map_some, if_pos rfl]
      rfl
  · split
    · exact .inl (hfinish _)
    · exact .inl hsame
  · split
    · exact .inl (hfinish _)
    · exact .inl (hfinish _)
  · exact .inl hsame

/-- What is noted stays noted, and the calls that an event adds are of executions that have called. -/
theorem journal_step (m : MutationManager) (ev : MutationEvent) :
    ∃ notes, (m.step ev).journal = m.journal ++ notes ∧ ∀ id operation vars request,
      .called id operation vars request ∈ notes → (m.step ev).HasCalled id := by
  have hsame : ∀ {m' : MutationManager}, m'.journal = m.journal → ∃ notes, m'.journal = m.journal ++ notes ∧
      ∀ id operation vars request, .called id operation vars request ∈ notes → m'.HasCalled id :=
    fun h => ⟨[], h.trans (List.append_nil _).symm, nofun⟩
  have hrun : ∀ {m₁ : MutationManager} (id : TaskId), m₁.journal = m.journal →
      ∃ notes, (m₁.runExecution id).journal = m.journal ++ notes ∧ ∀ u operation vars request,
        .called u operation vars request ∈ notes → (m₁.runExecution id).HasCalled u := by
    intro m₁ id hm₁
    rcases m₁.journal_runExecution id with ⟨notes, heq, hnotes⟩ | ⟨x, request, -, -, heq, hcalled⟩
    · refine ⟨notes, by rw [heq, hm₁], fun u operation vars request hn => ?_⟩
      exact nomatch hnotes _ hn
    · refine ⟨_, by rw [heq, hm₁], fun u operation vars request hn => ?_⟩
      obtain ⟨rfl, -⟩ := MutationNote.called.inj (List.mem_singleton.1 hn)
      exact hcalled
  have hreply : ∀ id reply, (m.setReply id reply).journal = m.journal := by
    intro id reply
    unfold setReply
    split <;> rfl
  cases ev with
  | drawn requests => exact hsame rfl
  | execute operation vars => exact hsame rfl
  | poll =>
    show ∃ notes, m.poll.journal = _ ∧ ∀ id operation vars request, _ → m.poll.HasCalled id
    unfold poll
    split
    · exact hsame rfl
    · exact hrun _ rfl
  | abort id =>
    show ∃ notes, (m.abort id).journal = _ ∧ ∀ u operation vars request, _ → (m.abort id).HasCalled u
    unfold abort
    split
    · exact hsame rfl
    · exact hsame rfl
    · exact ⟨[.ended id .dropped], rfl, fun u operation vars request hn => by simp at hn⟩
  | answer id reply =>
    have hwakes : Wakes (m.setReply id reply) (m.answer id reply) := .wakeExecution _ id
    refine hsame ?_
    rw [show m.step (.answer id reply) = m.answer id reply from rfl, hwakes.frame]
    exact hreply id reply
  | answerNow id reply => exact hrun id (hreply id reply)

theorem Noted.step (h : m.Noted) (ev : MutationEvent) : (m.step ev).Noted := by
  obtain ⟨notes, heq, hnotes⟩ := m.journal_step ev
  intro id operation vars request hn
  rw [heq] at hn
  rcases List.mem_append.1 hn with hn | hn
  · exact (h id operation vars request hn).step ev
  · exact hnotes id operation vars request hn

/-- **A reply makes nobody call** who has called already. -/
theorem HasCalled.orders_answerNow (h : m.HasCalled id) (reply : Reply) :
    (m.answerNow id reply).orders = m.orders := by
  have hreply : (m.setReply id reply).journal = m.journal := by
    unfold setReply
    split <;> rfl
  obtain ⟨y, hy, hst⟩ : (m.setReply id reply).HasCalled id := by
    obtain ⟨x, hx, hst⟩ := h
    unfold setReply
    split
    · rename_i request _
      refine ⟨{ x with stage := .answered request reply }, ?_, nofun⟩
      rw [getElem?_setStage, hx, Option.map_some, if_pos rfl]
    · exact ⟨x, hx, hst⟩
  -- only an execution that arrives calls
  unfold answerNow orders
  rcases (m.setReply id reply).journal_runExecution id with ⟨notes, heq, hnotes⟩ | ⟨x, request, hx, harriving, -⟩
  · rw [heq, hreply, List.filterMap_append, List.filterMap_eq_nil_iff.2 hnotes, List.append_nil]
  · obtain rfl := Option.some.inj (hy.symm.trans hx)
    exact absurd harriving hst

end MutationManager

/-- An answer to a task makes nobody call. -/
theorem QueryManager.orders_answerNow (m : QueryManager) (u : TaskId) (reply : Reply) :
    (m.answerNow u reply).orders = m.orders := by
  unfold QueryManager.orders
  rcases answer_eq m u reply with ⟨-, heq⟩ | ⟨id, n, e, -, -, -, heq⟩
  · rw [heq]
  · rw [heq, (Queued.wake _).frame]
    rfl

/-! ## What becomes of a service -/

namespace Service

variable {x y z : Service} {client : Client}

/-- The client has called the backend. -/
def HasCalled (x : Service) : Client → Prop
  | .task _ => True
  | .execution id => x.mutations.HasCalled id

/-- **What calls over the web leave of a service:** all but what becomes of its tasks and executions. -/
structure Alike (x y : Service) : Prop where
  options : y.options = x.options
  settings : y.settings = x.settings
  auth : y.auth = x.auth
  generated : y.generated = x.generated
  transport : y.transport = x.transport
  built : y.built = x.built
  closed : y.closed = x.closed
  queries : y.queries.orders = x.queries.orders
  mutations : y.mutations.orders = x.mutations.orders
  called : ∀ client, x.HasCalled client → y.HasCalled client

namespace Alike

theorem refl (x : Service) : Alike x x := ⟨rfl, rfl, rfl, rfl, rfl, rfl, rfl, rfl, rfl, fun _ h => h⟩

theorem trans (h : Alike x y) (h' : Alike y z) : Alike x z :=
  ⟨h'.options.trans h.options, h'.settings.trans h.settings, h'.auth.trans h.auth,
    h'.generated.trans h.generated, h'.transport.trans h.transport, h'.built.trans h.built,
    h'.closed.trans h.closed, h'.queries.trans h.queries, h'.mutations.trans h.mutations,
    fun client hc => h'.called client (h.called client hc)⟩

theorem orders (h : Alike x y) : y.orders = x.orders := by
  unfold Service.orders
  rw [h.queries, h.mutations]

theorem ordersSince (h : Alike x y) (before : Service) : y.ordersSince before = x.ordersSince before := by
  unfold Service.ordersSince
  rw [h.queries, h.mutations]

end Alike

/-- **What a service's managers do:** who has called has noted it, and no call is forgotten. -/
structure Works (x y : Service) : Prop where
  settings : y.settings = x.settings
  generated : y.generated = x.generated
  transport : y.transport = x.transport
  built : y.built = x.built
  orders : ∀ order ∈ x.orders, order ∈ y.orders
  noted : x.mutations.Noted → y.mutations.Noted

namespace Works

theorem refl (x : Service) : Works x x := ⟨rfl, rfl, rfl, rfl, fun _ h => h, fun h => h⟩

/-- Something happens to the queries. -/
theorem queries (x : Service) {l : Lending} (hl : l.Sound) (hx : l.manager = x.queries) (ev : ManagerEvent) :
    Works x { x with queries := (l.next ev).manager } := by
  refine ⟨rfl, rfl, rfl, rfl, fun order horder => ?_, fun h => h⟩
  have hkept := (Retains.after hl [ev]).journal
  rcases List.mem_append.1 horder with horder | horder
  · obtain ⟨n, hn, hno⟩ := List.mem_filterMap.1 horder
    rw [← hx] at hn
    exact List.mem_append_left _ (List.mem_filterMap.2 ⟨n, hkept n hn, hno⟩)
  · exact List.mem_append_right _ horder

/-- Something happens to the mutations. -/
theorem mutations (x : Service) (ev : MutationEvent) : Works x { x with mutations := x.mutations.step ev } := by
  refine ⟨rfl, rfl, rfl, rfl, fun order horder => ?_, fun h => h.step ev⟩
  obtain ⟨notes, heq, -⟩ := x.mutations.journal_step ev
  rcases List.mem_append.1 horder with horder | horder
  · exact List.mem_append_left _ horder
  · refine List.mem_append_right _ ?_
    unfold MutationManager.orders at horder ⊢
    rw [heq, List.filterMap_append]
    exact List.mem_append_left _ horder

end Works

/-- Who has called has noted it. -/
theorem hasCalled_of_noted (h : x.mutations.Noted) {order : Order} (horder : order ∈ x.orders) :
    x.HasCalled order.client := by
  rcases List.mem_append.1 horder with horder | horder
  · obtain ⟨n, -, hno⟩ := List.mem_filterMap.1 horder
    cases n with
    | called task spec request =>
      obtain rfl := Option.some.inj hno
      trivial
    | _ => exact nomatch hno
  · obtain ⟨n, hn, hno⟩ := List.mem_filterMap.1 horder
    cases n with
    | called id operation vars request =>
      obtain rfl := Option.some.inj hno
      exact h id operation vars request hn
    | ended => exact nomatch hno

theorem mem_orders_of_since {before : Service} {order : Order} (h : order ∈ x.ordersSince before) :
    order ∈ x.orders := by
  rcases List.mem_append.1 h with h | h
  · exact List.mem_append_left _ (List.mem_of_mem_drop h)
  · exact List.mem_append_right _ (List.mem_of_mem_drop h)

end Service

/-! ## Requests -/

/-- **The request that a transport sends for a call:** to its host, for the connector's operation, and
with its flavour. -/
structure HttpRequest.IsFor (r : HttpRequest) (t : RestTransport) (order : Order) : Prop where
  url : ∃ u, Web.Url.parse t.settings.sslEnabled ("//" ++ t.settings.authority ++ "/v1/" ++
      t.options.resourcePath ++ ":" ++ order.action.name).toList = .ok u ∧
    r.url = (t.options.apiKey.elim u (u.addPair "key")).anonymous
  flavour : ("x-goog-api-client", Rest.clientHeader t.generated) ∈ r.headers
  body : r.body = t.body order.operation order.vars

theorem RestTransport.request_isFor {t : RestTransport} {order : Order} {token : Option String}
    {r : HttpRequest} (h : t.request order.action order.operation order.vars token = .ok r) :
    r.IsFor t order := by
  obtain ⟨fixed, hfixed, h⟩ := Station.bind_eq_ok h
  obtain ⟨auth, -, h⟩ := Station.bind_eq_ok h
  obtain ⟨u, hu, h⟩ := Station.bind_eq_ok h
  simp only at h
  split at h
  swap
  · exact nomatch h
  obtain rfl := Except.ok.inj h
  refine ⟨?_, List.mem_append_left _ ?_, rfl⟩
  · unfold RestTransport.url at hu
    split at hu
    · exact nomatch hu
    · rename_i u' hparse
      exact ⟨u', hparse, by rw [← Except.ok.inj hu]⟩
  · obtain ⟨client, hclient, hfixed⟩ := Station.bind_eq_ok hfixed
    obtain ⟨params, -, hfixed⟩ := Station.bind_eq_ok hfixed
    obtain ⟨app, -, hfixed⟩ := Station.bind_eq_ok hfixed
    unfold Rest.header at hclient
    split at hclient
    swap
    · exact nomatch hclient
    rw [← Except.ok.inj hfixed, ← Except.ok.inj hclient]
    exact List.mem_cons_of_mem _ (List.mem_append_left _ (List.mem_append_left _ List.mem_cons_self))

theorem WebCall.isFor_of_request? {x : WebCall} {token : TokenOutcome} {r : HttpRequest}
    (h : x.request? token = some r) : r.IsFor x.transport x.order := by
  unfold WebCall.request? WebCall.complete RestTransport.complete at h
  split at h
  · exact nomatch h
  · rename_i request hrequest
    obtain rfl := Option.some.inj h
    cases token with
    | error e => exact nomatch hrequest
    | ok token => exact RestTransport.request_isFor hrequest

/-! ## Calls over the web -/

namespace Station

variable {s s' s'' : Station} {t : RestTransport} {os : List Order}

/-- **All calls and all requests are over one transport,** for calls of the backend that were made. -/
structure Carried (t : RestTransport) (os : List Order) (s : Station) : Prop where
  calls : ∀ x ∈ s.calls, x.transport = t ∧ x.order ∈ os
  sent : ∀ r ∈ s.sent, ∃ order ∈ os, r.IsFor t order
  called : ∀ order ∈ os, s.service.HasCalled order.client

/-- **Calls go on** over the transport. -/
structure Plies (t : RestTransport) (os : List Order) (s s' : Station) : Prop where
  alike : s.service.Alike s'.service
  carried : Carried t os s'

namespace Plies

theorem refl (h : Carried t os s) : Plies t os s s := ⟨.refl _, h⟩

theorem trans (h : Plies t os s s') (h' : Plies t os s' s'') : Plies t os s s'' :=
  ⟨h.alike.trans h'.alike, h'.carried⟩

/-- Nothing happens to the service. -/
theorem of_service (h : Carried t os s) (hservice : s'.service = s.service)
    (hcalls : ∀ x ∈ s'.calls, x ∈ s.calls ∨ x.transport = t ∧ x.order ∈ os)
    (hsent : ∀ r ∈ s'.sent, r ∈ s.sent ∨ ∃ order ∈ os, r.IsFor t order) : Plies t os s s' := by
  refine ⟨by rw [hservice]; exact .refl _, fun x hx => ?_, fun r hr => ?_, by rw [hservice]; exact h.called⟩
  · exact (hcalls x hx).elim (h.calls x) fun hnew => hnew
  · exact (hsent r hr).elim (h.sent r) fun hnew => hnew

/-- **A reply reaches the client,** who has called. -/
theorem replyNow (h : Carried t os s) {order : Order} (horder : order ∈ os)
    (result : Except Error OperationResult) : Plies t os s (s.replyNow order.client result) := by
  have halike : s.service.Alike (s.replyNow order.client result).service := by
    have hcalled := h.called order horder
    cases hclient : order.client with
    | task id =>
      rw [show s.replyNow (.task id) result =
        s.setLending (s.lending.next (.answerNow id (.returned result))) from rfl, service_setLending]
      exact ⟨rfl, rfl, rfl, rfl, rfl, rfl, rfl, QueryManager.orders_answerNow _ _ _, rfl, fun client hc => by
        cases client <;> exact hc⟩
    | execution id =>
      rw [hclient] at hcalled
      rw [show s.replyNow (.execution id) result =
        s.setMutations (s.service.mutations.step (.answerNow id (.returned result))) from rfl, service_setMutations]
      refine ⟨rfl, rfl, rfl, rfl, rfl, rfl, rfl, rfl, MutationManager.HasCalled.orders_answerNow hcalled _, ?_⟩
      intro client hc
      cases client with
      | task => trivial
      | execution u => exact MutationManager.HasCalled.step hc (.answerNow id (.returned result))
  refine ⟨halike, fun x hx => ?_, fun r hr => ?_, fun o ho => halike.called _ (h.called o ho)⟩
  · rw [calls_replyNow] at hx
    exact h.calls x hx
  · rw [sent_replyNow] at hr
    exact h.sent r hr

theorem foldl {α : Type} {op : Station → α → Station} {P : α → Prop}
    (hop : ∀ {s : Station}, Carried t os s → ∀ x, P x → Plies t os s (op s x)) (xs : List α) :
    ∀ {s : Station}, Carried t os s → (∀ x ∈ xs, P x) → Plies t os s (xs.foldl op s) := by
  induction xs with
  | nil => exact fun h _ => refl h
  | cons x xs ih =>
    intro s h hxs
    obtain ⟨hx, hxs⟩ := List.forall_mem_cons.1 hxs
    have hfirst := hop h x hx
    exact hfirst.trans (ih hfirst.carried hxs)

/-- A call begins. -/
theorem callWeb (h : Carried t os s) (order : Order) (horder : order ∈ os) :
    Plies t os s (callWeb t s order) := by
  unfold Station.callWeb
  split
  · exact replyNow h horder _
  · refine of_service h rfl (fun x hx => ?_) fun r hr => .inl hr
    rcases List.mem_append.1 hx with hx | hx
    · exact .inl hx
    · rw [List.mem_singleton.1 hx]
      exact .inr ⟨rfl, horder⟩

/-- A call goes on. -/
theorem goOn (h : Carried t os s) (x : WebCall) (hx : x.transport = t ∧ x.order ∈ os) :
    Plies t os s (s.goOn x) := by
  unfold Station.goOn
  split
  swap
  · exact refl h
  unfold Station.proceed
  split
  · exact replyNow h hx.2 _
  · rename_i request hrequest
    refine of_service h rfl (fun y hy => ?_) fun r hr => ?_
    · rcases List.mem_append.1 hy with hy | hy
      · exact .inl hy
      · rw [List.mem_singleton.1 hy]
        exact .inr hx
    · rcases List.mem_append.1 hr with hr | hr
      · exact .inl hr
      · rw [List.mem_singleton.1 hr, ← hx.1]
        exact .inr ⟨x.order, hx.2, WebCall.isFor_of_request? hrequest⟩

theorem settle (h : Carried t os s) : Plies t os s s.settle := by
  have hkept : Plies t os s { s with calls := s.calls.filter fun x => (s.ended? x).isNone } :=
    of_service h rfl (fun x hx => .inl (List.mem_filter.1 hx).1) fun r hr => .inl hr
  have hadvance : Plies t os s s.advance :=
    hkept.trans (foldl goOn _ hkept.carried fun x hx => h.calls x (List.mem_filter.1 hx).1)
  exact hadvance.trans (of_service hadvance.carried rfl (fun x hx => .inl (List.mem_filter.1 hx).1)
    fun r hr => .inl hr)

/-- **The calls begin that the service has made.** -/
theorem heed (h : Carried t os s) (ht : s.service.transport = some (.rest t)) {before : Service}
    (hos : ∀ order ∈ s.service.ordersSince before, order ∈ os) : Plies t os s (s.heed before) := by
  unfold Station.heed
  rw [ht]
  have hcalls := foldl callWeb _ h hos
  exact hcalls.trans (settle hcalls.carried)

/-- The web answers a call. -/
theorem respond (h : Carried t os s) (place : ℕ) (answer : HttpAnswer) :
    Plies t os s (s.respond place answer) := by
  unfold Station.respond
  split
  · exact refl h
  rename_i x hx
  split
  · exact refl h
  rename_i token _
  have horder := (h.calls x (List.mem_of_getElem? hx)).2
  have herase : Plies t os s { s with calls := s.calls.eraseIdx place } :=
    of_service h rfl (fun y hy => .inl (List.mem_of_mem_eraseIdx hy)) fun r hr => .inl hr
  have hreply : ∀ {s₁ : Station}, Plies t os s s₁ →
      Plies t os s (s₁.replyNow x.order.client (x.complete token answer).result).settle := by
    intro s₁ h₁
    have h₂ := h₁.trans (replyNow h₁.carried horder (x.complete token answer).result)
    exact h₂.trans (settle h₂.carried)
  simp only
  split
  · exact hreply (herase.trans (of_service herase.carried rfl (fun y hy => .inl hy) fun r hr => .inl hr))
  · exact hreply herase

end Plies

/-- A station without calls has nothing to settle. -/
theorem settle_of_nil (h : s.calls = []) :
    s.settle.service = s.service ∧ s.settle.calls = [] ∧ s.settle.sent = s.sent := by
  have hadvance : s.advance = { s with calls := [] } := by
    unfold advance
    simp [h]
  unfold settle
  rw [hadvance]
  exact ⟨rfl, rfl, rfl⟩

end Station

end QueryClient
