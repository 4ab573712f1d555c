import QueryClient.Proofs.Service.Carried
import QueryClient.Proofs.Service.Finality

/-!
# The first operation freezes the configuration

Where a service sends its calls, and as whom, can be changed until its managers are needed for the first
time. From then on all its calls go over the one transport that was built then, to the host and with the
flavour that had been set last.

* `Service.config`, `Service.accepts`, `Station.configured`: what has been set last.
* `ServiceEvent.needsManagers`: the operations.
* `Service.Sets`: what comes of changing a setting.
* `Station.Does`: **what an event does;** `Station.InOrder.does`.
* `Station.Unused`, `Station.On`: nobody has needed the managers, or all goes over one transport.
* `Station.Unused.next`, `Station.On.next`: **the step from one to the other,** and no step back.
* `Station.built_of_needs`: the first operation takes this step.
* `FoundedOnWeb`: the ways to make a service over the web.
* `Station.Configured`, `configuration_frozen`: **the configuration of a service,** in every run.
-/

namespace QueryClient

/-! ## What has been set -/

namespace Service

/-- What can be set: where the calls go, and whether the caller is generated code. -/
def config (x : Service) : Settings × Bool := (x.settings, x.generated)

/-- What is set after an event, if it was as given before: a call that succeeds sets what it says. -/
def accepts (x : Service) (c : Settings × Bool) : ServiceEvent → Settings × Bool
  | .useEmulator host port => if (x.useEmulator host port).isOk then (.emulator host port, c.2) else c
  | .setGenerated generated => if (x.setGenerated generated).isOk then (c.1, generated) else c
  | _ => c

end Service

/-- The event is an operation that needs the managers: its variables, if there are any, can be encoded. -/
def ServiceEvent.needsManagers : ServiceEvent → Bool
  | .prepare => true
  | .query _ vars | .mutate _ vars | .subscribe _ vars _ => vars.isOk
  | _ => false

/-- **What has been set last** with success in a run, if it was as given before. -/
def Station.configured (s : Station) (c : Settings × Bool) : List ServiceEvent → Settings × Bool
  | [] => c
  | ev :: es => (s.next ev).configured (s.service.accepts c ev) es

namespace Service

variable {x y : Service}

/-- **What comes of changing a setting:** the call succeeds if the service is open and nobody has needed its
managers, and is refused otherwise. -/
def Sets (x y : Service) (result : Except Error Service) : Prop :=
  result = .ok y ∧ x.closed = false ∧ x.built = false ∨
    (∃ e, result = .error e) ∧ ¬ (x.closed = false ∧ x.built = false)

theorem Sets.isOk_iff {result : Except Error Service} (h : Sets x y result) :
    result.isOk ↔ x.closed = false ∧ x.built = false := by
  rcases h with ⟨rfl, hopen⟩ | ⟨⟨e, rfl⟩, hnot⟩
  · simpa [Except.isOk, Except.toBool] using hopen
  · simpa [Except.isOk, Except.toBool] using hnot

theorem sets_ensureConfigurable (x y : Service) (operation : String) :
    Sets x y (x.ensureConfigurable operation >>= fun _ => .ok y) := by
  unfold Sets ensureConfigurable
  cases x.closed with
  | true => exact .inr ⟨⟨_, rfl⟩, by simp⟩
  | false =>
    cases x.built with
    | true => exact .inr ⟨⟨_, rfl⟩, by simp⟩
    | false => exact .inl ⟨rfl, rfl, rfl⟩

theorem sets_useEmulator (x : Service) (host : Option String) (port : Option UInt16) :
    Sets x { x with settings := .emulator host port } (x.useEmulator host port) :=
  x.sets_ensureConfigurable _ "use_emulator()"

theorem sets_setGenerated (x : Service) (generated : Bool) :
    Sets x { x with generated } (x.setGenerated generated) :=
  x.sets_ensureConfigurable _ "set_caller_sdk_type()"

/-- The managers that were built are there. -/
theorem components_of_built (h : x.components = .ok y) (hbuilt : x.built = true) : y = x := by
  unfold components at h
  split at h
  · exact nomatch h
  · exact (Except.ok.inj h).symm

/-- **The managers are built** if the service is open. -/
theorem components_of_unbuilt (h : x.components = .ok y) (hbuilt : x.built = false) : x.closed = false ∧
    y = { x with built := true, transport := some (x.transport.getD (.rest x.ownTransport)) } := by
  unfold components at h
  split at h
  · exact nomatch h
  rename_i hclosed
  rw [if_neg (by simp [hbuilt])] at h
  exact ⟨by simpa using hclosed, (Except.ok.inj h).symm⟩

/-- Only a closed service refuses its managers. -/
theorem closed_of_components {e : Error} (h : x.components = .error e) : x.closed = true := by
  unfold components at h
  split at h
  · assumption
  · split at h <;> exact nomatch h

theorem queries_of_components (h : x.components = .ok y) : y.queries = x.queries := by
  cases hbuilt : x.built with
  | true => rw [components_of_built h hbuilt]
  | false => rw [(components_of_unbuilt h hbuilt).2]

/-- What is noted of those who have called. -/
theorem noted_of_hasCalled (h : ∀ order ∈ x.orders, x.HasCalled order.client) : x.mutations.Noted :=
  fun id operation vars _ hn =>
    h ⟨.execution id, .mutation, operation, vars⟩
      (List.mem_append_right _ (List.mem_filterMap.2 ⟨_, hn, rfl⟩))

end Service

namespace Station

variable {s s' s₁ : Station} {t : RestTransport} {ev : ServiceEvent} {x z : Service}

/-! ## What an event does -/

/-- **What an event does to a service:** it sets something, has the managers work, or concerns calls that
go on, or the service is closed. -/
inductive Does (s : Station) : ServiceEvent → Station → Prop where
  | nothing {ev : ServiceEvent} (hev : s.service.accepts s.service.config ev = s.service.config)
      (hneeds : s.service.closed = true ∨ ev.needsManagers = false) : Does s ev s
  | configures {ev : ServiceEvent} (hopen : s.service.closed = false) (hunbuilt : s.service.built = false)
      {settings : Settings} {generated : Bool}
      (hev : s.service.accepts s.service.config ev = (settings, generated))
      (hneeds : ev.needsManagers = false) :
      Does s ev ((s.setService { s.service with settings, generated }).heed s.service)
  | works {ev : ServiceEvent} {z : Service} {s₁ : Station}
      (hev : s.service.accepts s.service.config ev = s.service.config)
      (hz : s.service.components = .ok z ∨ s.service.built = true ∧ z = s.service)
      (hworks : z.Works s₁.service) (hcalls : s₁.calls = s.calls) (hsent : s₁.sent = s.sent)
      (hrealm : s₁.realm = s.realm) : Does s ev (s₁.heed s.service)
  | tokens (ev : AuthEvent) : Does s (.auth ev) (s.setRealm (s.realm.step ev)).settle
  | answers (place : ℕ) (answer : HttpAnswer) : Does s (.respond place answer) (s.respond place answer)
  | closes : Does s .close s.close

/-- A call that changes a setting. -/
theorem Does.sets {settings : Settings} {generated : Bool} {result : Except Error Service}
    (h : s.service.Sets { s.service with settings, generated } result)
    (hev : s.service.accepts s.service.config ev =
      if result.isOk then (settings, generated) else s.service.config)
    (hneeds : ev.needsManagers = false) : Does s ev (s.operate result) := by
  rcases h with ⟨rfl, hopen, hunbuilt⟩ | ⟨⟨e, rfl⟩, -⟩
  · exact .configures hopen hunbuilt hev hneeds
  · exact .nothing hev (.inr hneeds)

/-- An operation with its variables. -/
theorem Does.managed {vars : Except Error Struct} {f : Struct → Service → Service × TaskId}
    (hev : s.service.accepts s.service.config ev = s.service.config) (hneeds : ev.needsManagers = vars.isOk)
    (hf : ∀ (v : Struct) (z : Service), z.queries = s.service.queries → z.Works (f v z).1) :
    Does s ev (s.operate ((vars >>= fun v => s.service.components >>= fun z => pure (f v z)).map Prod.fst)) := by
  cases vars with
  | error e => exact .nothing hev (.inr hneeds)
  | ok v =>
    cases hz : s.service.components with
    | error e => exact .nothing hev (.inl (Service.closed_of_components hz))
    | ok z =>
      refine .works hev (.inl hz) ?_ rfl rfl rfl
      rw [service_setService]
      exact hf v z (Service.queries_of_components hz)

/-- **What every event does.** -/
theorem InOrder.does (hs : s.InOrder) (ev : ServiceEvent) : Does s ev (s.next ev) := by
  have hlending : ∀ z : Service, z.queries = s.service.queries →
      (⟨z.queries, s.held, []⟩ : Lending).Sound := fun z hz => by
    rw [hz]
    exact ⟨hs.proper.queries.ok, hs.proper.queries.coherent, hs.proper.queries.orderly.leases.books⟩
  cases ev with
  | useEmulator host port => exact .sets (s.service.sets_useEmulator host port) rfl rfl
  | setGenerated generated => exact .sets (s.service.sets_setGenerated generated) rfl rfl
  | prepare =>
    show Does s _ (s.operate s.service.components)
    cases hz : s.service.components with
    | error e => exact .nothing rfl (.inl (Service.closed_of_components hz))
    | ok z =>
      refine .works rfl (.inl hz) ?_ rfl rfl rfl
      rw [service_setService]
      exact .refl z
  | query operation vars =>
    exact .managed rfl rfl fun v z hz => .queries z (hlending z hz) rfl (.ask (.leased ⟨operation, v⟩) {})
  | mutate operation vars => exact .managed rfl rfl fun v z _ => .mutations z (.execute operation v)
  | subscribe operation vars react =>
    exact .managed rfl rfl fun v z hz => .queries z (hlending z hz) rfl (.subscribe ⟨operation, v⟩ true react)
  | queries ev =>
    simp only [next]
    split
    · rename_i hbuilt
      refine .works rfl (.inr ⟨(Bool.and_eq_true_iff.1 hbuilt).1, rfl⟩) ?_ rfl rfl rfl
      rw [service_setLending]
      exact .queries s.service (hlending _ rfl) rfl ev
    · exact .nothing rfl (.inr rfl)
  | mutations ev =>
    simp only [next]
    split
    · refine .works rfl (.inr ⟨‹_›, rfl⟩) ?_ rfl rfl rfl
      rw [service_setMutations]
      exact .mutations s.service ev
    · exact .nothing rfl (.inr rfl)
  | auth ev => exact .tokens ev
  | respond place answer => exact .answers place answer
  | close => exact .closes

/-! ## Two phases -/

/-- **Nobody has needed the managers:** there is no transport, and nobody has called. -/
structure Unused (s : Station) : Prop where
  built : s.service.built = false
  transport : s.service.transport = none
  orders : s.service.orders = []
  calls : s.calls = []
  sent : s.sent = []

/-- **All goes over one transport,** which is configured as the service is. -/
structure On (t : RestTransport) (s : Station) : Prop where
  built : s.service.built = true
  transport : s.service.transport = some (.rest t)
  settings : s.service.settings = t.settings
  generated : s.service.generated = t.generated
  carried : Carried t s.service.orders s

namespace On

theorem config (h : On t s) : s.service.config = (t.settings, t.generated) := Prod.ext h.settings h.generated

theorem plies (h : On t s) (hp : Plies t s.service.orders s s') : On t s' :=
  ⟨hp.alike.built.trans h.built, hp.alike.transport.trans h.transport, hp.alike.settings.trans h.settings,
    hp.alike.generated.trans h.generated, by rw [hp.alike.orders]; exact hp.carried⟩

theorem heed_plies (h : On t s) (before : Service) : Plies t s.service.orders s (s.heed before) :=
  .heed h.carried h.transport fun _ horder => Service.mem_orders_of_since horder

/-- Something happens to the tokens. -/
theorem tokens_plies (h : On t s) (r : AuthRealm) : Plies t s.service.orders s (s.setRealm r).settle := by
  have hrealm : Plies t s.service.orders s (s.setRealm r) :=
    .of_service h.carried rfl (fun y hy => .inl hy) fun r hr => .inl hr
  exact hrealm.trans (.settle hrealm.carried)

/-- The managers are there. -/
theorem managers (h : On t s) (hz : s.service.components = .ok z ∨ s.service.built = true ∧ z = s.service) :
    z = s.service :=
  hz.elim (fun hz => Service.components_of_built hz h.built) And.right

/-- The managers work. -/
theorem works (h : On t s) (hworks : s.service.Works s₁.service) (hcalls : s₁.calls = s.calls)
    (hsent : s₁.sent = s.sent) : On t s₁ := by
  refine ⟨hworks.built.trans h.built, hworks.transport.trans h.transport, hworks.settings.trans h.settings,
    hworks.generated.trans h.generated, fun y hy => ?_, fun r hr => ?_, fun order horder => ?_⟩
  · rw [hcalls] at hy
    exact (h.carried.calls y hy).imp_right (hworks.orders _)
  · rw [hsent] at hr
    obtain ⟨order, horder, hfor⟩ := h.carried.sent r hr
    exact ⟨order, hworks.orders _ horder, hfor⟩
  · exact Service.hasCalled_of_noted (hworks.noted (Service.noted_of_hasCalled h.carried.called)) horder

/-- The service is closed, and its calls are still over the transport. -/
theorem close (h : On t s) : On t s.close := by
  have hfields : s.close.service.built = s.service.built ∧ s.close.service.transport = s.service.transport ∧
      s.close.service.settings = s.service.settings ∧ s.close.service.generated = s.service.generated := by
    rcases s.close_cases with heq | ⟨-, heq⟩ <;> rw [heq] <;> exact ⟨rfl, rfl, rfl, rfl⟩
  obtain ⟨hbuilt, htransport, hsettings, hgenerated⟩ := hfields
  refine ⟨hbuilt.trans h.built, htransport.trans h.transport, hsettings.trans h.settings,
    hgenerated.trans h.generated, ?_⟩
  rw [orders_close]
  refine ⟨h.carried.calls, h.carried.sent, fun order horder => ?_⟩
  have hcalled := h.carried.called order horder
  cases hclient : order.client with
  | task => trivial
  | execution id =>
    rw [hclient] at hcalled
    obtain ⟨e, he, hst⟩ := hcalled
    exact ⟨e, by rw [executions_close]; exact he, hst⟩

/-- **No event changes the transport,** or what is set. -/
theorem next (h : On t s) (hs : s.InOrder) (ev : ServiceEvent) :
    On t (s.next ev) ∧ (s.next ev).service.config = s.service.accepts s.service.config ev := by
  have hdoes := hs.does ev
  -- what is set is kept, so that it is enough that the event sets nothing
  suffices hsuffices : On t (s.next ev) ∧ s.service.accepts s.service.config ev = s.service.config by
    rw [hsuffices.2, hsuffices.1.config, h.config]
    exact ⟨hsuffices.1, rfl⟩
  generalize s.next ev = s' at hdoes ⊢
  cases hdoes with
  | nothing hev => exact ⟨h, hev⟩
  | configures _ hunbuilt =>
    simp [h.built] at hunbuilt
  | @works _ z s₁ hev hz hworks hcalls hsent _ =>
    obtain rfl := h.managers hz
    have h₁ : On t s₁ := h.works hworks hcalls hsent
    exact ⟨h₁.plies (h₁.heed_plies _), hev⟩
  | tokens ev => exact ⟨h.plies (h.tokens_plies _), rfl⟩
  | answers place answer => exact ⟨h.plies (.respond h.carried place answer), rfl⟩
  | closes => exact ⟨h.close, rfl⟩

end On

namespace Unused

/-- **The managers are needed for the first time.** -/
theorem starts (h : Unused s) (hz : s.service.components = .ok z ∨ s.service.built = true ∧ z = s.service)
    (hworks : z.Works s₁.service) (hcalls : s₁.calls = s.calls) (hsent : s₁.sent = s.sent) :
    s.service.closed = false ∧ On s.service.ownTransport s₁ := by
  obtain ⟨hopen, rfl⟩ := hz.elim (fun hz => Service.components_of_unbuilt hz h.built) fun hbuilt => by
    simp [h.built] at hbuilt
  have htransport : s₁.service.transport = some (.rest s.service.ownTransport) := by
    rw [hworks.transport, h.transport]
    rfl
  -- nobody has called before, so that nothing went another way
  refine ⟨hopen, hworks.built, htransport, hworks.settings, hworks.generated, fun y hy => ?_, fun r hr => ?_,
    fun order horder => ?_⟩
  · rw [hcalls, h.calls] at hy
    exact nomatch hy
  · rw [hsent, h.sent] at hr
    exact nomatch hr
  · refine Service.hasCalled_of_noted (hworks.noted (Service.noted_of_hasCalled fun o ho => ?_)) horder
    have ho : o ∈ s.service.orders := ho
    rw [h.orders] at ho
    exact nomatch ho

/-- Nothing is to be settled. -/
theorem settle (h : Unused s) : Unused s.settle ∧ s.settle.service = s.service := by
  obtain ⟨hservice, hcalls, hsent⟩ := settle_of_nil h.calls
  refine ⟨⟨?_, ?_, ?_, hcalls, hsent.trans h.sent⟩, hservice⟩ <;> rw [hservice]
  · exact h.built
  · exact h.transport
  · exact h.orders

/-- Something happens to the tokens. -/
theorem tokens (h : Unused s) (r : AuthRealm) :
    Unused (s.setRealm r).settle ∧ (s.setRealm r).settle.service = s.service := by
  have hrealm : Unused (s.setRealm r) := ⟨h.built, h.transport, h.orders, h.calls, h.sent⟩
  exact hrealm.settle

/-- **A setting is changed.** -/
theorem configures (h : Unused s) (settings : Settings) (generated : Bool) :
    Unused ((s.setService { s.service with settings, generated }).heed s.service) ∧
      ((s.setService { s.service with settings, generated }).heed s.service).service =
        { s.service with settings, generated } := by
  have hset : Unused (s.setService { s.service with settings, generated }) := by
    refine ⟨?_, ?_, ?_, h.calls, h.sent⟩ <;> rw [service_setService]
    · exact h.built
    · exact h.transport
    · exact h.orders
  have hheed : (s.setService { s.service with settings, generated }).heed s.service =
      (s.setService { s.service with settings, generated }).settle := by
    unfold heed
    rw [hset.transport]
  rw [hheed]
  exact ⟨hset.settle.1, hset.settle.2.trans (service_setService s _)⟩

theorem close (h : Unused s) : Unused s.close ∧ s.close.service.config = s.service.config := by
  have hfields : s.close.service.built = s.service.built ∧ s.close.service.transport = s.service.transport ∧
      s.close.service.config = s.service.config := by
    rcases s.close_cases with heq | ⟨-, heq⟩ <;> rw [heq] <;> exact ⟨rfl, rfl, rfl⟩
  obtain ⟨hbuilt, htransport, hconfig⟩ := hfields
  exact ⟨⟨hbuilt.trans h.built, htransport.trans h.transport, s.orders_close.trans h.orders, h.calls, h.sent⟩,
    hconfig⟩

theorem respond (h : Unused s) (place : ℕ) (answer : HttpAnswer) : s.respond place answer = s := by
  unfold Station.respond
  rw [h.calls]
  rfl

/-- **Settings change until the managers are needed** by an operation of an open service, which builds a
transport of what is set. -/
theorem next (h : Unused s) (hs : s.InOrder) (ev : ServiceEvent) :
    (Unused (s.next ev) ∨ s.service.closed = false ∧ On s.service.ownTransport (s.next ev)) ∧
      (s.next ev).service.config = s.service.accepts s.service.config ev := by
  have hdoes := hs.does ev
  generalize s.next ev = s' at hdoes ⊢
  cases hdoes with
  | nothing hev => exact ⟨.inl h, hev.symm⟩
  | @configures _ _ _ settings generated hev _ =>
    obtain ⟨hunused, hservice⟩ := h.configures settings generated
    exact ⟨.inl hunused, by rw [hservice, hev]; rfl⟩
  | works hev hz hworks hcalls hsent _ =>
    obtain ⟨hopen, hon⟩ := h.starts hz hworks hcalls hsent
    have hheed := hon.plies (hon.heed_plies s.service)
    exact ⟨.inr ⟨hopen, hheed⟩, by rw [hev, hheed.config]; rfl⟩
  | tokens ev =>
    obtain ⟨hunused, hservice⟩ := h.tokens (s.realm.step ev)
    exact ⟨.inl hunused, by rw [hservice]; rfl⟩
  | answers place answer =>
    rw [h.respond]
    exact ⟨.inl h, rfl⟩
  | closes => exact ⟨.inl h.close.1, h.close.2⟩

end Unused

/-- **An operation of an open service builds the managers,** unless they are there. -/
theorem built_of_needs (hs : s.InOrder) (h : Unused s ∨ ∃ t, On t s) (hopen : s.service.closed = false)
    (hneeds : ev.needsManagers) : (s.next ev).service.built = true := by
  rcases h with h | ⟨t, h⟩
  swap
  · exact (h.next hs ev).1.built
  have hdoes := hs.does ev
  generalize s.next ev = s' at hdoes ⊢
  cases hdoes with
  | nothing _ hnot => simp [hopen, hneeds] at hnot
  | configures _ _ _ hnot => simp [hneeds] at hnot
  | works _ hz hworks hcalls hsent _ =>
    have hon := (h.starts hz hworks hcalls hsent).2
    exact (hon.plies (hon.heed_plies s.service)).built
  | tokens | answers | closes => exact nomatch hneeds

/-! ## Where calls begin -/

/-- **The calls of the backend that an event has made begin over the transport,** all of them. -/
def CallsBegin (t : RestTransport) (s s' : Station) : Prop :=
  ∃ s₁ : Station, s₁.calls = s.calls ∧ s₁.sent = s.sent ∧ s₁.realm = s.realm ∧
    s' = ((s'.service.ordersSince s.service).foldl (callWeb t) s₁).settle

/-- The managers have worked, and the calls that they have made begin. -/
theorem On.begins (h : On t s₁) (hcalls : s₁.calls = s.calls) (hsent : s₁.sent = s.sent)
    (hrealm : s₁.realm = s.realm) : CallsBegin t s (s₁.heed s.service) := by
  refine ⟨s₁, hcalls, hsent, hrealm, ?_⟩
  rw [(h.heed_plies s.service).alike.ordersSince]
  unfold heed
  rw [h.transport]

/-- **No call of the backend is made otherwise.** -/
theorem begins_of_orders (hs : s.InOrder) (h : Unused s ∨ ∃ t, On t s) (ev : ServiceEvent)
    (horders : (s.next ev).service.orders ≠ s.service.orders) :
    ∃ t, (s.next ev).service.transport = some (.rest t) ∧ CallsBegin t s (s.next ev) := by
  have hdoes := hs.does ev
  generalize s.next ev = s' at hdoes horders ⊢
  have hquiet : ∀ {s' : Station}, s'.service.orders ≠ s.service.orders → Unused s' → Unused s → False :=
    fun hne h' h => hne (h'.orders.trans h.orders.symm)
  -- only the managers' work adds calls
  cases hdoes with
  | nothing => exact absurd rfl horders
  | @configures _ _ hunbuilt settings generated hev _ =>
    rcases h with h | ⟨t, h⟩
    · exact (hquiet horders (h.configures settings generated).1 h).elim
    · simp [h.built] at hunbuilt
  | @works _ z s₁ hev hz hworks hcalls hsent hrealm =>
    obtain ⟨t, hon⟩ : ∃ t, On t s₁ := by
      rcases h with h | ⟨t, h⟩
      · exact ⟨_, (h.starts hz hworks hcalls hsent).2⟩
      · obtain rfl := h.managers hz
        exact ⟨t, h.works hworks hcalls hsent⟩
    exact ⟨t, (hon.plies (hon.heed_plies s.service)).transport, hon.begins hcalls hsent hrealm⟩
  | tokens ev =>
    rcases h with h | ⟨t, h⟩
    · exact (hquiet horders (h.tokens _).1 h).elim
    · exact absurd (h.tokens_plies _).alike.orders horders
  | answers place answer =>
    rcases h with h | ⟨t, h⟩
    · rw [h.respond] at horders
      exact absurd rfl horders
    · exact absurd (Plies.respond h.carried place answer).alike.orders horders
  | closes => exact absurd s.orders_close horders

/-! ## Runs -/

theorem after_concat (s : Station) (es : List ServiceEvent) (ev : ServiceEvent) :
    s.after (es ++ [ev]) = (s.after es).next ev := List.foldl_concat ..

theorem after_append (s : Station) (es more : List ServiceEvent) :
    s.after (es ++ more) = (s.after es).after more := List.foldl_append ..

theorem configured_concat (s : Station) (c : Settings × Bool) (es : List ServiceEvent) (ev : ServiceEvent) :
    s.configured c (es ++ [ev]) = (s.after es).service.accepts (s.configured c es) ev := by
  induction es generalizing s c with
  | nil => rfl
  | cons first es ih => exact ih (s.next first) (s.service.accepts c first)

theorem InOrder.after (h : s.InOrder) (es : List ServiceEvent) : (s.after es).InOrder := by
  have hrun : Steps (fun _ => True) s (s.after es) := h.run es fun _ _ => trivial
  exact ⟨hrun.evolves.proper, hrun.settled⟩

/-- **The transport stays.** -/
theorem On.after (h : On t s) (hs : s.InOrder) (es : List ServiceEvent) : On t (s.after es) := by
  induction es using List.reverseRecOn with
  | nil => exact h
  | append_singleton es ev ih =>
    rw [after_concat]
    exact (ih.next (hs.after es) ev).1

/-- **The phases of a run:** nobody has needed the managers, or somebody was the first to need them. -/
theorem Unused.after (h : Unused s) (hs : s.InOrder) (es : List ServiceEvent) : Unused (s.after es) ∨
    ∃ earlier ev later, es = earlier ++ ev :: later ∧ Unused (s.after earlier) ∧
      ∃ t, On t (s.after (earlier ++ [ev])) := by
  induction es using List.reverseRecOn with
  | nil => exact .inl h
  | append_singleton es ev ih =>
    -- the last event is the first that needs them, or it was one of those before
    rcases ih with hunused | ⟨earlier, first, later, rfl, hunused, hon⟩
    · rcases (hunused.next (hs.after es) ev).1 with hstill | ⟨-, hon⟩
      · exact .inl (by rwa [after_concat])
      · exact .inr ⟨es, ev, [], rfl, hunused, _, by rwa [after_concat]⟩
    · exact .inr ⟨earlier, first, later ++ [ev], by simp, hunused, hon⟩

/-- The phase at the end. -/
theorem Unused.phase (h : Unused s) (hs : s.InOrder) (es : List ServiceEvent) :
    Unused (s.after es) ∨ ∃ t, On t (s.after es) := by
  rcases h.after hs es with hunused | ⟨earlier, ev, later, rfl, -, t, hon⟩
  · exact .inl hunused
  · refine .inr ⟨t, ?_⟩
    rw [List.append_cons, after_append]
    exact hon.after (hs.after _) later

/-- **What is set** is what was set last with success. -/
theorem Unused.config_after (h : Unused s) (hs : s.InOrder) (es : List ServiceEvent) :
    (s.after es).service.config = s.configured s.service.config es := by
  induction es using List.reverseRecOn with
  | nil => rfl
  | append_singleton es ev ih =>
    rw [after_concat, configured_concat, ← ih]
    rcases h.phase hs es with hunused | ⟨t, hon⟩
    · exact (hunused.next (hs.after es) ev).2
    · exact (hon.next (hs.after es) ev).2

/-- **The first need:** the managers are built by an event of a service that is open, on the transport of what
is set. -/
theorem Unused.first (h : Unused s) (hs : s.InOrder) {earlier : List ServiceEvent} {ev : ServiceEvent}
    (hbefore : (s.after earlier).service.built = false)
    (hbuilt : (s.after (earlier ++ [ev])).service.built = true) :
    (s.after earlier).service.closed = false ∧
      On (s.after earlier).service.ownTransport (s.after (earlier ++ [ev])) := by
  rw [after_concat] at hbuilt ⊢
  rcases h.phase hs earlier with hunused | ⟨t, hon⟩
  · rcases (hunused.next (hs.after earlier) ev).1 with hstill | hfirst
    · simp [hstill.built] at hbuilt
    · exact hfirst
  · simp [hon.built] at hbefore

end Station

/-! ## Services over the web -/

variable {d : Directory} {id : ServiceId}

/-- **The ways to make a service over the web:** with the tokens of a manager that is there, or for options
that no service is remembered for. -/
inductive FoundedOnWeb : Directory → ServiceId → Prop where
  | made (d : Directory) (options : Options) (settings : Settings) {auth : AuthId}
      (h : auth < d.realm.managers.length) :
      FoundedOnWeb (d.addWeb options settings auth).1 (d.addWeb options settings auth).2
  | obtained {d d' : Directory} {options : Options} {requested : Option Settings}
      {environment : Option (List Char)} {id : ServiceId} (hnew : d.find? options.serviceKey = none)
      (h : d.obtain options requested environment = .ok (d', id)) : FoundedOnWeb d' id

namespace FoundedOnWeb

theorem founded (h : FoundedOnWeb d id) : Founded d id := by
  cases h with
  | made d options settings hauth => exact .web d options settings hauth
  | obtained hnew hobtain => exact .obtained hnew hobtain

/-- Nothing is built yet. -/
theorem getElem?_services (h : FoundedOnWeb d id) : ∃ options settings auth,
    d.services[id]? = some { options, settings, auth, transport := none } := by
  cases h with
  | made d options settings => exact ⟨options, settings, _, List.getElem?_concat_length⟩
  | obtained hnew hobtain =>
    rename_i d options requested environment
    unfold Directory.obtain at hobtain
    rw [hnew] at hobtain
    obtain ⟨settings, -, hobtain⟩ := Station.bind_eq_ok hobtain
    obtain ⟨rfl, rfl⟩ := Prod.mk.inj (Except.ok.inj hobtain)
    exact ⟨options, settings, _, List.getElem?_concat_length⟩

end FoundedOnWeb

namespace Station

theorem Unused.found (h : FoundedOnWeb d id) : Unused (Station.found h.founded) := by
  obtain ⟨options, settings, auth, hx⟩ := h.getElem?_services
  have hservice := Option.some.inj ((Station.found h.founded).getElem?_service.symm.trans hx)
  refine ⟨?_, ?_, ?_, rfl, rfl⟩ <;> rw [hservice]
  rfl

/-- **The configuration of a service** that was made at `s₀` and runs. -/
structure Configured (s₀ : Station) (es : List ServiceEvent) : Prop where
  /-- What is set was set last with success, or in the beginning. -/
  current : (s₀.after es).service.config = s₀.configured s₀.service.config es
  /-- Something can be set exactly while the service is open and nobody has needed its managers. -/
  useEmulator : ∀ host port, ((s₀.after es).service.useEmulator host port).isOk ↔
    (s₀.after es).service.closed = false ∧ (s₀.after es).service.built = false
  setGenerated : ∀ generated, ((s₀.after es).service.setGenerated generated).isOk ↔
    (s₀.after es).service.closed = false ∧ (s₀.after es).service.built = false
  /-- What is refused changes nothing. -/
  refusedEmulator : ∀ host port e, (s₀.after es).service.useEmulator host port = .error e →
    (s₀.after es).next (.useEmulator host port) = s₀.after es
  refusedGenerated : ∀ generated e, (s₀.after es).service.setGenerated generated = .error e →
    (s₀.after es).next (.setGenerated generated) = s₀.after es
  /-- An operation of an open service builds the managers, -/
  needed : (s₀.after es).service.closed = false → ∀ ev, ev.needsManagers →
    ((s₀.after es).next ev).service.built = true
  /-- unless its variables cannot be encoded: then nothing happens. -/
  unencodable : ∀ operation e react, (s₀.after es).next (.query operation (.error e)) = s₀.after es ∧
    (s₀.after es).next (.mutate operation (.error e)) = s₀.after es ∧
    (s₀.after es).next (.subscribe operation (.error e) react) = s₀.after es
  /-- Nobody calls the backend before the managers are needed. -/
  unused : (s₀.after es).service.built = false → Unused (s₀.after es)
  /-- Some event is the first that needs the managers. -/
  first : (s₀.after es).service.built = true → ∃ earlier ev later, es = earlier ++ ev :: later ∧
    (s₀.after earlier).service.built = false ∧ (s₀.after (earlier ++ [ev])).service.built = true
  /-- **From this event on,** all calls and requests are over the transport of what was set last before it. -/
  frozen : ∀ earlier ev later, es = earlier ++ ev :: later → (s₀.after earlier).service.built = false →
    (s₀.after (earlier ++ [ev])).service.built = true → (s₀.after earlier).service.closed = false ∧
      (s₀.after earlier).service.config = s₀.configured s₀.service.config earlier ∧
      On (s₀.after earlier).service.ownTransport (s₀.after es)
  /-- No transport is given up for another. -/
  once : ∀ t, (s₀.after es).service.transport = some t → ∀ more,
    (s₀.after (es ++ more)).service.transport = some t
  /-- Calls of the backend that an event makes, for queries and for mutations, begin over the transport. -/
  begins : ∀ ev, ((s₀.after es).next ev).service.orders ≠ (s₀.after es).service.orders →
    ∃ t, ((s₀.after es).next ev).service.transport = some (.rest t) ∧
      CallsBegin t (s₀.after es) ((s₀.after es).next ev)

end Station

/-- **The first operation freezes the configuration** of a service that was made over the web in any way and
runs in any way. -/
theorem configuration_frozen (h : FoundedOnWeb d id) (es : List ServiceEvent) :
    (Station.found h.founded).Configured es := by
  have hsound := Station.InOrder.found h.founded
  have hunused := Station.Unused.found h
  set s₀ := Station.found h.founded
  constructor
  case current => exact hunused.config_after hsound es
  case useEmulator => exact fun host port => (Service.sets_useEmulator _ host port).isOk_iff
  case setGenerated => exact fun generated => (Service.sets_setGenerated _ generated).isOk_iff
  case refusedEmulator =>
    intro host port e heq
    simp only [Station.next, Station.operate, heq]
  case refusedGenerated =>
    intro generated e heq
    simp only [Station.next, Station.operate, heq]
  case needed =>
    exact fun hopen ev hneeds => Station.built_of_needs (hsound.after es) (hunused.phase hsound es) hopen hneeds
  case unencodable => exact fun _ _ _ => ⟨rfl, rfl, rfl⟩
  case unused =>
    intro hbuilt
    rcases hunused.phase hsound es with hstill | ⟨t, hon⟩
    · exact hstill
    · simp [hon.built] at hbuilt
  case first =>
    intro hbuilt
    rcases hunused.after hsound es with hstill | ⟨earlier, ev, later, hes, hbefore, t, hon⟩
    · simp [hstill.built] at hbuilt
    · exact ⟨earlier, ev, later, hes, hbefore.built, hon.built⟩
  case frozen =>
    intro earlier ev later hes hbefore hbuilt
    obtain ⟨hopen, hon⟩ := hunused.first hsound hbefore hbuilt
    refine ⟨hopen, hunused.config_after hsound earlier, ?_⟩
    rw [hes, List.append_cons, Station.after_append]
    exact hon.after (hsound.after _) later
  case once =>
    intro t ht more
    rcases hunused.phase hsound es with hstill | ⟨t', hon⟩
    · simp [hstill.transport] at ht
    · rw [Station.after_append, (hon.after (hsound.after es) more).transport, ← ht, hon.transport]
  case begins => exact fun ev hne => Station.begins_of_orders (hsound.after es) (hunused.phase hsound es) ev hne

theorem foundedOnWeb_cinema : FoundedOnWeb (cinema.addWeb cinemaOptions .production 0).1
    (cinema.addWeb cinemaOptions .production 0).2 :=
  .made cinema cinemaOptions .production (by decide)

/-- A service is sent to an emulator; one mutation is not encoded, and another is the first operation. -/
def cinemaOpening : List ServiceEvent :=
  [.useEmulator (some "localhost") (some 9000), .setGenerated true,
    .mutate "AddMovie" (.error (.notAStruct "i32" "a number")), .mutate "AddMovie" (.ok []), .mutations .poll,
    .auth .poll, .auth (.answerNow 0 (.ok (some "token"))), .useEmulator none none]

/-- The request goes to the emulator, and the service cannot be sent elsewhere. -/
theorem configuration_frozen_cinema :
    let s₀ := Station.found foundedOnWeb_cinema.founded
    let s := s₀.after cinemaOpening
    ((s₀.after (cinemaOpening.take 3)).service.built = false ∧
      s.service.config = (.emulator (some "localhost") (some 9000), true) ∧
      (s.sent.map fun r => (String.ofList r.url.host, r.url.port)) = [("localhost", some 9000)]) ∧
      s₀.Configured cinemaOpening :=
  ⟨by decide +kernel, configuration_frozen foundedOnWeb_cinema cinemaOpening⟩

end QueryClient
