import QueryClient.Proofs.Config.Addresses
import QueryClient.Proofs.Number.Numerals
import QueryClient.Proofs.Service.Frozen
import QueryClient.Proofs.Service.Remembered
import QueryClient.Proofs.Web.Paths

/-!
# Different services address different resources

A request names its resource in its body, and by the path of its address. A service sends requests over one
transport, which was built for the service's own options, so that all its requests name the address of its
connector. Services of different keys name different resources then, unless their options clash.

* `HttpRequest.resource?`, `HttpRequest.IsFor.segments`: what a request names.
* `Options.Plain`: options that stand in an address as they are.
* `Service.AtHome`: **a service sends over a transport of its own.**
* `Station.Posts`: calls go on over it, with one lemma for each kind of work; `Station.atHome_next`.
* `Premises.AtHome`: all services of a directory send over transports of their own.
* `AddressesApart`, `addresses_apart`: **services of different keys address different resources.**
* `shared_address`: two services share an address, and all their requests.
-/

namespace QueryClient

variable {r r' : HttpRequest} {t : RestTransport} {order : Order} {a b o : Options}

/-! ## What a request names -/

/-- The resource that a request names in its body. -/
def HttpRequest.resource? (r : HttpRequest) : Option String :=
  match r.body.get? "name" with
  | some (.str path) => some path
  | _ => none

theorem HttpRequest.IsFor.resource (h : r.IsFor t order) : r.resource? = some t.options.resourcePath := by
  unfold resource?
  rw [h.body]
  rfl

namespace Options

/-- **Options that stand in an address as they are:** all their characters do, and no part of the path is one
of dots. -/
structure Plain (o : Options) : Prop where
  project : Web.IsSegment o.projectId.toList
  location : Web.IsSegment o.connector.location.toList
  service : Web.IsSegment o.connector.service.toList
  connector : ∀ c ∈ o.connector.connector.toList, Web.isPlain c

/-- The path of an action's address. -/
def segments (o : Options) (action : Action) : List (List Char) :=
  ["v1", "projects", o.projectId, "locations", o.connector.location, "services", o.connector.service,
    "connectors", o.connector.connector ++ ":" ++ action.name].map String.toList

/-- A connector's name before an action is no part of dots. -/
theorem Plain.isSegment (h : o.Plain) (action : Action) : ∀ s ∈ o.segments action, Web.IsSegment s := by
  have hplain : ":".toList.all Web.isPlain = true ∧ action.name.toList.all Web.isPlain = true := by
    cases action <;> decide
  have hname : Web.IsSegment (o.connector.connector ++ ":" ++ action.name).toList := by
    refine .of_colon (fun c hc => ?_) (by simp)
    simp only [String.toList_append, List.mem_append] at hc
    rcases hc with (hc | hc) | hc
    · exact h.connector c hc
    · exact List.all_eq_true.1 hplain.1 c hc
    · exact List.all_eq_true.1 hplain.2 c hc
  simp only [segments, List.map_cons, List.map_nil, List.forall_mem_cons]
  exact ⟨by decide, by decide, h.project, by decide, h.location, by decide, h.service, by decide, hname,
    by simp⟩

/-- The segments spell the address. -/
theorem flatMap_segments (o : Options) (action : Action) : ((o.segments action).flatMap fun s => '/' :: s) =
    ("/v1/" ++ o.resourcePath ++ ":" ++ action.name).toList := by
  rw [resourcePath_eq]
  simp [segments]

/-- Options are told by the segments of their actions. -/
theorem key_eq_of_segments {action action' : Action} (h : a.segments action = b.segments action') :
    a.serviceKey = b.serviceKey := by
  simp only [segments, List.map_cons, List.map_nil, List.cons.injEq, true_and, and_true,
    String.toList_inj] at h
  obtain ⟨hp, hl, hs, hc⟩ := h
  -- the names of actions end in different letters
  have hlast := congrArg (fun s : String => s.toList.getLast?) hc
  obtain rfl : action = action' := by
    cases action <;> cases action' <;> simp [Action.name] at hlast <;> rfl
  obtain ⟨⟨l, c, s⟩, p, _, _⟩ := a
  obtain ⟨⟨l', c', s'⟩, p', _, _⟩ := b
  simp only at hp hl hs hc
  subst hp hl hs
  have hname : c = c' := by
    simpa [← String.toList_inj] using hc
  rw [serviceKey, serviceKey, hname]

end Options

/-- A port is part of what the host is written with. -/
theorem Settings.isHost_authority {s : Settings} (h : Web.Url.IsHost s.host.toList) :
    Web.Url.IsHost s.authority.toList := by
  unfold authority
  split
  · rename_i port _
    have hport : ∀ c ∈ ':' :: (portText port).toList, Web.Url.endsAuthority c = false ∧ Web.Url.isLayout c = false := by
      refine List.forall_mem_cons.2 ⟨by decide, fun c hc => ?_⟩
      rw [portText, String.toList_ofList] at hc
      have hne : ∀ x : Char, x.isDigit = false → c ≠ x := by
        rintro x hx rfl
        simp [Digits.toDigits _ _ hc] at hx
      simp [Web.Url.endsAuthority, Web.Url.isSlash, Web.Url.isLayout, hne]
    have happend : (s.host ++ ":" ++ portText port).toList = s.host.toList ++ ':' :: (portText port).toList := by
      simp
    rw [happend]
    exact ⟨by simp, List.forall_mem_append.2 ⟨h.ends, fun c hc => (hport c hc).1⟩,
      List.forall_mem_append.2 ⟨h.layout, fun c hc => (hport c hc).2⟩⟩
  · exact h

/-- **The path of a request's address,** where the host ends where it should and the options stand as they
are. -/
theorem HttpRequest.IsFor.segments (h : r.IsFor t order) (ho : t.options.Plain)
    (hhost : Web.Url.IsHost t.settings.host.toList) : r.url.segments = t.options.segments order.action := by
  obtain ⟨u, hu, hurl⟩ := h.url
  have hkept : r.url.segments = u.segments := by
    rw [hurl]
    unfold Web.Url.anonymous
    cases t.options.apiKey <;> split <;> rfl
  have htext : ("//" ++ t.settings.authority ++ "/v1/" ++ t.options.resourcePath ++ ":" ++ order.action.name).toList =
      "//".toList ++ t.settings.authority.toList ++ (t.options.segments order.action).flatMap fun s => '/' :: s := by
    rw [Options.flatMap_segments]
    simp
  rw [htext] at hu
  exact hkept.trans (Web.Url.segments_of_parse (Settings.isHost_authority hhost) (ho.isSegment order.action) hu)

/-! ## Transports of a service's own -/

namespace Service

variable {x y z : Service} {calls : List WebCall} {sent : List HttpRequest}

/-- Calls go the same way. -/
structure SameWay (x y : Service) : Prop where
  options : y.options = x.options
  settings : y.settings = x.settings
  transport : y.transport = x.transport
  built : y.built = x.built

theorem SameWay.refl (x : Service) : SameWay x x := ⟨rfl, rfl, rfl, rfl⟩

theorem SameWay.trans (h : SameWay x y) (h' : SameWay y z) : SameWay x z :=
  ⟨h'.options.trans h.options, h'.settings.trans h.settings, h'.transport.trans h.transport,
    h'.built.trans h.built⟩

/-- **The transport over the web is the service's own:** it was built for its options and its settings. -/
def Own (x : Service) : Prop :=
  ∀ t, x.transport = some (.rest t) → x.built = true ∧ t.options = x.options ∧ t.settings = x.settings

theorem Own.of_sameWay (h : x.Own) (hxy : SameWay x y) : y.Own := by
  intro t ht
  rw [hxy.transport] at ht
  rw [hxy.built, hxy.options, hxy.settings]
  exact h t ht

/-- **All goes over the service's transport.** -/
structure Sends (x : Service) (calls : List WebCall) (sent : List HttpRequest) : Prop where
  calls : ∀ c ∈ calls, x.transport = some (.rest c.transport)
  sent : ∀ r ∈ sent, ∃ t order, x.transport = some (.rest t) ∧ r.IsFor t order

theorem Sends.nil (x : Service) : x.Sends [] [] := ⟨by simp, by simp⟩

theorem Sends.of_transport (h : x.Sends calls sent) (hxy : y.transport = x.transport) : y.Sends calls sent :=
  ⟨fun c hc => hxy.trans (h.calls c hc), fun r hr => by rw [hxy]; exact h.sent r hr⟩

end Service

namespace Station

variable {s : Station} {x : Service}

/-- The station's calls go the way of a service. -/
structure Posts (x : Service) (s : Station) : Prop where
  way : x.SameWay s.service
  sends : x.Sends s.calls s.sent

namespace Posts

/-- What happens adds no calls, and no requests. -/
theorem of_subset (h : Posts x s) {s' : Station} (hway : s.service.SameWay s'.service)
    (hcalls : ∀ c ∈ s'.calls, c ∈ s.calls) (hsent : ∀ r ∈ s'.sent, r ∈ s.sent) : Posts x s' :=
  ⟨h.way.trans hway, fun c hc => h.sends.calls c (hcalls c hc), fun r hr => h.sends.sent r (hsent r hr)⟩

theorem setRealm (h : Posts x s) (r : AuthRealm) : Posts x (s.setRealm r) :=
  h.of_subset (.refl _) (fun _ hc => hc) fun _ hr => hr

theorem setService (h : Posts x s) {y : Service} (hy : s.service.SameWay y) : Posts x (s.setService y) := by
  refine h.of_subset ?_ (fun _ hc => hc) fun _ hr => hr
  rw [service_setService]
  exact hy

theorem replyNow (h : Posts x s) (client : Client) (result : Except Error OperationResult) :
    Posts x (s.replyNow client result) := by
  cases client with
  | task id =>
    refine h.of_subset ?_ (fun _ hc => hc) fun _ hr => hr
    unfold Station.replyNow
    rw [service_setLending]
    exact ⟨rfl, rfl, rfl, rfl⟩
  | execution id => exact h.setService ⟨rfl, rfl, rfl, rfl⟩

theorem foldl {α : Type} {op : Station → α → Station} {P : α → Prop}
    (hop : ∀ {s : Station}, Posts x s → ∀ a, P a → Posts x (op s a)) (as : List α) :
    ∀ {s : Station}, Posts x s → (∀ a ∈ as, P a) → Posts x (as.foldl op s) := by
  induction as with
  | nil => exact fun h _ => h
  | cons a as ih =>
    intro s h has
    obtain ⟨ha, has⟩ := List.forall_mem_cons.1 has
    exact ih (hop h a ha) has

/-- A call begins. -/
theorem callWeb (h : Posts x s) (ht : x.transport = some (.rest t)) (order : Order) :
    Posts x (Station.callWeb t s order) := by
  unfold Station.callWeb
  split
  · exact h.replyNow _ _
  · refine ⟨h.way, fun c hc => ?_, h.sends.sent⟩
    rcases List.mem_append.1 hc with hc | hc
    · exact h.sends.calls c hc
    · rw [List.mem_singleton.1 hc]
      exact ht

/-- A call goes on. -/
theorem goOn (h : Posts x s) (c : WebCall) (hc : x.transport = some (.rest c.transport)) :
    Posts x (s.goOn c) := by
  unfold Station.goOn
  split
  · unfold Station.proceed
    split
    · exact h.replyNow _ _
    · rename_i request hrequest
      refine ⟨h.way, List.forall_mem_append.2 ⟨h.sends.calls, ?_⟩, List.forall_mem_append.2 ⟨h.sends.sent, ?_⟩⟩
      · simpa using hc
      · simpa using ⟨c.transport, hc, c.order, WebCall.isFor_of_request? hrequest⟩
  · exact h

/-- Calls go on, and some are given up. -/
theorem settle (h : Posts x s) : Posts x s.settle := by
  have hkept : Posts x { s with calls := s.calls.filter fun c => (s.ended? c).isNone } :=
    h.of_subset (.refl _) (fun c hc => (List.mem_filter.1 hc).1) fun _ hr => hr
  have hadvance : Posts x s.advance :=
    foldl goOn _ hkept fun c hc => h.sends.calls c (List.mem_filter.1 hc).1
  exact hadvance.of_subset (.refl _) (fun c hc => (List.mem_filter.1 hc).1) fun _ hr => hr

/-- Calls begin that the service has made. -/
theorem heed (h : Posts x s) (before : Service) : Posts x (s.heed before) := by
  unfold Station.heed
  split
  · rename_i t ht
    rw [h.way.transport] at ht
    have hcalls : Posts x ((s.service.ordersSince before).foldl (Station.callWeb t) s) :=
      foldl (P := fun _ => True) (fun h order _ => h.callWeb ht order) _ h fun _ _ => trivial
    exact hcalls.settle
  · exact h.settle

/-- The web answers a call. -/
theorem respond (h : Posts x s) (place : ℕ) (answer : HttpAnswer) : Posts x (s.respond place answer) := by
  unfold Station.respond
  split
  · exact h
  split
  · exact h
  have herase : Posts x { s with calls := s.calls.eraseIdx place } :=
    h.of_subset (.refl _) (fun _ hc => List.mem_of_mem_eraseIdx hc) fun _ hr => hr
  simp only
  split
  · exact ((herase.setRealm _).replyNow _ _).settle
  · exact (herase.replyNow _ _).settle

end Posts

end Station

/-! ## Events -/

namespace Service

variable {x y : Service} {calls : List WebCall} {sent : List HttpRequest}

/-- **The service sends over a transport of its own.** -/
structure AtHome (x : Service) (calls : List WebCall) (sent : List HttpRequest) : Prop where
  own : x.Own
  sends : x.Sends calls sent

namespace AtHome

theorem of_sameWay (h : x.AtHome calls sent) (hxy : x.SameWay y) : y.AtHome calls sent :=
  ⟨h.own.of_sameWay hxy, h.sends.of_transport hxy.transport⟩

/-- A service without a transport over the web has sent nothing. -/
theorem of_none (h : ∀ t, x.transport ≠ some (.rest t)) : x.AtHome [] [] :=
  ⟨fun t ht => absurd ht (h t), .nil x⟩

/-- Settings change as long as there is no transport over the web. -/
theorem sets (h : x.AtHome calls sent) {settings : Settings} {generated : Bool} {result : Except Error Service}
    (hsets : Sets x { x with settings, generated } result) (hy : result = .ok y) : y.AtHome calls sent := by
  rcases hsets with ⟨rfl, -, hunbuilt⟩ | ⟨⟨e, rfl⟩, -⟩
  · obtain rfl := Except.ok.inj hy
    refine ⟨fun t ht => ?_, h.sends.of_transport rfl⟩
    simp [(h.own t ht).1] at hunbuilt
  · exact nomatch hy

/-- **The transport that is built is the service's own.** -/
theorem components (h : x.AtHome calls sent) (hy : x.components = .ok y) : y.AtHome calls sent := by
  cases hbuilt : x.built with
  | true => exact components_of_built hy hbuilt ▸ h
  | false =>
    have hnone : ∀ t, x.transport ≠ some (.rest t) := fun t ht => by simp [(h.own t ht).1] at hbuilt
    rw [(components_of_unbuilt hy hbuilt).2]
    refine ⟨fun t ht => ?_, fun c hc => absurd (h.sends.calls c hc) (hnone _), fun r hr => ?_⟩
    · cases htransport : x.transport with
      | none =>
        simp only [htransport, Option.getD_none, Option.some.injEq, Transport.rest.injEq] at ht
        exact ht ▸ ⟨rfl, rfl, rfl⟩
      | some own =>
        simp only [htransport, Option.getD_some] at ht
        exact absurd (htransport.trans ht) (hnone t)
    · obtain ⟨t, order, ht, -⟩ := h.sends.sent r hr
      exact absurd ht (hnone t)

/-- What is asked of the managers, once they are built. -/
theorem managed (h : x.AtHome calls sent) {vars : Except Error Struct} {f : Struct → Service → Service × TaskId}
    (hf : ∀ v (z : Service), z.SameWay (f v z).1)
    (hy : (vars >>= fun v => x.components >>= fun z => pure (f v z)).map Prod.fst = .ok y) :
    y.AtHome calls sent := by
  obtain ⟨w, hw, rfl⟩ := Station.map_eq_ok hy
  obtain ⟨v, -, hw⟩ := Station.bind_eq_ok hw
  obtain ⟨z, hz, hw⟩ := Station.bind_eq_ok hw
  obtain rfl := Except.ok.inj hw
  exact (h.components hz).of_sameWay (hf v z)

end AtHome

end Service

namespace Station

variable {s : Station} {x : Service}

theorem Posts.atHome (h : Posts x s) (hx : x.Own) : s.service.AtHome s.calls s.sent :=
  ⟨hx.of_sameWay h.way, h.sends.of_transport h.way.transport⟩

/-- An operation of the service. -/
theorem atHome_operate (h : s.service.AtHome s.calls s.sent) {result : Except Error Service}
    (hy : ∀ y, result = .ok y → y.AtHome s.calls s.sent) :
    (s.operate result).service.AtHome (s.operate result).calls (s.operate result).sent := by
  cases result with
  | error e => exact h
  | ok y =>
    obtain ⟨hown, hsends⟩ := hy y rfl
    have hposts : Posts y (s.setService y) := ⟨by rw [service_setService]; exact .refl y, hsends⟩
    exact (hposts.heed s.service).atHome hown

/-- **Whatever happens to a service,** it sends over a transport of its own. -/
theorem atHome_next (h : s.service.AtHome s.calls s.sent) (ev : ServiceEvent) :
    (s.next ev).service.AtHome (s.next ev).calls (s.next ev).sent := by
  have hposts : Posts s.service s := ⟨.refl _, h.sends⟩
  cases ev with
  | useEmulator host port => exact atHome_operate h fun y => h.sets (s.service.sets_useEmulator host port)
  | setGenerated generated => exact atHome_operate h fun y => h.sets (s.service.sets_setGenerated generated)
  | prepare => exact atHome_operate h fun y => h.components
  | query operation vars => exact atHome_operate h fun y => h.managed fun v z => ⟨rfl, rfl, rfl, rfl⟩
  | mutate operation vars => exact atHome_operate h fun y => h.managed fun v z => ⟨rfl, rfl, rfl, rfl⟩
  | subscribe operation vars react => exact atHome_operate h fun y => h.managed fun v z => ⟨rfl, rfl, rfl, rfl⟩
  | queries ev =>
    simp only [next]
    split
    · have hset : Posts s.service (s.setLending (s.lending.next ev)) :=
        hposts.of_subset (by rw [service_setLending]; exact ⟨rfl, rfl, rfl, rfl⟩) (fun _ hc => hc) fun _ hr => hr
      exact (hset.heed s.service).atHome h.own
    · exact h
  | mutations ev =>
    simp only [next]
    split
    · have hset : Posts s.service (s.setMutations (s.service.mutations.step ev)) :=
        hposts.setService ⟨rfl, rfl, rfl, rfl⟩
      exact (hset.heed s.service).atHome h.own
    · exact h
  | auth ev => exact (hposts.setRealm _).settle.atHome h.own
  | respond place answer => exact (hposts.respond place answer).atHome h.own
  | close =>
    have hway : s.service.SameWay s.close.service := by
      cases hc : s.service.closed with
      | true =>
        rw [close_of_closed hc]
        exact .refl _
      | false =>
        rw [service_close hc]
        exact ⟨rfl, rfl, rfl, rfl⟩
    exact h.of_sameWay hway

/-- The work of a service is its own. -/
theorem others_next (s : Station) (ev : ServiceEvent) : (s.next ev).id = s.id ∧
    (s.next ev).directory.services.length = s.directory.services.length ∧
      ∀ j ≠ s.id, (s.next ev).directory.services[j]? = s.directory.services[j]? := by
  cases s.turns ev with
  | stays _ _ h => exact ⟨h.id, h.count, h.others⟩
  | routed _ h =>
    exact ⟨h.id, h.count.trans List.length_set,
      fun j hj => (h.others j hj).trans (List.getElem?_set_ne (Ne.symm hj))⟩
  | closes h =>
    rw [h]
    exact ⟨rfl, Directory.length_close _ _, fun j hj => (Directory.getElem?_close _ _ j).trans (if_neg hj)⟩

end Station

/-! ## All services of a directory -/

namespace Premises

variable {p : Premises}

/-- **All services send over transports of their own,** and nothing is sent by services that are not there. -/
structure AtHome (p : Premises) : Prop where
  service : ∀ i (x : Service), p.directory.services[i]? = some x → x.AtHome (p.calls i) (p.sent i)
  beyond : ∀ i, p.directory.services.length ≤ i → p.calls i = [] ∧ p.sent i = []

namespace AtHome

/-- A service comes that has no transport over the web. -/
theorem add (h : p.AtHome) {d : Directory} {x : Service} (hd : d.services = p.directory.services ++ [x])
    (hx : ∀ t, x.transport ≠ some (.rest t)) : ({ p with directory := d } : Premises).AtHome := by
  refine ⟨fun i y hy => ?_, fun i hi => ?_⟩
  · replace hy : d.services[i]? = some y := hy
    rw [hd] at hy
    rcases Nat.lt_or_ge i p.directory.services.length with hi | hi
    · rw [List.getElem?_append_left hi] at hy
      exact h.service i y hy
    · obtain ⟨hcalls, hsent⟩ := h.beyond i hi
      rw [List.getElem?_append_right hi] at hy
      obtain rfl := List.mem_singleton.1 (List.mem_of_getElem? hy)
      show y.AtHome (p.calls i) (p.sent i)
      rw [hcalls, hsent]
      exact .of_none hx
  · refine h.beyond i (Nat.le_of_succ_le ?_)
    replace hi : d.services.length ≤ i := hi
    rwa [hd, List.length_append] at hi

theorem setStation (h : p.AtHome) {i : ServiceId} (here : i < p.directory.services.length) (ev : ServiceEvent) :
    (p.setStation ((p.station i here).next ev)).AtHome := by
  obtain ⟨hid, hcount, hothers⟩ := (p.station i here).others_next ev
  have hnext := Station.atHome_next (h.service i _ (p.station i here).getElem?_service) ev
  generalize (p.station i here).next ev = s at hid hcount hothers hnext
  refine ⟨fun j y hy => ?_, fun j hj => ?_⟩
  · show y.AtHome (if j = s.id then s.calls else p.calls j) (if j = s.id then s.sent else p.sent j)
    replace hy : s.directory.services[j]? = some y := hy
    by_cases hj : j = s.id
    · rw [if_pos hj, if_pos hj]
      rw [hj, s.getElem?_service] at hy
      exact Option.some.inj hy ▸ hnext
    · rw [if_neg hj, if_neg hj]
      exact h.service j y ((hothers j (hid ▸ hj)).symm.trans hy)
  · show (if j = s.id then s.calls else p.calls j) = [] ∧ (if j = s.id then s.sent else p.sent j) = []
    replace hj : s.directory.services.length ≤ j := hj
    have hne : j ≠ s.id := fun hjs => absurd s.here (Nat.not_lt.2 (hjs ▸ hj))
    rw [if_neg hne, if_neg hne]
    exact h.beyond j (hcount ▸ hj)

/-- **Whatever happens,** services send over transports of their own. -/
theorem step (h : p.AtHome) (ev : PremisesEvent) : (p.step ev).AtHome := by
  cases ev with
  | obtain options requested environment =>
    simp only [Premises.step]
    split
    · exact h
    · rename_i d i hd
      rcases Directory.obtain_cases hd with ⟨-, rfl⟩ | ⟨-, -, settings, -, rfl⟩
      · exact h
      · exact h.add rfl fun _ => by simp
  | given options => exact h.add rfl fun _ => by simp
  | web options settings auth =>
    simp only [Premises.step]
    split
    · exact h.add rfl fun _ => by simp
    · exact h
  | «at» id ev =>
    simp only [Premises.step]
    split
    · exact h.setStation _ ev
    · exact h
  | auth ev => exact ⟨h.service, h.beyond⟩

end AtHome

theorem atHome (es : List PremisesEvent) (n : ℕ) : (premisesAt es n).AtHome := by
  unfold premisesAt
  induction es.take n using List.reverseRecOn with
  | nil => exact ⟨by simp, fun _ _ => ⟨rfl, rfl⟩⟩
  | append_singleton es ev ih =>
    rw [List.foldl_append]
    exact ih.step ev

end Premises

/-! ## The theorem -/

/-- **A request is one of a service's own:** it goes out for the service's options and from its settings. -/
theorem Service.AtHome.isFor {x : Service} {calls : List WebCall} {sent : List HttpRequest}
    (h : x.AtHome calls sent) (hr : r ∈ sent) :
    ∃ t order, t.options = x.options ∧ t.settings = x.settings ∧ r.IsFor t order := by
  obtain ⟨t, order, ht, hfor⟩ := h.sends.sent r hr
  obtain ⟨-, hoptions, hsettings⟩ := h.own t ht
  exact ⟨t, order, hoptions, hsettings, hfor⟩

/-- A service of the premises has sent a request. -/
def Premises.HasSent (p : Premises) (x : Service) (r : HttpRequest) : Prop :=
  ∃ i, p.directory.services[i]? = some x ∧ r ∈ p.sent i

theorem Premises.HasSent.isFor {es : List PremisesEvent} {n : ℕ} {x : Service}
    (h : (premisesAt es n).HasSent x r) :
    ∃ t order, t.options = x.options ∧ t.settings = x.settings ∧ r.IsFor t order := by
  obtain ⟨i, hx, hr⟩ := h
  exact ((Premises.atHome es n).service i x hx).isFor hr

/-- **Different resources** for different keys, in a run. -/
structure AddressesApart (es : List PremisesEvent) : Prop where
  /-- Options of different keys have different addresses, unless they clash. -/
  paths : ∀ a b : Options, a.serviceKey ≠ b.serviceKey → ¬ a.Clash b → a.resourcePath ≠ b.resourcePath
  /-- Options without slashes have an address of their own, whatever the others are. -/
  slashFree : ∀ a b : Options, a.serviceKey ≠ b.serviceKey → a.SlashFree → a.resourcePath ≠ b.resourcePath
  /-- All requests of a service name the address of its connector. -/
  named : ∀ n x r, (premisesAt es n).HasSent x r → r.resource? = some x.options.resourcePath
  /-- So the requests of services of different keys name different resources, unless their options clash, … -/
  resources : ∀ n x y r r', (premisesAt es n).HasSent x r → (premisesAt es n).HasSent y r' →
    x.options.serviceKey ≠ y.options.serviceKey → ¬ x.options.Clash y.options ∨ x.options.SlashFree →
      r.resource? ≠ r'.resource?
  /-- … and go to different paths, if the options stand in an address as they are and the hosts end where they
  should. -/
  segments : ∀ n x y r r', (premisesAt es n).HasSent x r → (premisesAt es n).HasSent y r' →
    x.options.serviceKey ≠ y.options.serviceKey → x.options.Plain → y.options.Plain →
      Web.Url.IsHost x.settings.host.toList → Web.Url.IsHost y.settings.host.toList →
        r.url.segments ≠ r'.url.segments

/-- **Services of different keys address different resources,** unless their options clash. -/
theorem addresses_apart (es : List PremisesEvent) : AddressesApart es := by
  have hpaths : ∀ a b : Options, a.serviceKey ≠ b.serviceKey → ¬ a.Clash b ∨ a.SlashFree →
      a.resourcePath ≠ b.resourcePath := by
    intro a b hkey hab heq
    rcases hab with hclash | hfree
    · exact (Options.key_eq_or_clash heq).elim hkey hclash
    · exact hkey (Options.key_eq_of_slashFree hfree heq)
  have hnamed : ∀ n x r, (premisesAt es n).HasSent x r → r.resource? = some x.options.resourcePath := by
    intro n x r h
    obtain ⟨t, order, hoptions, -, hfor⟩ := h.isFor
    rw [← hoptions]
    exact hfor.resource
  refine ⟨fun a b hkey hclash => hpaths a b hkey (.inl hclash), fun a b hkey hfree => hpaths a b hkey (.inr hfree),
    hnamed, ?_, ?_⟩
  · intro n x y r r' hx hy hkey hxy heq
    rw [hnamed n x r hx, hnamed n y r' hy] at heq
    exact hpaths _ _ hkey hxy (Option.some.inj heq)
  · intro n x y r r' hx hy hkey hpx hpy hhx hhy heq
    obtain ⟨t, order, hoptions, hsettings, hfor⟩ := hx.isFor
    obtain ⟨t', order', hoptions', hsettings', hfor'⟩ := hy.isFor
    rw [hfor.segments (hoptions ▸ hpx) (hsettings ▸ hhx), hfor'.segments (hoptions' ▸ hpy) (hsettings' ▸ hhy),
      hoptions, hoptions'] at heq
    exact hkey (Options.key_eq_of_segments heq)

/-! ## A shared address -/

/-- A service whose name has the word that follows it. -/
def nestedOptions : Options where
  connector := ⟨"us-central1", "admin", "movies/connectors/crud"⟩
  projectId := "demo-project"

/-- A connector whose name has the word before it. -/
def flatOptions : Options where
  connector := ⟨"us-central1", "crud/connectors/admin", "movies"⟩
  projectId := "demo-project"

/-- **Two services that are kept apart send the same:** their options are accepted and have different keys, so
that both are remembered, yet they have one address, and all their requests are the same. -/
theorem shared_address :
    Options.make? nestedOptions.connector nestedOptions.projectId = .ok nestedOptions ∧
    Options.make? flatOptions.connector flatOptions.projectId = .ok flatOptions ∧
    nestedOptions.serviceKey ≠ flatOptions.serviceKey ∧
    (premisesAt [.obtain nestedOptions none none, .obtain flatOptions none none] 2).directory.remembered =
      [(nestedOptions.serviceKey, 0), (flatOptions.serviceKey, 1)] ∧
    nestedOptions.resourcePath = flatOptions.resourcePath ∧
    ∀ settings manager generated action operation vars token,
      RestTransport.request ⟨nestedOptions, settings, manager, generated⟩ action operation vars token =
        RestTransport.request ⟨flatOptions, settings, manager, generated⟩ action operation vars token := by
  have hpath : nestedOptions.resourcePath = flatOptions.resourcePath := by decide
  refine ⟨rfl, rfl, by decide, by decide +kernel, hpath, ?_⟩
  -- a request has nothing else of the options but the location and the credentials
  have hlocation : nestedOptions.connector.location = flatOptions.connector.location := rfl
  have hkey : nestedOptions.apiKey = flatOptions.apiKey := rfl
  have happ : nestedOptions.appId = flatOptions.appId := rfl
  intro settings manager generated action operation vars token
  simp only [RestTransport.request, RestTransport.headers, RestTransport.url, RestTransport.addressText,
    RestTransport.body, hpath, hlocation, hkey, happ]

end QueryClient
