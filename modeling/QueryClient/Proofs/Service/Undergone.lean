import QueryClient.Proofs.Service.Frozen

/-!
# What the queries of a service go through

Whatever happens to a service, its manager of queries goes through events of its own: those that users
bring, replies of the backend, and its end when the service is closed. So what holds of a manager in every
run holds of the queries of a service in every run.

* `Lending.SameLending`: the same manager, and the same leases that users hold.
* `Station.Undergoes`: **the queries of a service go through some events.**
* `Station.Heeds`: these are replies; one lemma for each kind of work, `Station.Heeds.heed` and
  `Station.Heeds.respond`.
* `Station.Endures`, `Station.InOrder.endures`: **what the queries go through in a run,** and who asks for it.
* `Station.undergoes_subscribe`: a new subscription.
-/

namespace QueryClient

/-! ## The same manager -/

/-- The same manager, and the same leases that users hold. -/
structure Lending.SameLending (l l' : Lending) : Prop where
  manager : l'.manager = l.manager
  held : l'.held = l.held

namespace Lending.SameLending

variable {l l' l'' : Lending}

theorem trans (h : SameLending l l') (h' : SameLending l' l'') : SameLending l l'' :=
  ⟨h'.manager.trans h.manager, h'.held.trans h.held⟩

/-- What was wrong with leases that were given up makes no difference. -/
theorem next (h : SameLending l l') (ev : ManagerEvent) : SameLending (l.next ev) (l'.next ev) := by
  obtain ⟨m, held, faults⟩ := l
  obtain ⟨m', held', faults'⟩ := l'
  obtain ⟨rfl, rfl⟩ : m' = m ∧ held' = held := ⟨h.manager, h.held⟩
  cases ev with
  | release x =>
    by_cases hx : x ∈ held'
    · simp only [Lending.next, if_pos hx]
      exact ⟨rfl, rfl⟩
    · simp only [Lending.next, if_neg hx]
      exact ⟨rfl, rfl⟩
  | _ => exact ⟨rfl, rfl⟩

theorem after (h : SameLending l l') (mes : List ManagerEvent) : SameLending (l.after mes) (l'.after mes) := by
  induction mes generalizing l l' with
  | nil => exact h
  | cons ev mes ih => exact ih (h.next ev)

end Lending.SameLending

/-- The backend replies to a task, which goes on at once. -/
def ManagerEvent.IsReply : ManagerEvent → Prop
  | .answerNow .. => True
  | _ => False

theorem ManagerEvent.IsReply.favours {ev : ManagerEvent} (h : ev.IsReply) : ev.favours = false := by
  cases ev with
  | favour t => exact h.elim
  | _ => rfl

/-- A subscription is made by the manager that the service needs for it. -/
theorem Service.subscribe_eq_ok {x y : Service} {operation : String} {vars : Except Error Struct}
    {react : Delivery → Reaction} {task : TaskId} (h : x.subscribe operation vars react = .ok (y, task)) :
    ∃ v z, vars = .ok v ∧ x.components = .ok z ∧
      y = { z with queries := (z.queries.subscribe ⟨operation, v⟩ true react).1 } ∧
      task = (z.queries.subscribe ⟨operation, v⟩ true react).2 := by
  obtain ⟨v, rfl, hv⟩ := Station.bind_eq_ok h
  obtain ⟨z, hz, hy⟩ := Station.bind_eq_ok hv
  exact ⟨v, z, rfl, hz, (congrArg Prod.fst (Except.ok.inj hy)).symm,
    (congrArg Prod.snd (Except.ok.inj hy)).symm⟩

namespace Station

variable {s s' s'' : Station} {mes more : List ManagerEvent} {es : List ServiceEvent} {ev : ServiceEvent}

/-! ## Replies -/

/-- **The queries of a service go through some events,** with the leases that users hold. -/
def Undergoes (s : Station) (mes : List ManagerEvent) (s' : Station) : Prop :=
  (s.lending.after mes).SameLending s'.lending

theorem Undergoes.trans (h : Undergoes s mes s') (h' : Undergoes s' more s'') :
    Undergoes s (mes ++ more) s'' := by
  unfold Undergoes
  rw [Lending.after_append]
  exact (h.after more).trans h'

/-- The queries of a service go through replies. -/
def Heeds (s s' : Station) : Prop := ∃ mes, (∀ ev ∈ mes, ev.IsReply) ∧ Undergoes s mes s'

namespace Heeds

/-- Nothing happens to the queries. -/
theorem of_eq (h : s'.service.queries = s.service.queries) (hheld : s'.held = s.held) : Heeds s s' :=
  ⟨[], by simp, h, hheld⟩

theorem refl (s : Station) : Heeds s s := of_eq rfl rfl

theorem trans (h : Heeds s s') (h' : Heeds s' s'') : Heeds s s'' := by
  obtain ⟨mes, hmes, hm⟩ := h
  obtain ⟨more, hmore, hm'⟩ := h'
  exact ⟨mes ++ more, List.forall_mem_append.2 ⟨hmes, hmore⟩, hm.trans hm'⟩

theorem foldl {β : Type} {f : Station → β → Station} (h : ∀ s x, Heeds s (f s x)) (xs : List β) :
    ∀ s, Heeds s (xs.foldl f s) := by
  induction xs with
  | nil => exact refl
  | cons x xs ih => exact fun s => (h s x).trans (ih (f s x))

theorem replyNow (s : Station) (client : Client) (result : Except Error OperationResult) :
    Heeds s (s.replyNow client result) := by
  cases client with
  | task id =>
    refine ⟨[.answerNow id (.returned result)], by simp [ManagerEvent.IsReply], ?_, rfl⟩
    unfold Station.replyNow Station.lending
    rw [service_setLending]
    rfl
  | execution id =>
    refine of_eq ?_ rfl
    unfold Station.replyNow
    rw [service_setMutations]

theorem callWeb (t : RestTransport) (s : Station) (order : Order) : Heeds s (Station.callWeb t s order) := by
  unfold Station.callWeb
  split
  · exact replyNow s _ _
  · exact of_eq rfl rfl

theorem goOn (s : Station) (x : WebCall) : Heeds s (s.goOn x) := by
  unfold Station.goOn
  split
  swap
  · exact refl s
  unfold proceed
  split
  · exact replyNow s _ _
  · exact of_eq rfl rfl

theorem settle (s : Station) : Heeds s s.settle := by
  have hadvance : Heeds s s.advance :=
    (show Heeds s { s with calls := s.calls.filter fun x => (s.ended? x).isNone } from
      of_eq rfl rfl).trans (foldl goOn _ _)
  exact hadvance.trans (of_eq rfl rfl)

/-- **Calls of the backend begin.** -/
theorem heed (s : Station) (before : Service) : Heeds s (s.heed before) := by
  unfold Station.heed
  split
  · exact (foldl (callWeb _) _ s).trans (settle _)
  · exact settle s

/-- **The web answers a call.** -/
theorem respond (s : Station) (place : ℕ) (answer : HttpAnswer) : Heeds s (s.respond place answer) := by
  unfold Station.respond
  split
  · exact refl s
  rename_i x _
  split
  · exact refl s
  rename_i token _
  have hreply : ∀ {s₁ : Station}, Heeds s s₁ →
      Heeds s (s₁.replyNow x.order.client (x.complete token answer).result).settle :=
    fun h => (h.trans (replyNow _ _ _)).trans (settle _)
  by_cases hr : (x.complete token answer).refused
  · simp only [hr, if_true]
    exact hreply (of_eq rfl rfl)
  · simp only [hr]
    exact hreply (of_eq rfl rfl)

end Heeds

/-! ## Events -/

/-- **What the queries go through in a run,** and who asks for it: they end when the service is closed, and a
subscription's handle is given up by users. The order of the queue is kept. -/
structure Endures (es : List ServiceEvent) (mes : List ManagerEvent) (s s' : Station) : Prop where
  undergoes : Undergoes s mes s'
  cancelled : .cancel ∈ mes → s'.service.closed
  unsubscribed : ∀ t, .unsubscribe t ∈ mes → .queries (.unsubscribe t) ∈ es
  inOrder : ∀ ev ∈ mes, ev.favours = false

/-- An event that the queries go through, and replies, which ask for no end. -/
theorem Endures.of_cons {first : ManagerEvent} {replies : List ManagerEvent}
    (h : Undergoes s (first :: replies) s') (hreplies : ∀ ev ∈ replies, ev.IsReply)
    (hcancel : first ≠ .cancel) (hun : ∀ t, first = .unsubscribe t → .queries (.unsubscribe t) ∈ es)
    (hfirst : first.favours = false) : ∃ mes, Endures es mes s s' := by
  refine ⟨_, h, fun hmem => ?_, fun t hmem => ?_, List.forall_mem_cons.2 ⟨hfirst, fun ev hev => ?_⟩⟩
  · rcases List.mem_cons.1 hmem with heq | hmem
    · exact absurd heq.symm hcancel
    · exact (hreplies _ hmem).elim
  · rcases List.mem_cons.1 hmem with heq | hmem
    · exact hun t heq.symm
    · exact (hreplies _ hmem).elim
  · exact (hreplies ev hev).favours

/-- An event that the queries go through, and what the backend then begins. -/
theorem Endures.of_heed {first : ManagerEvent} {before : Service} (h : Undergoes s [first] s')
    (hcancel : first ≠ .cancel) (hun : ∀ t, first = .unsubscribe t → .queries (.unsubscribe t) ∈ es)
    (hfirst : first.favours = false) : ∃ mes, Endures es mes s (s'.heed before) := by
  obtain ⟨replies, hreplies, hheed⟩ := Heeds.heed s' before
  exact of_cons (h.trans hheed) hreplies hcancel hun hfirst

theorem Endures.of_heeds (h : Heeds s s') : ∃ mes, Endures es mes s s' := by
  obtain ⟨mes, hmes, hm⟩ := h
  exact ⟨mes, hm, fun hmem => (hmes _ hmem).elim, fun t hmem => (hmes _ hmem).elim,
    fun ev hev => (hmes ev hev).favours⟩

/-- An operation that leaves the queries alone. -/
theorem Endures.operate {result : Except Error Service}
    (h : ∀ x, result = .ok x → x.queries = s.service.queries) : ∃ mes, Endures es mes s (s.operate result) := by
  cases result with
  | error e => exact of_heeds (.refl s)
  | ok x =>
    have hset : Heeds s (s.setService x) := .of_eq (by rw [service_setService]; exact h x rfl) rfl
    exact of_heeds (hset.trans (.heed _ _))

/-- An operation that brings a task. -/
theorem undergoes_setService {x : Service} {first : ManagerEvent} (hlends : first.lends = false)
    (h : x.queries = s.service.queries.step first) : Undergoes s [first] (s.setService x) := by
  have hnext : s.lending.next first = { s.lending with manager := s.lending.manager.step first } := by
    rcases s.lending.next_cases first with ⟨spec, rfl, -⟩ | ⟨y, -, rfl, -⟩ | ⟨y, -, rfl, -⟩ | ⟨-, heq⟩
    · exact nomatch hlends
    · exact nomatch hlends
    · exact nomatch hlends
    · exact heq
  unfold Undergoes
  rw [show s.lending.after [first] = s.lending.next first from rfl, hnext]
  refine ⟨?_, rfl⟩
  show (s.setService x).service.queries = _
  rw [service_setService, h]
  rfl

/-- **A new subscription** is an event that the queries go through, and replies. -/
theorem undergoes_subscribe {operation : String} {vars : Except Error Struct} {react : Delivery → Reaction}
    {x : Service} {task : TaskId} (h : s.service.subscribe operation vars react = .ok (x, task)) :
    ∃ v replies, vars = .ok v ∧ (∀ ev ∈ replies, ev.IsReply) ∧ s.service.closed = false ∧
      task = (s.service.queries.subscribe ⟨operation, v⟩ true react).2 ∧
      Undergoes s (.subscribe ⟨operation, v⟩ true react :: replies) (s.next (.subscribe operation vars react)) := by
  have hnext : s.next (.subscribe operation vars react) = (s.setService x).heed s.service := by
    show s.operate ((s.service.subscribe operation vars react).map Prod.fst) = _
    rw [h]
    rfl
  obtain ⟨v, z, rfl, hz, hx, htask⟩ := Service.subscribe_eq_ok h
  obtain ⟨replies, hreplies, hheed⟩ := Heeds.heed (s.setService x) s.service
  have hset : Undergoes s [.subscribe ⟨operation, v⟩ true react] (s.setService x) := by
    refine undergoes_setService rfl ?_
    rw [hx, ← Service.queries_of_components hz]
    rfl
  refine ⟨v, replies, rfl, hreplies, ?_, by rw [htask, Service.queries_of_components hz], ?_⟩
  · by_contra hclosed
    unfold Service.components at hz
    rw [if_pos (by simpa using hclosed)] at hz
    exact nomatch hz
  · rw [hnext]
    exact hset.trans hheed

/-- **What the queries go through in an event.** -/
theorem Endures.next (s : Station) (ev : ServiceEvent) : ∃ mes, Endures [ev] mes s (s.next ev) := by
  cases ev with
  | useEmulator host port =>
    refine operate fun x hx => ?_
    obtain ⟨-, -, hx⟩ := bind_eq_ok hx
    rw [← Except.ok.inj hx]
  | setGenerated generated =>
    refine operate fun x hx => ?_
    obtain ⟨-, -, hx⟩ := bind_eq_ok hx
    rw [← Except.ok.inj hx]
  | prepare => exact operate fun x hx => Service.queries_of_components hx
  | query operation vars =>
    show ∃ mes, Endures _ mes s (s.operate ((s.service.query operation vars).map Prod.fst))
    cases hx : s.service.query operation vars with
    | error e => exact of_heeds (.refl s)
    | ok x =>
      obtain ⟨v, -, hx⟩ := bind_eq_ok hx
      obtain ⟨z, hz, hx⟩ := bind_eq_ok hx
      obtain rfl := Except.ok.inj hx
      have hasked : (z.queries.ask (.leased ⟨operation, v⟩) {}).1 =
          s.service.queries.step (.ask (.leased ⟨operation, v⟩) {}) := by
        rw [← Service.queries_of_components hz]
        rfl
      exact of_heed (undergoes_setService (by rfl) hasked) (by simp) (by simp) rfl
  | mutate operation vars =>
    refine operate fun x hx => ?_
    obtain ⟨y, hy, rfl⟩ := map_eq_ok hx
    obtain ⟨v, -, hy⟩ := bind_eq_ok hy
    obtain ⟨z, hz, hy⟩ := bind_eq_ok hy
    rw [← Except.ok.inj hy]
    show z.queries = _
    exact Service.queries_of_components hz
  | subscribe operation vars react =>
    cases hx : s.service.subscribe operation vars react with
    | error e =>
      have hnext : s.next (.subscribe operation vars react) = s := by
        simp only [Station.next, Station.operate, hx]
        rfl
      rw [hnext]
      exact of_heeds (.refl s)
    | ok x =>
      obtain ⟨v, replies, -, hreplies, -, -, hundergoes⟩ := undergoes_subscribe hx
      exact of_cons hundergoes hreplies (by simp) (by simp) rfl
  | queries ev =>
    simp only [Station.next]
    split
    swap
    · exact of_heeds (.refl s)
    rename_i hallowed
    have hset : Undergoes s [ev] (s.setLending (s.lending.next ev)) := by
      refine ⟨?_, rfl⟩
      show (s.setLending _).service.queries = _
      rw [service_setLending]
      rfl
    refine of_heed hset ?_ ?_ ?_
    · rintro rfl
      simp [ManagerEvent.isAllowed] at hallowed
    · rintro t rfl
      exact List.mem_singleton_self _
    · cases ev with
      | favour u => simp [ManagerEvent.isAllowed] at hallowed
      | _ => rfl
  | mutations ev =>
    simp only [Station.next]
    split
    swap
    · exact of_heeds (.refl s)
    have hset : Heeds s (s.setMutations (s.service.mutations.step ev)) :=
      .of_eq (by rw [service_setMutations]) rfl
    exact of_heeds (hset.trans (.heed _ _))
  | auth ev =>
    have hset : Heeds s (s.setRealm (s.realm.step ev)) := .of_eq rfl rfl
    exact of_heeds (hset.trans (.settle _))
  | respond place answer => exact of_heeds (.respond s place answer)
  | close =>
    rcases s.close_cases with heq | ⟨-, heq⟩
    · refine ⟨[.cancel], ⟨?_, rfl⟩, fun _ => s.closed_close, by simp, by simp [ManagerEvent.favours]⟩
      show s.close.service.queries = _
      rw [heq]
      rfl
    · exact of_heeds (.of_eq (by rw [show s.next .close = s.close from rfl, heq]) rfl)

/-- **What the queries go through in a run.** -/
theorem InOrder.endures (h : s.InOrder) (es : List ServiceEvent) : ∃ mes, Endures es mes s (s.after es) := by
  induction es generalizing s with
  | nil => exact ⟨[], ⟨rfl, rfl⟩, by simp, by simp, by simp⟩
  | cons ev es ih =>
    have hstep : Steps (fun _ => True) s (s.next ev) := h.steps ev fun _ _ => trivial
    have hsound : (s.next ev).InOrder := ⟨hstep.evolves.proper, hstep.settled⟩
    obtain ⟨mes, hfirst⟩ := Endures.next s ev
    obtain ⟨more, hrest⟩ := ih hsound
    refine ⟨mes ++ more, hfirst.undergoes.trans hrest.undergoes, fun hmem => ?_, fun t hmem => ?_,
      List.forall_mem_append.2 ⟨hfirst.inOrder, hrest.inOrder⟩⟩
    · rcases List.mem_append.1 hmem with hmem | hmem
      · -- a closed service stays closed
        have hrun : Steps (fun _ => True) (s.next ev) ((s.next ev).after es) := hsound.run es fun _ _ => trivial
        exact (hrun.evolves.since (hfirst.cancelled hmem)).closed
      · exact hrest.cancelled hmem
    · rcases List.mem_append.1 hmem with hmem | hmem
      · rw [List.mem_singleton.1 (hfirst.unsubscribed t hmem)]
        exact List.mem_cons_self
      · exact List.mem_cons_of_mem _ (hrest.unsubscribed t hmem)

end Station

end QueryClient
