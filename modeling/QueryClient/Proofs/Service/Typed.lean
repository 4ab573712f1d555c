import QueryClient.Proofs.Manager.Active
import QueryClient.Proofs.Query.Handlers
import QueryClient.Proofs.Service.Undergone

/-!
# Subscriptions to typed results

A subscription to typed results is a subscription of the manager whose handlers decode. Its handlers are called
once for each result that the manager hands over, in the same order: with a value if the result can be decoded,
and with a failure else. A failure ends nothing, and nobody else can tell whether there was one.

* `Station.Reached`: a service that was made in any way and has run in any way.
* `Station.Embeds`, `Station.exists_embeds`: a subscription of a service is one of its manager.
* `Yields`, `Station.exists_yields`: what a subscription of a service hands over.
* `TypedOpening`: a subscription to typed results.
* `TypedOpening.Stream`, `typed_subscription`: **what its handlers are called with,** in every run.
* `typed_subscription_cinema`: three failures, and then a value.
-/

namespace QueryClient

/-- **What a subscription hands over** when the given results have been stored by its executor since. -/
structure Yields (w : Watched) (stored : List NumberedOutcome) (m : QueryManager) : Prop where
  results : ∃ e, m.executor? w.id = some e ∧ e.results = stored.reverse ++ w.old
  delivers : Delivers w stored m

namespace Station

variable {s : Station} {operation : String} {vars : Except Error Struct} {react : Delivery → Reaction}
  {x : Service} {task : TaskId}

/-! ## Subscriptions of a service -/

/-- The service was made in some way, and has run in some way since. -/
def Reached (s : Station) : Prop := ∃ d id, ∃ h : Founded d id, ∃ before, s = (found h).after before

/-- Nothing has happened to the queries of a service that was just made. -/
theorem same_found {d : Directory} {id : ServiceId} (h : Founded d id) :
    ({} : Lending).SameLending (found h).lending := by
  obtain ⟨x, hx, hfresh⟩ := h.fresh
  have hservice : (found h).service = x := Option.some.inj ((found h).getElem?_service.symm.trans hx)
  refine ⟨?_, rfl⟩
  show (found h).service.queries = {}
  rw [hservice, hfresh.queries]

/-- **A subscription of a service is one of its manager:** what the queries have gone through before, and what
they go through after it. -/
structure Embeds (s : Station) (es : List ServiceEvent) (s' : Station) (o : Opening)
    (mes : List ManagerEvent) : Prop where
  before : (({} : Lending).after o.before).manager = s.service.queries
  after : (o.lending.after mes).manager = s'.service.queries
  cancelled : .cancel ∈ o.before ++ mes → s'.service.closed
  unsubscribed : .unsubscribe o.task ∈ mes → .queries (.unsubscribe o.task) ∈ es
  inOrder : ∀ ev ∈ mes, ev.favours = false

theorem exists_embeds (hs : s.Reached) (hsub : s.service.subscribe operation vars react = .ok (x, task))
    (es : List ServiceEvent) : ∃ v o mes, vars = .ok v ∧ o.spec = ⟨operation, v⟩ ∧ o.react = react ∧
      o.task = task ∧ Embeds s es ((s.next (.subscribe operation vars react)).after es) o mes := by
  obtain ⟨d, id, hfounded, before, rfl⟩ := hs
  have hsound := (InOrder.found hfounded).after before
  obtain ⟨earlier, hearlier⟩ := (InOrder.found hfounded).endures before
  obtain ⟨v, replies, rfl, hreplies, hopen, htask, hundergoes⟩ := undergoes_subscribe hsub
  have hnext : Steps (fun _ => True) ((found hfounded).after before) _ :=
    hsound.steps (.subscribe operation (.ok v) react) fun _ _ => trivial
  obtain ⟨later, hlater⟩ := (⟨hnext.evolves.proper, hnext.settled⟩ : InOrder _).endures es
  have hbefore := ((same_found hfounded).after earlier).trans hearlier.undergoes
  have hafter := (hbefore.after _).trans (hundergoes.trans hlater.undergoes)
  refine ⟨v, ⟨earlier, ⟨operation, v⟩, true, react⟩, replies ++ later, rfl, rfl, rfl, ?_,
    hbefore.manager.symm, hafter.manager.symm, fun hmem => ?_, fun hmem => ?_,
    List.forall_mem_append.2 ⟨fun ev hev => (hreplies ev hev).favours, hlater.inOrder⟩⟩
  · rw [htask]
    show (QueryManager.subscribe _ _ _ _).2 = _
    rw [← hbefore.manager]
    rfl
  · rcases List.mem_append.1 hmem with hmem | hmem
    · -- the service was open, so that its manager had not ended
      rw [hearlier.cancelled hmem] at hopen
      exact nomatch hopen
    · rcases List.mem_append.1 hmem with hmem | hmem
      · exact (hreplies _ hmem).elim
      · exact hlater.cancelled hmem
  · rcases List.mem_append.1 hmem with hmem | hmem
    · exact (hreplies _ hmem).elim
    · exact hlater.unsubscribed _ hmem

/-! ## What a subscription is owed -/

/-- The subscription was made as said, when its executor had stored and remembered what is given. -/
structure Starts (s : Station) (operation : String) (vars : Except Error Struct) (react : Delivery → Reaction)
    (task : TaskId) (w : Watched) : Prop where
  task : w.task = task
  react : w.react = react
  executor : ∃ v e₀, vars = .ok v ∧ w.id = (s.service.queries.acquire ⟨operation, v⟩).2.id ∧
    (s.service.queries.acquire ⟨operation, v⟩).1.executor? w.id = some e₀ ∧
    w.old = e₀.results ∧ w.replay = e₀.remembered

/-- **A subscription of a service hands over** what was remembered when it was made, and what is stored
since. -/
theorem exists_yields (hs : s.Reached) (hsub : s.service.subscribe operation vars react = .ok (x, task))
    (es : List ServiceEvent) : ∃ w stored, s.Starts operation vars react task w ∧
      Yields w stored ((s.next (.subscribe operation vars react)).after es).service.queries := by
  obtain ⟨v, o, mes, hvars, hspec, hreact, htask, hembeds⟩ := exists_embeds hs hsub es
  obtain ⟨e₀, he₀, hdelivers⟩ := o.delivers_remembered
  obtain ⟨e, he, stored, hres, hstream⟩ := hdelivers mes hembeds.inOrder
  rw [hembeds.after] at he hstream
  have hlease : o.lease = (s.service.queries.acquire ⟨operation, v⟩).2 := by
    unfold Opening.lease
    rw [hembeds.before, hspec]
  rw [hembeds.before, hspec] at he₀
  exact ⟨o.watched e₀, stored, ⟨htask, hreact, v, e₀, hvars, congrArg Lease.id hlease, he₀, rfl, rfl⟩,
    ⟨e, he, hres⟩, hstream⟩

/-- What the executor of a new subscription has stored is what it had stored before. -/
theorem Starts.old_eq {w : Watched} {e : Executor} (h : s.Starts operation vars react task w)
    (he : s.service.queries.executor? w.id = some e) : w.old = e.results := by
  obtain ⟨v, e₀, -, -, he₀, hold, -⟩ := h.executor
  obtain ⟨e', he', heq⟩ := (LeaseStep.acquire s.service.queries ⟨operation, v⟩).kept w.id e he
  obtain rfl := Option.some.inj (he₀.symm.trans he')
  rw [hold]
  rcases heq with rfl | rfl <;> rfl

end Station

/-! ## Typed results -/

/-- A subscription to typed results of a service. -/
structure TypedOpening (α : Type) where
  /-- The service when the subscription is made. -/
  station : Station
  operation : String
  vars : Except Error Struct
  target : Target α
  handlers : HandlerPair (QueryResult α) Reaction

namespace TypedOpening

variable {α : Type} {o : TypedOpening α} {task : TaskId} {es : List ServiceEvent} {x : Service}

/-- What the handlers do that the manager calls. -/
def react (o : TypedOpening α) : Delivery → Reaction := (o.handlers.decoding o.operation o.target).react

/-- The service in a run after the subscription was made. -/
def after (o : TypedOpening α) (es : List ServiceEvent) : Station :=
  (o.station.next (.subscribe o.operation o.vars o.react)).after es

/-- The queries of the service in such a run. -/
def queries (o : TypedOpening α) (es : List ServiceEvent) : QueryManager := (o.after es).service.queries

/-- What the handlers of typed results are called with for results. -/
def calls (o : TypedOpening α) (ds : List Delivery) : List (HandlerCall (QueryResult α)) :=
  ds.map (typedCall o.operation o.target)

/-- **What the handlers of typed results are called with,** when the given results have been stored since the
subscription was made. -/
structure Stream (o : TypedOpening α) (task : TaskId) (es : List ServiceEvent) (w : Watched)
    (stored : List NumberedOutcome) : Prop where
  starts : o.station.Starts o.operation o.vars o.react task w
  /-- The manager's subscription hands over what was remembered when it was made, and what has been stored
  since. -/
  yields : Yields w stored (o.queries es)
  /-- **One for one:** the calls of its handlers, which decode, are calls of the handlers of typed results. -/
  mirrored : ∀ (ρ : Type) (h : HandlerPair (QueryResult α) ρ),
    (((o.queries es).handed task).map fun d => (h.decoding o.operation o.target).call (untypedCall d)) =
      (o.calls ((o.queries es).handed task)).map h.call
  inOrder : o.calls ((o.queries es).handed task) <+: o.calls (w.expected stored)
  /-- Each is what the result is to somebody who wants such a value, and a caller is told the same of it. -/
  read : ∀ d : Delivery, ∃ read, Reads o.operation o.target d.outcome.value.result read ∧
    typedCall o.operation o.target d = .ofResult (read.map fun value =>
      ⟨value, d.source, d.outcome.number, d.outcome.value.request⟩) ∧
    typedQuery o.operation o.target d.outcome = read.map fun value =>
      ⟨value, .server, d.outcome.number, d.outcome.value.request⟩
  /-- **No failure ends the subscription:** unless its handle is given up or the service is closed, it goes on,
  and misses nothing. -/
  goesOn : (∀ c ∈ o.calls ((o.queries es).handed task), (o.handlers.call c).unsubscribes = false) →
    .queries (.unsubscribe task) ∉ es → (o.after es).service.closed = false →
      (o.queries es).isActive task ∧ .completed ∉ (o.queries es).said task ∧
        (task ∉ (o.queries es).queue →
          o.calls ((o.queries es).handed task) = o.calls (w.expected stored))
  /-- **Others get the same:** who subscribes later, to whatever type, is owed what is stored from then on; and if
  it is to the same live query, this is the last of what this subscription is owed. -/
  shared : ∀ mid operation vars react later x u, es = mid ++ .subscribe operation vars react :: later →
    (o.after mid).service.subscribe operation vars react = .ok (x, u) →
      ∃ w' stored', (o.after mid).Starts operation vars react u w' ∧ Yields w' stored' (o.queries es) ∧
        (w'.id = w.id → stored' <:+ stored)
  /-- **Nobody else notices a failure:** the service is the same whatever the results are decoded into, as long
  as the handlers do the same about each. -/
  unnoticed : ∀ (β : Type) (target : Target β) (handlers : HandlerPair (QueryResult β) Reaction),
    (∀ d, handlers.call (typedCall o.operation target d) = o.handlers.call (typedCall o.operation o.target d)) →
      ∀ more, { o with target, handlers : TypedOpening β }.after more = o.after more

/-- Handlers of typed results do what they do when called with one. -/
theorem react_eq (o : TypedOpening α) (d : Delivery) :
    o.react d = o.handlers.call (typedCall o.operation o.target d) := o.handlers.call_decoding d

theorem after_congr {β : Type} (o : TypedOpening α) (o' : TypedOpening β) (hstation : o'.station = o.station)
    (hoperation : o'.operation = o.operation) (hvars : o'.vars = o.vars) (hreact : ∀ d, o'.react d = o.react d)
    (more : List ServiceEvent) : o'.after more = o.after more := by
  unfold after
  rw [hstation, hoperation, hvars, funext hreact]

/-- **The subscription goes on** in a run in which nobody ends it. -/
theorem goesOn (hs : o.station.Reached) (hcalm : ∀ c, (o.handlers.call c).panics = false)
    (hsub : o.station.service.subscribe o.operation o.vars o.react = .ok (x, task))
    (hkept : ∀ d ∈ (o.queries es).handed task, (o.react d).unsubscribes = false)
    (hun : .queries (.unsubscribe task) ∉ es) (hopen : (o.after es).service.closed = false) :
    (o.queries es).isActive task ∧ .completed ∉ (o.queries es).said task := by
  obtain ⟨v, p, mes, -, -, hreact, rfl, hembeds⟩ := Station.exists_embeds hs hsub es
  have hm : (p.lending.after mes).manager = o.queries es := hembeds.after
  have hactive : (o.queries es).isActive p.task := by
    rw [← hm, p.isActive_iff mes, hm, hreact]
    refine ⟨fun hmem => hun (hembeds.unsubscribed hmem), hkept, fun hmem => ?_⟩
    have hclosed : (o.after es).service.closed = true := hembeds.cancelled hmem
    rw [hclosed] at hopen
    exact nomatch hopen
  obtain ⟨s, htask, hshows⟩ := p.exists_shows mes
  rw [hm] at htask hshows
  have hrun := hshows.running htask hactive fun d _ => by
    rw [hreact, react_eq]
    exact hcalm _
  exact ⟨hactive, (hshows.calm hrun).1⟩

/-- Somebody subscribes in a run. -/
theorem after_subscribe (o : TypedOpening α) (mid later : List ServiceEvent) (operation : String)
    (vars : Except Error Struct) (react : Delivery → Reaction) :
    o.after (mid ++ .subscribe operation vars react :: later) =
      ((o.after mid).next (.subscribe operation vars react)).after later :=
  Station.after_append _ mid _

theorem reached_after (hs : o.station.Reached) (es : List ServiceEvent) : (o.after es).Reached := by
  obtain ⟨d, id, h, before, heq⟩ := hs
  refine ⟨d, id, h, before ++ .subscribe o.operation o.vars o.react :: es, ?_⟩
  rw [Station.after_append, ← heq]
  rfl

/-- **Who subscribes later to the same live query** is owed the last of what is owed to this subscription. -/
theorem shared {w : Watched} {stored : List NumberedOutcome} {mid later : List ServiceEvent} {operation : String}
    {vars : Except Error Struct} {react : Delivery → Reaction} {u : TaskId} {y : Service}
    (hs : o.station.Reached) (hsub : o.station.service.subscribe o.operation o.vars o.react = .ok (x, task))
    (hstarts : o.station.Starts o.operation o.vars o.react task w)
    (hyields : Yields w stored (o.queries (mid ++ .subscribe operation vars react :: later)))
    (hsub' : (o.after mid).service.subscribe operation vars react = .ok (y, u)) :
    ∃ w' stored', (o.after mid).Starts operation vars react u w' ∧
      Yields w' stored' (o.queries (mid ++ .subscribe operation vars react :: later)) ∧
      (w'.id = w.id → stored' <:+ stored) := by
  obtain ⟨w', stored', hstarts', hyields'⟩ := Station.exists_yields (reached_after hs mid) hsub' later
  rw [← after_subscribe] at hyields'
  refine ⟨w', stored', hstarts', hyields', fun hid => ?_⟩
  -- what this subscription was owed until then
  obtain ⟨w₁, between, hstarts₁, ⟨e₁, he₁, hres₁⟩, -⟩ := Station.exists_yields hs hsub mid
  obtain ⟨v, f, hvars, hwid, hf, hold, -⟩ := hstarts.executor
  obtain ⟨v₁, f₁, hvars₁, hwid₁, hf₁, hold₁, -⟩ := hstarts₁.executor
  obtain rfl := Except.ok.inj (hvars.symm.trans hvars₁)
  have hsame : w₁.id = w.id := hwid₁.trans hwid.symm
  rw [hsame] at hf₁ he₁
  obtain rfl := Option.some.inj (hf.symm.trans hf₁)
  obtain ⟨e, he, hres⟩ := hyields.results
  obtain ⟨e', he', hres'⟩ := hyields'.results
  rw [hid] at he'
  obtain rfl := Option.some.inj (he.symm.trans he')
  have hold' : w'.old = e₁.results := hstarts'.old_eq (by rw [hid]; exact he₁)
  refine ⟨between, ?_⟩
  rw [hres, hold', hres₁, hold, hold₁, ← List.append_assoc, List.append_cancel_right_eq,
    ← List.reverse_append] at hres'
  exact (List.reverse_inj.1 hres').symm

end TypedOpening

open TypedOpening

/-- **The handlers of a subscription to typed results mirror the manager's subscription,** in every run of a
service, if they do not panic. -/
theorem typed_subscription {α : Type} (o : TypedOpening α) (hs : o.station.Reached)
    (hcalm : ∀ c, (o.handlers.call c).panics = false) {x : Service} {task : TaskId}
    (hsub : o.station.service.subscribe o.operation o.vars o.react = .ok (x, task)) (es : List ServiceEvent) :
    ∃ w stored, o.Stream task es w stored := by
  obtain ⟨w, stored, hstarts, hyields⟩ := Station.exists_yields hs hsub es
  have hstream : Delivers w stored (o.queries es) := hyields.delivers
  have hpre := hstream.isPrefix
  have hcomplete := hstream.complete
  rw [hstarts.task] at hpre hcomplete
  exact ⟨w, stored,
    { starts := hstarts
      yields := hyields
      mirrored := fun ρ h => by
        unfold calls
        rw [List.map_map]
        exact List.map_congr_left fun d _ => h.call_decoding d
      inOrder := hpre.map _
      read := reads_calls o.operation o.target
      goesOn := fun hkept hun hopen => by
        have hkept' : ∀ d ∈ (o.queries es).handed task, (o.react d).unsubscribes = false := fun d hd => by
          rw [react_eq]
          exact hkept _ (List.mem_map_of_mem hd)
        obtain ⟨hactive, hsilent⟩ := TypedOpening.goesOn hs hcalm hsub hkept' hun hopen
        refine ⟨hactive, hsilent, fun hq => congrArg o.calls (hcomplete hq hactive fun d _ => ?_)⟩
        rw [hstarts.react, react_eq]
        exact hcalm _
      shared := fun mid operation vars react later y u hes hsub' => by
        subst hes
        exact TypedOpening.shared hs hsub hstarts hyields hsub'
      unnoticed := fun β target handlers hsame more => by
        refine after_congr o { o with target, handlers } rfl rfl rfl (fun d => ?_) more
        rw [react_eq, react_eq]
        exact hsame d }⟩

/-- The movies of the cinema are counted. -/
def counting : TypedOpening Int where
  station := Station.found (.given cinema cinemaOptions)
  operation := "CountMovies"
  vars := .ok []
  target := ⟨"i64", .int64⟩
  handlers := ({} : Handlers).reactions

/-- The backend answers the call of a task. -/
def answered (task : TaskId) (result : Except Error OperationResult) : List ServiceEvent :=
  [.queries .poll, .queries .poll, .queries .poll, .queries (.answer task (.returned result)),
    .queries .poll, .queries .poll, .queries .poll]

/-- Data that is no number, a listed error, a failure of the network, and seven movies. -/
def countingRun : List ServiceEvent :=
  answered 2 (.ok { data := some (.str "many") }) ++
    .query "CountMovies" (.ok []) :: answered 4 (.ok { data := some (.int 7), errors := [⟨"stale", []⟩] }) ++
    .query "CountMovies" (.ok []) :: answered 6 (.error .unauthorized) ++
    .query "CountMovies" (.ok []) :: answered 8 (.ok { data := some (.int 7) })

/-- The count, or the code of the failure. -/
def countOf : HandlerCall (QueryResult Int) → Except ErrorCode Int
  | .next result => .ok result.data
  | .error e => .error e.code

/-- Three failures, and then a count. -/
theorem typed_subscription_cinema :
    (counting.calls ((counting.queries countingRun).handed 1)).map countOf =
      [.error .decode, .error .operationFailed, .error .unauthorized, .ok 7] ∧
    (counting.queries countingRun).isActive 1 ∧ ∃ w stored, counting.Stream 1 countingRun w stored := by
  obtain ⟨x, hsub⟩ : ∃ x, counting.station.service.subscribe counting.operation counting.vars counting.react =
    .ok (x, 1) := ⟨_, rfl⟩
  exact ⟨by decide +kernel, by decide +kernel, typed_subscription counting ⟨_, _, .given cinema cinemaOptions, [], rfl⟩
    (fun c => by cases c <;> rfl) hsub countingRun⟩

end QueryClient
