import QueryClient.Proofs.Manager.Origins
import QueryClient.Proofs.Query.Keys

/-!
# Nobody gets another query's answer

Live queries are shared by key. As long as SHA-256 has no collision among the variables of a run's
queries, whoever is interested in a query gets what the backend replied to calls for this very query,
and whoever is interested in the same query shares its live query.

* `Stems`: a result comes from a call for the query, if it comes from a call.
* `Traced.stems`: results of an instance of the query's key do.
* `own_answers`: **nobody gets another query's answer,** in any run.
-/

namespace QueryClient

variable {m : QueryManager} {es : List ManagerEvent} {spec a b : QuerySpec} {t : TaskId}
variable {id : InstanceId} {e : Executor} {o : NumberedOutcome}

/-- **Where a result for a query comes from.** If calls of the backend were made under its request,
they were for the same query. It is a failure that the executor makes up itself, or what the backend
replied to such a call, the only one that its task made. -/
structure Stems (es : List ManagerEvent) (m : QueryManager) (spec : QuerySpec) (o : NumberedOutcome) :
    Prop where
  own : ∀ t spec', .called t spec' o.value.request ∈ m.journal → spec'.SameQuery spec
  source : o.value.IsOwn ∨ ∃ t spec', .called t spec' o.value.request ∈ m.journal ∧
    (∀ other r, .called t other r ∈ m.journal → other = spec' ∧ r = o.value.request) ∧
      Told es t (.returned o.value.result)

/-- What results there are of queries, and who shares live queries. -/
structure OwnAnswers (es : List ManagerEvent) (l : Lending) : Prop where
  /-- A caller gets a result for the query that it is interested in. -/
  returned : ∀ (t : TaskId) (c : Caller) (spec : QuerySpec) (o : NumberedOutcome),
    l.manager.tasks[t]? = some (.caller c) → c.addressee = .leased spec →
      c.stage = .ended (.returned o) → Stems es l.manager spec o
  /-- So does a subscription. -/
  handed : ∀ before spec executes react more d,
    es = before ++ .subscribe spec executes react :: more →
      .handed ((({} : Lending).after before).manager.subscribe spec executes react).2 d ∈
        l.manager.journal → Stems es l.manager spec d.outcome
  /-- Those who use the same query at one time share its live query, and no others do. -/
  shared : ∀ a ∈ namedQueries es, ∀ b ∈ namedQueries es, ∀ i j,
    l.Uses a i → l.Uses b j → (i = j ↔ a.SameQuery b)

namespace Traced

variable {P : TaskId → Reply → Prop} {S : QuerySpec → Prop}

/-- The calls under one request are for one query. -/
theorem called_eq (h : Traced P S m) (he : m.executor? id = some e) {a : Attempt} (ha : a ∈ e.attempts)
    (hn : .called t spec a.request ∈ m.journal) : spec = e.spec := by
  obtain ⟨i, f, hf, a', ha', hreq, rfl, -⟩ := h.origins.noted t spec _ hn
  obtain rfl := h.origins.apart i id f e a' a hf ha' he ha hreq
  rw [Option.some.inj (hf.symm.trans he)]

/-- A task makes one call. -/
theorem called_once (h : Traced P S m) {r r' : RequestId} (hn : .called t a r ∈ m.journal)
    (hn' : .called t b r' ∈ m.journal) : b = a ∧ r' = r := by
  obtain ⟨i, e, he, x, hx, rfl, rfl, htask⟩ := h.origins.noted t a r hn
  obtain ⟨j, f, hf, y, hy, rfl, rfl, htask'⟩ := h.origins.noted t b r' hn'
  rw [htask] at htask'
  obtain ⟨rfl, hnum⟩ := Task.attempt.inj (Option.some.inj htask')
  obtain rfl := Option.some.inj (he.symm.trans hf)
  rw [(h.ok.executor he).eq_of_number hx hy hnum]
  exact ⟨rfl, rfl⟩

/-- **Results of an instance of the query's key** come from calls for this query. -/
theorem stems (h : Traced (Told es) (· ∈ namedQueries es) m) (hno : NoCollision (namedQueries es))
    (hspec : spec ∈ namedQueries es) (he : m.executor? id = some e) (hk : e.key = spec.key)
    (ho : o ∈ e.results) : Stems es m spec o := by
  obtain ⟨x, hx, hst⟩ := ExecutorOK.mem_results.1 ho
  obtain ⟨-, hreq, -⟩ := (h.ok.executor he).outcome x hx o hst
  have hsame : e.spec.SameQuery spec := by
    refine same_of_key_eq hno (h.within.executors id e he) hspec ?_
    rw [← h.coherent.keyed id e he, hk]
  refine ⟨fun t spec' hn => ?_, ?_⟩
  · rw [hreq] at hn
    rw [h.called_eq he hx hn]
    exact hsame
  · cases h.origins.source id e he x hx with
    | settled hst' hsource =>
      obtain rfl := Stage.settled.inj (hst.symm.trans hst')
      refine hsource.imp_right fun ⟨t, hn, htold⟩ => ⟨t, e.spec, ?_, fun other r hn' => ?_, htold⟩
      · rw [hreq]
        exact hn
      · rw [hreq]
        exact h.called_once hn hn'
    | spawned hst' => simp [hst] at hst'
    | calling hst' => simp [hst] at hst'
    | answered hst' => simp [hst] at hst'
    | dead hst' => simp [hst] at hst'

end Traced

/-- The subscription that an event creates follows an instance of its query's key. -/
theorem subscription_of_subscribe {before more : List ManagerEvent} {executes : Bool}
    {react : Delivery → Reaction} (hes : es = before ++ .subscribe spec executes react :: more) :
    ∃ s, (({} : Lending).after es).manager.tasks[
        ((({} : Lending).after before).manager.subscribe spec executes react).2]? =
      some (.subscription s) ∧ s.lease.key = spec.key := by
  have hsound : (({} : Lending).after before).Sound := .after .init before
  obtain ⟨-, -, s, htask, hlease⟩ := subscribe_works hsound.coherent.registered spec executes react
  obtain ⟨s', htask', hlease'⟩ := (Retains.after (hsound.next (.subscribe spec executes react)) more).subscription htask
  refine ⟨s', ?_, by rw [hlease', hlease]; rfl⟩
  rw [hes, Lending.after_append]
  exact htask'

/-- **Nobody gets another query's answer.** -/
theorem own_answers (es : List ManagerEvent) (hno : NoCollision (namedQueries es)) :
    OwnAnswers es (({} : Lending).after es) := by
  have h := traced es
  have hsound : (({} : Lending).after es).Sound := .after .init es
  refine ⟨fun t c spec o htask haddr hst => ?_, fun before spec executes react more d hes hn => ?_,
    fun a ha b hb i j hi hj => ?_⟩
  · obtain ⟨id, lease, e, hasks, he, ho⟩ := (h.coherent.caller htask).returned o hst
    exact h.stems hno (h.within.callers t c spec htask haddr) he (hasks.key haddr he) ho
  · obtain ⟨s, htask, hkey⟩ := subscription_of_subscribe hes
    obtain ⟨s', e, htask', he, hd⟩ := h.origins.handed _ d hn
    obtain rfl := Task.subscription.inj (Option.some.inj (htask'.symm.trans htask))
    obtain ⟨e', he', hk, -⟩ := h.coherent.subscription htask
    obtain rfl := Option.some.inj (he.symm.trans he')
    refine h.stems hno ?_ he (hk.trans hkey) hd
    rw [hes]
    exact List.mem_filterMap.2 ⟨_, List.mem_append_right _ List.mem_cons_self, rfl⟩
  · rw [hsound.uses_eq_iff hi hj]
    exact ⟨same_of_key_eq hno ha hb, key_eq_of_same⟩

/-- A query that a subscription follows and a caller asks, with its members in another order; the
backend replies once. -/
def movieRun : List ManagerEvent :=
  [.subscribe ⟨"GetMovie", [("id", .int 1), ("year", .int 1999)]⟩ false fun _ => {},
    .ask (.leased ⟨"GetMovie", [("year", .int 1999), ("id", .int 1)]⟩) {},
    .poll, .poll, .poll, .answer 2 (.returned (.ok {})), .poll, .poll, .poll]

theorem own_answers_movieRun :
    NoCollision (namedQueries movieRun) ∧ OwnAnswers movieRun (({} : Lending).after movieRun) :=
  have hno : NoCollision (namedQueries movieRun) := by decide +kernel
  ⟨hno, own_answers movieRun hno⟩

end QueryClient
