import QueryClient.Proofs.Manager.Watch
import QueryClient.Query.Result

/-!
# Subscriptions get every result

A subscription hands over what its executor had stored when it was created, and then every result
that is stored later: each once, in order, and without a gap.

* `QueryManager.published`: the results that an executor stores along a run.
* `run_published`: nothing else becomes of its results.
* `subscribe_watch`: a new subscription is watched.
* `Delivers`, `subscription_delivery`: **what a subscription hands over,** for every run of a manager in which
  the order of the queue is kept.
* `subscription_delivery_asked`: a result that is asked for on subscribing.
-/

namespace QueryClient

/-- What an executor remembers: the last success, and then the last result if that is newer. -/
def Executor.remembered (e : Executor) : List NumberedOutcome :=
  e.lastSuccess.toList ++
    (e.last.filter fun r => e.lastSuccess.all fun success => success.number < r.number).toList

namespace QueryManager

/-- What an executor stored between two states, if it stored something. -/
def publishes (m m' : QueryManager) (id : InstanceId) : List NumberedOutcome :=
  if (m.executor? id).map (·.version) = (m'.executor? id).map (·.version) then []
  else ((m'.executor? id).bind (·.last)).toList

/-- **What an executor stores along a run,** in order. -/
def published (id : InstanceId) : QueryManager → List ManagerEvent → List NumberedOutcome
  | _, [] => []
  | m, ev :: es => m.publishes (m.step ev) id ++ published id (m.step ev) es

end QueryManager

/-- A subscription, and what there was when it was created. -/
structure Watched where
  task : TaskId
  id : InstanceId
  react : Delivery → Reaction
  /-- What the executor had stored, the latest first. -/
  old : List NumberedOutcome
  /-- What of this is handed over. -/
  replay : List NumberedOutcome

namespace Watched

/-- **All that is to be handed over** when the given results have been stored since, in order. -/
def expected (w : Watched) (stored : List NumberedOutcome) : List Delivery :=
  w.replay.map (⟨·, .cache⟩) ++ stored.map (⟨·, .server⟩)

/-- The order of the queue is kept from the beginning. -/
def follower (w : Watched) : Follower := ⟨w.task, w.id, w.react, w.old, [], w.replay.map (⟨·, .cache⟩)⟩

end Watched

variable {w : Watched} {m m' : QueryManager} {id : InstanceId} {e : Executor}

theorem replay_eq (e : Executor) : Updates.replay e = e.remembered := by
  unfold Updates.replay Executor.remembered
  cases hs : e.lastSuccess with
  | none =>
    cases hl : e.last with
    | none => rfl
    | some last => simp [Option.filter_some]
  | some success =>
    cases hl : e.last with
    | none => rfl
    | some last =>
      by_cases hlt : success.number < last.number <;>
        simp [Sequenced.isNewerThan, Option.filter_some, hlt]

/-! ## What is stored along a run -/

theorem step_executor (hok : ManagerOK m) (he : m.executor? id = some e) (ev : ManagerEvent) :
    ∃ e', (m.step ev).executor? id = some e' ∧
      (e'.results = e.results ∨ ∃ o, e'.results = o :: e.results) := by
  have hfrom : ∀ {t : TaskId} {b : Bool} {m₀ m₁ : QueryManager}, m₀.executor? id = some e →
      Effect t m₀ b m₁ → Queued m₁ (m.step ev) → ∃ e', (m.step ev).executor? id = some e' ∧
        (e'.results = e.results ∨ ∃ o, e'.results = o :: e.results) := by
    intro t b m₀ m₁ he hf hq
    obtain ⟨e', he', hres⟩ := hf.executor he
    exact ⟨e', hq.executor.trans he', hres.imp_right And.right⟩
  by_cases hev : ev.IsOutside
  · obtain ⟨b, m₁, hf, hq, -⟩ := step_effect hok hev 0
    exact hfrom he hf hq.toQueued
  cases ev with
  | poll =>
    cases hq : m.queue with
    | nil => exact ⟨e, by rw [show m.step .poll = m from poll_nil hq]; exact he, .inl rfl⟩
    | cons t rest =>
      obtain ⟨b, m₁, hf, hpoll⟩ := poll_effect hok hq
      have he' : m.taken.executor? id = some e := he
      exact hfrom he' hf (by rw [show m.step .poll = m₁.wake from hpoll]; exact .wake m₁)
  | favour u => exact hfrom (t := 0) he .refl (.favour m u)
  | abort u =>
    obtain ⟨m₁, hf, hq⟩ := abort_effect m u
    exact hfrom he hf hq.toQueued
  | unsubscribe u =>
    obtain ⟨m₁, hf, hq⟩ := unsubscribe_effect m u
    exact hfrom he hf hq.toQueued
  | _ => exact absurd trivial hev

/-- **An executor's results are those it had and those it stored along the run.** -/
theorem run_published (es : List ManagerEvent) : ∀ {m : QueryManager} {e : Executor}, ManagerOK m →
    m.executor? id = some e → ∃ e', (m.run es).executor? id = some e' ∧
      e'.results = (m.published id es).reverse ++ e.results := by
  induction es with
  | nil => exact fun _ he => ⟨_, he, rfl⟩
  | cons ev es ih =>
    intro m e hok he
    obtain ⟨e₁, he₁, hres⟩ := step_executor hok he ev
    obtain ⟨e', he', hrun⟩ := ih (hok.step ev) he₁
    refine ⟨e', he', ?_⟩
    have hver : e.version = e.results.length := (hok.executor he).version
    have hver₁ : e₁.version = e₁.results.length := ((hok.step ev).executor he₁).version
    have hlast := ((hok.step ev).executor he₁).last
    have hpub : e₁.results = (m.publishes (m.step ev) id).reverse ++ e.results := by
      unfold QueryManager.publishes
      rw [he, he₁]
      rcases hres with hres | ⟨o, hres⟩
      · rw [if_pos (by simp [hver, hver₁, hres])]
        exact hres
      · rw [if_neg (by simp [hver, hver₁, hres])]
        rw [hres] at hlast
        simp [hlast, hres]
    show e'.results = (m.publishes (m.step ev) id ++ (m.step ev).published id es).reverse ++ e.results
    rw [hrun, hpub, List.reverse_append, List.append_assoc]

/-! ## A new subscription -/

theorem acquire_executor (hok : ManagerOK m) (spec : QuerySpec) :
    ∃ e, (m.acquire spec).1.executor? (m.acquire spec).2.id = some e := by
  unfold QueryManager.acquire Registry.acquire
  cases hc : m.registry.entry? spec.key with
  | none =>
    refine ⟨.ofSpec spec m.cancelled, ?_⟩
    simp [QueryManager.executor?, QueryManager.openInstance]
  | some c =>
    have hlt : c.object < m.lives.length := hok.registry _ (LeaseStep.mem_of_entry? hc)
    refine ⟨m.lives[c.object].executor, ?_⟩
    simp [QueryManager.executor?, Nat.ne_of_lt hlt, hlt]

/-- Nothing was handed over by a task that does not exist yet. -/
theorem handed_eq_nil (hok : ManagerOK m) {t : TaskId} (ht : m.tasks.length ≤ t) :
    m.handed t = [] := by
  refine List.filterMap_eq_nil_iff.2 fun n hn => ?_
  cases n with
  | handed u d =>
    have hne : u ≠ t := Nat.ne_of_lt (Nat.lt_of_lt_of_le (hok.handed u d hn) ht)
    simp [hne]
  | _ => rfl

theorem subscribe_watch (hok : ManagerOK m) (spec : QuerySpec) (executes : Bool)
    (react : Delivery → Reaction) (he : (m.acquire spec).1.executor? (m.acquire spec).2.id = some e) :
    (m.subscribe spec executes react).1.executor? (m.acquire spec).2.id = some e ∧
    Watch True (Watched.follower ⟨(m.subscribe spec executes react).2, (m.acquire spec).2.id, react, e.results,
      e.remembered⟩) (m.subscribe spec executes react).1 := by
  have hok' := (subscribe_effect (t := 0) m spec executes react).ok hok
  have hacq : ManagerOK (m.acquire spec).1 := (Calm.leases (t := 0) (.acquire m spec)).ok hok
  revert hok'
  unfold QueryManager.subscribe
  simp only [he]
  -- the caller that comes first, if there is one
  generalize hm₁ : (if executes = true then
    ((m.acquire spec).1.ask (.direct (m.acquire spec).2.id) {}).1 else (m.acquire spec).1) = m₁
  have hm₁' : ManagerOK m₁ ∧ m₁.executor? (m.acquire spec).2.id = some e := by
    rw [← hm₁]
    split
    · exact ⟨(Calm.spawn (t := 0) _ (by simp)).ok hacq, he⟩
    · exact ⟨hacq, he⟩
  intro hok'
  have hread := Reading.open (hacq.executor he)
  refine ⟨hm₁'.2, hok', e, ⟨(m.acquire spec).2, .open e, react, false, .running⟩, [], [], hm₁'.2, ?_,
    ⟨hread, rfl, rfl, ?_, fun hne => absurd rfl hne⟩, fun _ => ⟨by simp, by simp, by simp, fun _ _ => ?_⟩⟩
  · simp [QueryManager.spawn, Watched.follower]
  · have hnil : (m₁.spawn (.subscription ⟨(m.acquire spec).2, .open e, react, false, .running⟩)).1.handed
        m₁.tasks.length = [] := handed_eq_nil hm₁'.1 (Nat.le_refl _)
    have hbal : [] ++ (Updates.open e).owed [] = e.remembered.map (⟨·, .cache⟩) ++ [] := by
      rw [← replay_eq]
      simp [Updates.owed, Updates.open]
    show (∃ left, QueryManager.handed _ m₁.tasks.length ++ left = _) ∧
      (_ → QueryManager.handed _ m₁.tasks.length ++ _ = _)
    rw [hnil]
    exact ⟨⟨_, hbal⟩, fun _ => hbal⟩
  · exact List.mem_append_right _ (List.mem_singleton_self _)

/-! ## What a subscription hands over -/

/-- **What a subscription hands over** when the given results have been stored since it was
created. -/
structure Delivers (w : Watched) (stored : List NumberedOutcome) (m : QueryManager) : Prop where
  /-- What was handed over is the beginning of all that is to be: what was remembered, then what has
  been stored since. -/
  isPrefix : m.handed w.task <+: w.expected stored
  /-- It is all of it when the subscription does not wait to run, in particular when no task does,
  and has no reason to end: its handle is held, the manager is not cancelled, no handler panicked. -/
  complete : w.task ∉ m.queue → m.isActive w.task →
    (∀ d ∈ m.handed w.task, (w.react d).panics = false) → m.handed w.task = w.expected stored
  /-- The numbers increase. -/
  ordered : (m.handed w.task).Pairwise fun c d => c.outcome.number < d.outcome.number
  /-- Each is the result of an attempt of the executor, and goes to the handler it is for. -/
  handlers : ∀ d ∈ m.handed w.task, ∃ e, m.executor? w.id = some e ∧
    ∃ a ∈ e.attempts, a.stage = .settled d.outcome ∧
      (∀ data, d.outcome.value.result = .ok data →
        untypedCall d = .next ⟨a.number, ⟨a.request, data, d.source⟩⟩) ∧
      ∀ error, d.outcome.value.result = .error error → untypedCall d = .error error

namespace Watch

variable {stored : List NumberedOutcome}

/-- What is expected comes in order, from the results of the executor. -/
theorem expected_ordered (hok : ManagerOK m) (he : m.executor? w.id = some e)
    (hres : e.results = stored.reverse ++ w.old) (hsub : ∀ o ∈ w.replay, o ∈ w.old)
    (hord : w.replay.Pairwise fun o r => o.number < r.number) :
    (w.expected stored).Pairwise fun c d => c.outcome.number < d.outcome.number := by
  have hall := (hok.executor he).results_ordered
  rw [hres] at hall
  obtain ⟨hnew, -, hcross⟩ := List.pairwise_append.1 hall
  refine List.pairwise_append.2 ⟨?_, ?_, ?_⟩
  · exact List.Pairwise.map _ (fun o r hor => hor) hord
  · exact List.Pairwise.map _ (fun o r hor => hor) (List.pairwise_reverse.1 hnew)
  · intro c hc d hd
    obtain ⟨o, ho, rfl⟩ := List.mem_map.1 hc
    obtain ⟨r, hr, rfl⟩ := List.mem_map.1 hd
    exact hcross r (List.mem_reverse.2 hr) o (hsub o ho)

/-- **What a subscription has handed over** since it is followed, when the given results have been stored since:
the beginning of what is expected, and all of it when it does not wait to run and has no reason to end. -/
theorem hands_over {w : Follower} (h : Watch True w m) (he : m.executor? w.id = some e)
    (hres : e.results = stored.reverse ++ (w.before ++ w.old)) :
    m.handed w.task <+: w.expected stored ∧ (w.task ∉ m.queue → m.isActive w.task →
      (∀ d ∈ m.handed w.task, (w.react d).panics = false) → m.handed w.task = w.expected stored) := by
  obtain ⟨hok, f, s, unread, read, hf₀, hs, hf, ha⟩ := h
  obtain rfl : e = f := Option.some.inj (he.symm.trans hf₀)
  have hstored : (unread ++ read).reverse = stored := by
    have hreading := hf.reading.results
    rw [hres, List.append_assoc, List.append_assoc, ← List.append_assoc unread] at hreading
    rw [← List.append_cancel_right hreading, List.reverse_reverse]
  refine ⟨?_, fun hq hactive hpanics => ?_⟩
  · obtain ⟨left, hleft⟩ := hf.balance.1
    rw [hstored] at hleft
    exact ⟨left, hleft⟩
  have hcs : ¬ s.cancelled ∧ ¬ m.cancelled := by
    unfold QueryManager.isActive at hactive
    rw [hs] at hactive
    simpa using hactive
  have hrun : s.stage = .running := by
    by_contra hne
    rcases hf.ended hne with hc | hc | ⟨d, hd, hp⟩
    · exact hcs.1 hc
    · exact hcs.2 hc
    · rw [hpanics d hd] at hp
      simp at hp
  -- a subscription that is not queued has read everything
  have hready : ¬ s.updates.ready e := fun hr => hq ((ha hrun).queued trivial hr)
  rw [hf.reading.ready_iff (hok.executor he), not_or, not_not, not_not] at hready
  have hbal := hf.balance.2 hrun
  rw [hstored] at hbal
  rw [← hbal]
  simp [Updates.owed, hready.1, hready.2]

theorem delivers (h : Watch True w.follower m) (he : m.executor? w.id = some e)
    (hres : e.results = stored.reverse ++ w.old) (hsub : ∀ o ∈ w.replay, o ∈ w.old)
    (hord : w.replay.Pairwise fun o r => o.number < r.number) : Delivers w stored m := by
  obtain ⟨hpre, hcomplete⟩ : m.handed w.task <+: w.expected stored ∧ _ := h.hands_over he hres
  refine ⟨hpre, hcomplete, (expected_ordered h.ok he hres hsub hord).sublist hpre.sublist, fun d hd => ?_⟩
  have hmem : d.outcome ∈ e.results := by
    rw [hres]
    rcases List.mem_append.1 (hpre.mem hd) with hd | hd
    · obtain ⟨o, ho, rfl⟩ := List.mem_map.1 hd
      exact List.mem_append_right _ (hsub o ho)
    · obtain ⟨o, ho, rfl⟩ := List.mem_map.1 hd
      exact List.mem_append_left _ (List.mem_reverse.2 ho)
  obtain ⟨a, ha, hst⟩ := ExecutorOK.mem_results.1 hmem
  obtain ⟨hnum, hreq, -⟩ := (h.ok.executor he).outcome a ha d.outcome hst
  refine ⟨e, he, a, ha, hst, fun data hdata => ?_, fun error herror => ?_⟩
  · unfold untypedCall Outcome.update
    rw [hdata, hnum, hreq]
    rfl
  · unfold untypedCall Outcome.update
    rw [herror]
    rfl

end Watch

/-- **A subscription gets every result.** A manager runs in any way, a subscription is created, and
the manager runs on in any way, its tasks in the order in which they became ready: the subscription has
handed over the beginning of what was remembered when it was created and what has been stored since, and
all of it when nothing is left to do. -/
theorem subscription_delivery (s : Supply) (before : List ManagerEvent) (spec : QuerySpec)
    (executes : Bool) (react : Delivery → Reaction) (after : List ManagerEvent)
    (hafter : ∀ ev ∈ after, ev.favours = false) :
    let m₀ := ({ supply := s } : QueryManager).run before
    let m₁ := m₀.step (.subscribe spec executes react)
    let id := (m₀.acquire spec).2.id
    ∃ e, (m₀.acquire spec).1.executor? id = some e ∧
      Delivers ⟨(m₀.subscribe spec executes react).2, id, react, e.results, e.remembered⟩
        (m₁.published id after) (m₁.run after) := by
  intro m₀ m₁ id
  have hok₀ : ManagerOK m₀ := (ManagerOK.init s).run before
  obtain ⟨e, he⟩ := acquire_executor hok₀ spec
  obtain ⟨he₁, hwatch⟩ := subscribe_watch hok₀ spec executes react he
  have hacq : ManagerOK (m₀.acquire spec).1 := (Calm.leases (t := 0) (.acquire m₀ spec)).ok hok₀
  obtain ⟨e', he', hres⟩ := run_published after hwatch.ok he₁
  refine ⟨e, he, (hwatch.run after hafter).delivers he' hres (fun o ho => ?_) ?_⟩
  · exact mem_results_of_replay (hacq.executor he) (by rw [replay_eq]; exact ho)
  · rw [← replay_eq]
    exact replay_ordered e

/-- **A result that is asked for on subscribing** is handed over once it is there. -/
theorem subscription_delivery_asked :
    let after : List ManagerEvent := [.poll, .poll, .poll, .answer 2 (.returned (.ok {})), .poll, .poll]
    let m := ({} : QueryManager).step (.subscribe ⟨"Get", []⟩ true fun _ => {})
    (∀ ev ∈ after, ev.favours = false) ∧ ((m.run after).handed 1).map (·.source) = [.server] ∧
      ∃ e, (({} : QueryManager).acquire ⟨"Get", []⟩).1.executor? 0 = some e ∧
        Delivers ⟨1, 0, fun _ => {}, e.results, e.remembered⟩ (m.published 0 after) (m.run after) :=
  ⟨by decide, by decide +kernel, subscription_delivery {} [] ⟨"Get", []⟩ true (fun _ => {}) _ (by decide)⟩

end QueryClient
