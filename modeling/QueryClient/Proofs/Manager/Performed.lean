import QueryClient.Proofs.Manager.Work

/-!
# Events are made of acts

Every event is a sequence of acts: of the task whose turn it is, of one that a user turns to, or of
a user who takes or gives up a lease.

* `Performed`, `performed`: **every event is made of acts.**
* `Coherent.step`: all stays in its place.
-/

namespace QueryClient

variable {m m' m₁ : QueryManager} {b b' : Bench} {t u : TaskId} {given : Input}
variable {ev : ManagerEvent} {x y : Option Lease} {spec : QuerySpec}

/-! ## What users do to tasks -/

/-- A caller loses interest. -/
theorem abort_works (m : QueryManager) (u : TaskId) :
    ∃ m₁, Works u { drops := true } ⟨m, m.leaseOf? u, none⟩ m₁ ∧ Queued m₁ (m.abort u) := by
  have hrefl : Works u { drops := true } ⟨m, m.leaseOf? u, none⟩ m := .done rfl
  unfold QueryManager.abort
  cases htask : m.tasks[u]? with
  | none => exact ⟨m, hrefl, .refl _⟩
  | some z =>
    cases z with
    | caller c =>
      simp only
      cases hst : c.stage with
      | arriving =>
        have hpend : c.Pending := fun ending hend => by rw [hst] at hend; simp at hend
        have hnone : m.leaseOf? u = none := by
          rw [leaseOf?_of_task htask]
          simp only [Task.lease?, Caller.lease?, hst]
        rw [hnone]
        exact ⟨_, .endCaller htask hpend (.dropped rfl), .refl _⟩
      | waiting id n lease =>
        have hpend : c.Pending := fun ending hend => by rw [hst] at hend; simp at hend
        have hlease : m.leaseOf? u = lease := by
          rw [leaseOf?_of_task htask]
          simp only [Task.lease?, Caller.lease?, hst]
        have htask' : (m.releaseLease? lease).1.tasks[u]? = some (.caller c) := by
          rw [(LeaseStep.releaseLease? m lease).frame]
          exact htask
        rw [hlease]
        refine ⟨_, .releaseLease? ?_, .wake _⟩
        generalize m.releaseLease? lease = r at htask' ⊢
        obtain ⟨m₁, fault⟩ := r
        refine .endCaller htask' hpend ?_
        cases fault with
        | none => exact .dropped rfl
        | some text => exact .fault text
      | ended ending => exact ⟨m, hrefl, .refl _⟩
    | attempt id n => exact ⟨m, hrefl, .refl _⟩
    | subscription s => exact ⟨m, hrefl, .refl _⟩

/-- The handle of a subscription is given up. -/
theorem unsubscribe_works (hc : Coherent m) (u : TaskId) :
    ∃ m₁, Works u {} ⟨m, m.leaseOf? u, none⟩ m₁ ∧ Queued m₁ (m.unsubscribe u) := by
  have hrefl : Works u {} ⟨m, m.leaseOf? u, none⟩ m := .done rfl
  unfold QueryManager.unsubscribe
  cases htask : m.tasks[u]? with
  | none => exact ⟨m, hrefl, .refl _⟩
  | some z =>
    cases z with
    | subscription s =>
      obtain ⟨e, he, -, hu⟩ := hc.subscription htask
      have hlook : Act u {} ⟨m, s.lease?, none⟩
          ⟨m.setTask u (.subscription { s with cancelled := true }), s.lease?, none⟩ :=
        .look htask rfl rfl rfl he hu
      rw [leaseOf?_of_task htask]
      exact ⟨_, .act hlook (.done (leaseOf?_setTask htask _)), .wake _⟩
    | attempt id n => exact ⟨m, hrefl, .refl _⟩
    | caller c => exact ⟨m, hrefl, .refl _⟩

/-- A new subscription takes a lease; one that executes asks for a result first. -/
theorem subscribe_works (hr : Registered m) (spec : QuerySpec) (executes : Bool)
    (react : Delivery → Reaction) :
    m.tasks.length ≤ (m.subscribe spec executes react).2 ∧
    Works (m.subscribe spec executes react).2 { query := some spec } ⟨m, none, none⟩ (m.subscribe spec executes react).1 ∧
    ∃ s, (m.subscribe spec executes react).1.tasks[(m.subscribe spec executes react).2]? =
      some (.subscription s) ∧ s.lease = (m.acquire spec).2 := by
  obtain ⟨-, e, he, hk⟩ := hr.acquire spec
  have hlen : (m.acquire spec).1.tasks.length = m.tasks.length := by rw [tasks_acquire]
  unfold QueryManager.subscribe
  simp only [he]
  -- the manager after the question, if one is asked
  have hask : ∃ m₂, (if executes then ((m.acquire spec).1.ask (.direct (m.acquire spec).2.id) {}).1
      else (m.acquire spec).1) = m₂ ∧ m.tasks.length ≤ m₂.tasks.length ∧
      m₂.executor? (m.acquire spec).2.id = some e ∧ Acts m₂.tasks.length { query := some spec }
        ⟨(m.acquire spec).1, some (m.acquire spec).2, none⟩ ⟨m₂, some (m.acquire spec).2, none⟩ := by
    refine ⟨_, rfl, ?_⟩
    split
    · have hne : (m.acquire spec).1.tasks.length <
          ((m.acquire spec).1.ask (.direct (m.acquire spec).2.id) {}).1.tasks.length := by
        show _ < (_ ++ [_]).length
        rw [List.length_append, List.length_singleton]
        exact Nat.lt_succ_self _
      exact ⟨by omega, he, .single (.ask _ _ (Nat.ne_of_gt hne) (by simp) (by simp))⟩
    · exact ⟨Nat.le_of_eq hlen.symm, he, .refl⟩
  obtain ⟨m₂, heq, hle, he₂, hask⟩ := hask
  rw [heq]
  have hself : ∀ z, (m₂.spawn z).1.tasks[m₂.tasks.length]? = some z :=
    fun z => (getElem?_spawn m₂ z _).trans (if_pos rfl)
  refine ⟨hle, .act (.acquire spec (.inl rfl)) (.after hask (.act (.subscribe he₂ hk react rfl) (.done ?_))),
    _, hself _, rfl⟩
  exact leaseOf?_of_task (hself _)

/-! ## What the backend does to tasks -/

/-- An answer changes nothing unless it is for the task of an attempt. -/
theorem answer_eq (m : QueryManager) (u : TaskId) (reply : Reply) :
    (m.answer u reply = m ∧ m.answerNow u reply = m) ∨ ∃ id n e,
      m.tasks[u]? = some (.attempt id n) ∧ m.executor? id = some e ∧
      m.answer u reply = (m.setExecutor id (e.answer n reply)).wake ∧
      m.answerNow u reply = (m.setExecutor id ((e.answer n reply).resume n)).wake := by
  unfold QueryManager.answer QueryManager.answerNow
  cases htask : m.tasks[u]? with
  | none => exact .inl ⟨rfl, rfl⟩
  | some z =>
    cases z with
    | attempt id n =>
      cases he : m.executor? id with
      | none => exact .inl (by simp [he])
      | some e => exact .inr ⟨id, n, e, rfl, he, by simp [he]⟩
    | caller c => exact .inl ⟨rfl, rfl⟩
    | subscription s => exact .inl ⟨rfl, rfl⟩

/-! ## Events -/

/-- The event is that a user takes a lease, or gives one up. -/
def ManagerEvent.lends : ManagerEvent → Bool
  | .acquire _ | .release _ => true
  | _ => false

/-- The query that the event names. -/
def ManagerEvent.spec? : ManagerEvent → Option QuerySpec
  | .acquire spec | .ask (.leased spec) _ | .subscribe spec _ _ => some spec
  | _ => none

/-- The event is the backend's reply to the call of a task. -/
def ManagerEvent.Answers (ev : ManagerEvent) (t : TaskId) (reply : Reply) : Prop :=
  ev = .answer t reply ∨ ev = .answerNow t reply

/-- The event closes a live query that others may use, or brings a caller who will. -/
def ManagerEvent.closes : ManagerEvent → Bool
  | .close _ | .closeExecutor _ => true
  | .ask _ block => block.closes
  | _ => false

/-- **What is given is what the event brings:** a reply to a task that waits for it, or a query. -/
structure ManagerEvent.Gives (ev : ManagerEvent) (m : QueryManager) (t : TaskId) (given : Input) :
    Prop where
  reply : ∀ reply, given.reply = some reply → ev.Answers t reply ∧ m.isCalling t
  query : ∀ spec, given.query = some spec → ev.spec? = some spec
  closes : given.closes → ev.closes
  drops : given.drops → ev = .abort t

theorem ManagerEvent.Gives.nothing {ev : ManagerEvent} : ev.Gives m t {} :=
  ⟨by simp, by simp, by simp, by simp⟩

theorem ManagerEvent.Gives.of_query {ev : ManagerEvent} (h : ev.spec? = some spec) :
    ev.Gives m t { query := some spec } :=
  ⟨by simp, fun _ hs => h.trans hs, by simp, by simp⟩

theorem ManagerEvent.Gives.of_closes {ev : ManagerEvent} (h : ev.closes) :
    ev.Gives m t { closes := true } := ⟨by simp, by simp, fun _ => h, by simp⟩

theorem ManagerEvent.Gives.of_reply {ev : ManagerEvent} {reply : Reply} (h : ev.Answers t reply)
    (hcalling : m.isCalling t) : ev.Gives m t { reply := some reply } :=
  ⟨fun _ hr => by rw [← Option.some.inj hr]; exact ⟨h, hcalling⟩, by simp, by simp, by simp⟩

/-- **The lease in the hands** of the one at work, before and after. -/
inductive Hands (m m₁ : QueryManager) (t : TaskId) :
    ManagerEvent → Option Lease → Option Lease → Prop where
  | acquire (spec : QuerySpec) (ht : m.tasks.length ≤ t) (hlen : m₁.tasks.length ≤ t) :
      Hands m m₁ t (.acquire spec) none (some (m.acquire spec).2)
  | release (x : Lease) (ht : m.tasks.length ≤ t) (hlen : m₁.tasks.length ≤ t) :
      Hands m m₁ t (.release x) (some x) none
  | task {ev : ManagerEvent} (hev : ev.lends = false) :
      Hands m m₁ t ev (m.leaseOf? t) (m₁.leaseOf? t)

/-- **The event is made of acts,** after which tasks are queued. -/
inductive Performed (m : QueryManager) (ev : ManagerEvent) : Prop where
  | intro {t : TaskId} {given : Input} {m₀ m₁ : QueryManager} {x y : Option Lease}
      {fault : Option String} (hstart : m₀ = m ∨ m₀ = m.taken)
      (hacts : Acts t given ⟨m₀, x, none⟩ ⟨m₁, y, fault⟩) (hqueued : Queued m₁ (m.step ev))
      (hhands : Hands m m₁ t ev x y)
      (hgiven : ev.Gives m t given)

namespace Performed

/-- The event is the work of a task. -/
theorem of_works {m₀ : QueryManager} (hstart : m₀ = m ∨ m₀ = m.taken)
    (hworks : Works t given ⟨m₀, m.leaseOf? t, none⟩ m₁) (hq : Queued m₁ (m.step ev))
    (hev : ev.lends = false)
    (hgiven : ev.Gives m t given) :
    Performed m ev := by
  obtain ⟨fault, hacts⟩ := hworks
  exact .intro hstart hacts hq (.task hev) hgiven

/-- The event is one act, of no task. -/
theorem of_act (hact : Act t given ⟨m, none, none⟩ ⟨m₁, none, none⟩) (ht : m.tasks.length ≤ t)
    (hlen : m₁.tasks.length ≤ t) (hq : Queued m₁ (m.step ev)) (hev : ev.lends = false)
    (hgiven : ev.Gives m t given) : Performed m ev := by
  have hworks : Works t given ⟨m, none, none⟩ m₁ := .act hact (.done (leaseOf?_of_length hlen))
  rw [← leaseOf?_of_length ht] at hworks
  exact of_works (.inl rfl) hworks hq hev hgiven

/-- Nothing happens. -/
theorem of_eq (heq : m.step ev = m) (hev : ev.lends = false) : Performed m ev := by
  have hworks : Works 0 {} ⟨m, m.leaseOf? 0, none⟩ m := .done rfl
  refine of_works (.inl rfl) hworks ?_ hev .nothing
  rw [heq]
  exact .refl m

end Performed

/-- **Every event is made of acts.** -/
theorem performed (hok : ManagerOK m) (hc : Coherent m) (ev : ManagerEvent) : Performed m ev := by
  cases ev with
  | drawn numbers requests =>
    exact .of_act (.draw ⟨m.supply.number + numbers, m.supply.request + requests⟩
      (by show _ ≤ _ + (numbers : Int); omega) (Nat.le_add_right _ _)) (Nat.le_refl _)
      (Nat.le_refl _) (.refl _) rfl .nothing
  | poll =>
    cases hq : m.queue with
    | nil => exact .of_eq (poll_nil hq) rfl
    | cons t rest =>
      refine .of_works (.inr rfl) (Works.runTask hok.taken hc.taken
        (hok.notMem_taken hq)) ?_ rfl .nothing
      show Queued _ m.poll
      rw [poll_eq hq]
      exact .wake _
  | favour u =>
    have hworks : Works 0 {} ⟨m, m.leaseOf? 0, none⟩ m := .done rfl
    exact .of_works (.inl rfl) hworks (.favour m u) rfl .nothing
  | acquire spec =>
    refine .intro (t := m.tasks.length) (.inl rfl) (.single (.acquire spec (.inl rfl))) (.refl _)
      (.acquire spec (Nat.le_refl _) (Nat.le_of_eq (by rw [tasks_acquire]))) (.of_query rfl)
  | release x =>
    refine .intro (t := m.tasks.length) (.inl rfl) (.single (.release x))
      (.wake _) (.release x (Nat.le_refl _) (Nat.le_of_eq (by rw [tasks_releaseLease]))) .nothing
  | close id =>
    exact .of_act (.close id (.inl rfl)) (Nat.le_refl _) (Nat.le_of_eq (by rw [tasks_closeInstance]))
      (.wake _) rfl (.of_closes rfl)
  | closeExecutor id =>
    exact .of_act (.closeExecutor id rfl) (Nat.le_refl _) (Nat.le_refl _) (.wake _) rfl (.of_closes rfl)
  | cancel =>
    have hcancel : Act m.tasks.length {} ⟨m, none, none⟩ ⟨_, none, none⟩ := .cancel
    exact .of_act hcancel (Nat.le_refl _) (Nat.le_refl _) (.foldl_wakeTask _ _) rfl .nothing
  | ask addressee block =>
    have hlen : (m.ask addressee block).1.tasks.length = m.tasks.length + 1 := List.length_append
    -- the query that is named, and whether the block closes its live query
    have hgives : (ManagerEvent.ask addressee block).Gives m (m.tasks.length + 1)
        { query := (ManagerEvent.ask addressee block).spec?, closes := block.closes } :=
      ⟨by simp, fun _ hs => hs, fun h => h, by simp⟩
    refine .of_act (.ask addressee block (Nat.succ_ne_self _) (fun spec haddr => ?_) fun h => h)
      (Nat.le_succ _) (Nat.le_of_eq hlen) (.refl _) rfl hgives
    rw [haddr]
    rfl
  | abort u =>
    obtain ⟨m₁, hworks, hq⟩ := abort_works m u
    exact .of_works (.inl rfl) hworks hq rfl ⟨by simp, by simp, by simp, fun _ => rfl⟩
  | unsubscribe u =>
    obtain ⟨m₁, hworks, hq⟩ := unsubscribe_works hc u
    exact .of_works (.inl rfl) hworks hq rfl .nothing
  | subscribe spec executes react =>
    obtain ⟨hle, hworks, -⟩ := subscribe_works hc.registered spec executes react
    rw [← leaseOf?_of_length hle] at hworks
    exact .of_works (.inl rfl) hworks (.refl _) rfl (.of_query rfl)
  | answer u reply =>
    rcases answer_eq m u reply with ⟨heq, -⟩ | ⟨id, n, e, htask, he, heq, -⟩
    · exact .of_eq heq rfl
    · have hnone : m.leaseOf? u = none := leaseOf?_of_task htask
      obtain ⟨given, hanswer, hgiven⟩ := Works.answer hok htask he reply
      have hworks := Works.after hanswer (.done hnone)
      rw [← hnone] at hworks
      refine .of_works (.inl rfl) hworks ?_ rfl ?_
      · rw [show m.step (.answer u reply) = _ from heq]
        exact .wake _
      · rcases hgiven with rfl | ⟨rfl, hcalling⟩
        · exact .nothing
        · exact .of_reply (.inl rfl) hcalling
  | answerNow u reply =>
    rcases answer_eq m u reply with ⟨-, heq⟩ | ⟨id, n, e, htask, he, -, heq⟩
    · exact .of_eq heq rfl
    · -- the answer is put in, and then taken
      have hnone : m.leaseOf? u = none := leaseOf?_of_task htask
      obtain ⟨given, hanswer, hgiven⟩ := Works.answer hok htask he reply
      have hworks := Works.after hanswer (Works.resume (Acts.ok hanswer hok) htask
        (QueryManager.executor?_setExecutor_self he _))
      rw [← hnone, QueryManager.setExecutor_setExecutor] at hworks
      refine .of_works (.inl rfl) hworks ?_ rfl ?_
      · rw [show m.step (.answerNow u reply) = _ from heq]
        exact .wake _
      · rcases hgiven with rfl | ⟨rfl, hcalling⟩
        · exact .nothing
        · exact .of_reply (.inr rfl) hcalling

theorem Coherent.step (hc : Coherent m) (hok : ManagerOK m) (ev : ManagerEvent) :
    Coherent (m.step ev) := by
  obtain ⟨hstart, hacts, hq, -, -⟩ := performed hok hc ev
  rcases hstart with rfl | rfl
  · exact (hacts.coherent hc hok).queued hq
  · exact (hacts.coherent hc.taken hok.taken).queued hq

end QueryClient
