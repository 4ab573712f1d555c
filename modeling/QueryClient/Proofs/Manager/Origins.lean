import Mathlib.Data.List.Induction
import QueryClient.Proofs.Manager.Ledger

/-!
# Where results come from

Every result of an executor is one of the few failures that the executor makes up itself, or the
backend's reply to a call for the executor's own query. Requests tell calls apart.

* `Act.note_cases`: what is noted in an act.
* `Attempt.From`: where the stage of an attempt comes from.
* `Retains`: nothing is lost.
* `Origins`, `Act.origins`: **where everything comes from,** kept by every act.
* `Within`, `Act.within`: which queries there are.
* `Told`: the backend replied to the call of a task.
* `traced`: both, in a run.
-/

namespace QueryClient

variable {m m' m₁ : QueryManager} {b b' : Bench} {t u v : TaskId} {given : Input}
variable {id i : InstanceId} {e e' f : Executor} {a a' : Attempt} {note : Note}
variable {r : RequestId} {spec : QuerySpec} {P : TaskId → Reply → Prop}

/-! ## What is noted -/

/-- **What is noted in an act.** -/
inductive NoteStep (t : TaskId) (m : QueryManager) : Note → Prop where
  | same {note : Note} (h : note ∈ m.journal) : NoteStep t m note
  | remark {note : Note} (h : note.IsRemark) : NoteStep t m note
  | called {id : InstanceId} {e : Executor} {a : Attempt} (he : m.executor? id = some e)
      (ha : a ∈ e.attempts) (hst : a.stage = .spawned) (hc : e.closed = false)
      (htask : m.tasks[t]? = some (.attempt id a.number)) : NoteStep t m (.called t e.spec a.request)
  | handed {s : Subscription} {e : Executor} {d : Delivery}
      (htask : m.tasks[t]? = some (.subscription s)) (he : m.executor? s.lease.id = some e)
      (hd : d.outcome ∈ e.results) : NoteStep t m (.handed t d)
  | ended (ending : Ending NumberedOutcome) : NoteStep t m (.ended t ending)
  | completed : NoteStep t m (.completed t)

theorem NoteStep.of_note {n : Note} (h : note ∈ (m₁.note n).journal) (hm : m₁.journal = m.journal)
    (hn : NoteStep t m n) : NoteStep t m note := by
  rcases List.mem_append.1 h with h | h
  · rw [hm] at h
    exact .same h
  · rw [List.mem_singleton.1 h]
    exact hn

theorem LeaseStep.journal (h : LeaseStep m m') : m'.journal = m.journal := by
  rw [h.frame]

theorem Act.note_cases (h : Act t given b b') (hn : note ∈ b'.manager.journal) :
    NoteStep t b.manager note := by
  cases h with
  | acquire spec _ => exact .same (by rwa [(LeaseStep.acquire _ spec).journal] at hn)
  | release x => exact .same (by rwa [(LeaseStep.releaseLease _ x).journal] at hn)
  | close id _ => exact .same (by rwa [(LeaseStep.closeInstance _ id).journal] at hn)
  | remark n h => exact .of_note hn rfl (.remark h)
  | call he hl hst hc htask hq =>
    exact .of_note hn rfl (.called he (by rw [hl]; exact List.mem_cons_self) hst hc htask)
  | finish htask hc hend => exact .of_note hn rfl (.ended _)
  | hand htask hs he hd => exact .of_note hn rfl (.handed htask he hd)
  | complete htask hs hlease hreact he hu => exact .of_note hn rfl .completed
  | _ => exact .same hn

/-- What was noted stays noted. -/
theorem Act.journal (h : Act t given b b') (hn : note ∈ b.manager.journal) :
    note ∈ b'.manager.journal := by
  cases h with
  | acquire spec _ => rwa [(LeaseStep.acquire _ spec).journal]
  | release x => rwa [(LeaseStep.releaseLease _ x).journal]
  | close id _ => rwa [(LeaseStep.closeInstance _ id).journal]
  | remark n h => exact List.mem_append_left _ hn
  | call he hl hst hc htask hq => exact List.mem_append_left _ hn
  | finish htask hc hend => exact List.mem_append_left _ hn
  | hand htask hs he hd => exact List.mem_append_left _ hn
  | complete htask hs hlease hreact he hu => exact List.mem_append_left _ hn
  | _ => exact hn

/-! ## Where results come from -/

/-- A failure that an executor makes up itself, without the backend. -/
def Outcome.IsOwn (o : Outcome) : Prop :=
  o.result = .error .executorClosed ∨ o.result = .error .executionCancelled ∨
    o.result = .error .executionDropped

/-- **Where the stage of an attempt comes from.** Replies are those that `P` allows. -/
inductive Attempt.From (P : TaskId → Reply → Prop) (m : QueryManager) (id : InstanceId) (e : Executor)
    (a : Attempt) : Prop where
  | spawned (hst : a.stage = .spawned)
  | calling {t : TaskId} (hst : a.stage = .calling)
      (htask : m.tasks[t]? = some (.attempt id a.number))
      (hnote : .called t e.spec a.request ∈ m.journal)
  | answered {t : TaskId} {reply : Reply} (hst : a.stage = .answered reply)
      (hnote : .called t e.spec a.request ∈ m.journal) (hP : P t reply)
  | dead (hst : a.stage = .dead)
  | settled {o : NumberedOutcome} (hst : a.stage = .settled o)
      (h : o.value.IsOwn ∨
        ∃ t, .called t e.spec a.request ∈ m.journal ∧ P t (.returned o.value.result))

/-- **Where everything comes from.** -/
structure Origins (P : TaskId → Reply → Prop) (m : QueryManager) : Prop where
  /-- Calls are made by the tasks of attempts, for the query of their executor. -/
  noted : ∀ t spec r, .called t spec r ∈ m.journal → ∃ id e, m.executor? id = some e ∧
    ∃ a ∈ e.attempts, a.request = r ∧ e.spec = spec ∧ m.tasks[t]? = some (.attempt id a.number)
  apart : ∀ id i e f a a', m.executor? id = some e → a ∈ e.attempts → m.executor? i = some f →
    a' ∈ f.attempts → a.request = a'.request → id = i
  source : ∀ id e, m.executor? id = some e → ∀ a ∈ e.attempts, a.From P m id e
  /-- What is handed over are results of the instance of the lease. -/
  handed : ∀ t d, .handed t d ∈ m.journal → ∃ s e, m.tasks[t]? = some (.subscription s) ∧
    m.executor? s.lease.id = some e ∧ d.outcome ∈ e.results

/-- Nothing is lost between two points: neither executors and tasks nor notes. -/
structure Retains (m m' : QueryManager) : Prop where
  executors : Extends m m'
  tasks : ∀ (u : TaskId) (x : Task), m.tasks[u]? = some x →
    ∃ y, m'.tasks[u]? = some y ∧ SameTask x y
  journal : ∀ note, note ∈ m.journal → note ∈ m'.journal

namespace Retains

theorem of_queue (m : QueryManager) (queue : List TaskId) : Retains m { m with queue } :=
  ⟨fun _ e he => ⟨e, he, .refl e⟩, fun _ x hx => ⟨x, hx, .refl x⟩, fun _ h => h⟩

theorem refl (m : QueryManager) : Retains m m := of_queue m m.queue

theorem trans {m'' : QueryManager} (h : Retains m m') (h' : Retains m' m'') : Retains m m'' := by
  refine ⟨h.executors.trans h'.executors, fun u x hx => ?_, fun n hn => h'.journal n (h.journal n hn)⟩
  obtain ⟨y, hy, hxy⟩ := h.tasks u x hx
  obtain ⟨z, hz, hyz⟩ := h'.tasks u y hy
  exact ⟨z, hz, hxy.trans hyz⟩

theorem attempt {n : Int} (h : Retains m m') (htask : m.tasks[t]? = some (.attempt id n)) :
    m'.tasks[t]? = some (.attempt id n) := by
  obtain ⟨y, hy, hsame⟩ := h.tasks t _ htask
  cases hsame
  exact hy

theorem subscription {s : Subscription} (h : Retains m m')
    (htask : m.tasks[t]? = some (.subscription s)) :
    ∃ s', m'.tasks[t]? = some (.subscription s') ∧ s'.lease = s.lease := by
  obtain ⟨y, hy, hsame⟩ := h.tasks t _ htask
  cases hsame with
  | subscription hlease hreact => exact ⟨_, hy, hlease⟩

theorem queued (h : Queued m m') : Retains m m' := by
  rw [h.frame]
  exact of_queue m _

theorem taken (m : QueryManager) : Retains m m.taken := of_queue m _

end Retains

theorem Act.retains (h : Act t given b b') : Retains b.manager b'.manager := by
  refine ⟨h.extends, fun u x hx => ?_, fun n hn => h.journal hn⟩
  obtain ⟨y, hy, hsame, -⟩ := h.tasksKept u x hx
  exact ⟨y, hy, hsame⟩

theorem Acts.retains (h : Acts t given b b') : Retains b.manager b'.manager := by
  induction h with
  | refl => exact .refl _
  | tail _ hact ih => exact ih.trans hact.retains

theorem Retains.step (hok : ManagerOK m) (hc : Coherent m) (ev : ManagerEvent) :
    Retains m (m.step ev) := by
  obtain ⟨hstart, hacts, hq, -, -⟩ := performed hok hc ev
  rcases hstart with rfl | rfl
  · exact (Acts.retains hacts).trans (.queued hq)
  · exact (Retains.taken m).trans ((Acts.retains hacts).trans (.queued hq))

theorem Retains.next {l : Lending} (h : l.Sound) (ev : ManagerEvent) :
    Retains l.manager (l.next ev).manager := by
  rcases l.next_manager ev with heq | heq
  · rw [heq]; exact .step h.ok h.coherent ev
  · rw [heq]; exact .refl _

theorem Retains.after {l : Lending} (h : l.Sound) (es : List ManagerEvent) :
    Retains l.manager (l.after es).manager := by
  induction es generalizing l with
  | nil => exact .refl _
  | cons ev es ih => exact (next h ev).trans (ih (h.next ev))

namespace Attempt.From

/-- What is known of an attempt that stays as it is, stays known. -/
theorem mono {Q : TaskId → Reply → Prop} (h : a.From P m id e) (hm : Retains m m')
    (hspec : e'.spec = e.spec) (hP : ∀ t reply, P t reply → Q t reply) : a.From Q m' id e' := by
  cases h with
  | spawned hst => exact .spawned hst
  | calling hst htask hnote =>
    exact .calling hst (hm.attempt htask) (by rw [hspec]; exact hm.journal _ hnote)
  | answered hst hnote hreply =>
    exact .answered hst (by rw [hspec]; exact hm.journal _ hnote) (hP _ _ hreply)
  | dead hst => exact .dead hst
  | settled hst h =>
    refine .settled hst (h.imp_right fun ⟨t, hnote, hreply⟩ => ⟨t, ?_, hP _ _ hreply⟩)
    rw [hspec]
    exact hm.journal _ hnote

/-- An attempt moves on. -/
theorem move {st : Stage} (h : a.From P m id e) (hm : Retains m m') (hc : Coherent m)
    (hspec : e'.spec = e.spec) (hmove : Advances t given m m' id e a st)
    (hgiven : ∀ reply, given.reply = some reply → P t reply) : ({ a with stage := st } : Attempt).From P m' id e' := by
  cases hmove with
  | call hst hopen htask hnote =>
    exact .calling rfl (hm.attempt htask) (by rw [hspec]; exact hnote)
  | @reply reply hst htask hg =>
    cases h with
    | @calling u _ htask' hnote =>
      -- an attempt has one task only
      obtain rfl := hc.single t u id a.number htask htask'
      exact .answered rfl (by rw [hspec]; exact hm.journal _ hnote) (hgiven reply hg)
    | spawned hst' => simp [hst] at hst'
    | answered hst' => simp [hst] at hst'
    | dead hst' => simp [hst] at hst'
    | settled hst' => simp [hst] at hst'
  | die => exact .dead rfl
  | settle hcause =>
    refine .settled rfl ?_
    cases hcause with
    | refused => exact .inl (.inl rfl)
    | cancelled => exact .inl (.inr (.inl rfl))
    | dropped => exact .inl (.inr (.inr rfl))
    | answered hst =>
      cases h with
      | answered hst' hnote hP =>
        obtain rfl : _ = _ := Stage.answered.inj (hst.symm.trans hst')
        exact .inr ⟨_, by rw [hspec]; exact hm.journal _ hnote, hP⟩
      | spawned hst' => simp [hst] at hst'
      | calling hst' => simp [hst] at hst'
      | dead hst' => simp [hst] at hst'
      | settled hst' => simp [hst] at hst'

end Attempt.From

/-- An attempt was there before with its request, or is new, under a request not drawn before. -/
theorem Act.request_cases (h : Act t given b b') (hc : Coherent b.manager)
    (hok : ManagerOK b.manager) (he' : b'.manager.executor? id = some e') (ha' : a' ∈ e'.attempts) :
    (∃ e a, b.manager.executor? id = some e ∧ a ∈ e.attempts ∧ a.request = a'.request ∧
      a.request.index ≤ b.manager.supply.request) ∨
    b.manager.supply.request < a'.request.index ∧
      b'.manager.tasks[b.manager.tasks.length]? = some (.attempt id a'.number) := by
  have hold : ∀ {e : Executor} {a : Attempt}, b.manager.executor? id = some e → a ∈ e.attempts →
      a.request.index ≤ b.manager.supply.request := fun he ha => ((hok.executor he).drawn _ ha).2
  cases h.attempt_cases hc.registered he' ha' with
  | same he ha => exact .inl ⟨_, _, he, ha, rfl, hold he ha⟩
  | moved he ha _ heq =>
    subst heq
    exact .inl ⟨_, _, he, ha, rfl, hold he ha⟩
  | started he hst hr hn htask =>
    refine .inr ⟨hr, ?_⟩
    cases h.task_cases hc hok htask with
    | same hx => exact absurd (hok.numbered _ _ (List.mem_of_getElem? hx)) (Int.not_le.2 hn)
    | attempt hu _ _ => rw [← hu]; exact htask

/-- **Every act keeps where everything comes from.** -/
theorem Act.origins (h : Act t given b b') (ho : Origins P b.manager) (hc : Coherent b.manager)
    (hok : ManagerOK b.manager) (hgiven : ∀ reply, given.reply = some reply → P t reply) :
    Origins P b'.manager := by
  have hm := h.retains
  refine ⟨fun u spec r hn => ?_, fun id i e f a a' he ha hf ha' hreq => ?_, fun id e' he' a' ha' => ?_,
    fun u d hn => ?_⟩
  · have hkept : ∀ {id : InstanceId} {e : Executor} {a : Attempt} {v : TaskId},
        b.manager.executor? id = some e → a ∈ e.attempts →
        b.manager.tasks[v]? = some (.attempt id a.number) →
        ∃ i f, b'.manager.executor? i = some f ∧ ∃ a' ∈ f.attempts, a'.request = a.request ∧
          f.spec = e.spec ∧ b'.manager.tasks[v]? = some (.attempt i a'.number) := by
      intro id e a v he ha htask
      obtain ⟨e', he', hext⟩ := hm.executors id e he
      obtain ⟨a', ha', hnum, hreq, -⟩ := hext.attempts a ha
      exact ⟨id, e', he', a', ha', hreq, hext.spec, by rw [hnum]; exact hm.attempt htask⟩
    cases h.note_cases hn with
    | same hn =>
      obtain ⟨id, e, he, a, ha, rfl, rfl, htask⟩ := ho.noted u spec r hn
      exact hkept he ha htask
    | remark hr => exact hr.elim
    | called he ha hst hopen htask => exact hkept he ha htask
  · rcases h.request_cases hc hok he ha with ⟨e₁, a₁, he₁, ha₁, hreq₁, hle⟩ | ⟨hlt, htask⟩
    · rcases h.request_cases hc hok hf ha' with ⟨f₁, b₁, hf₁, hb₁, hreq₂, -⟩ | ⟨hlt, -⟩
      · exact ho.apart id i e₁ f₁ a₁ b₁ he₁ ha₁ hf₁ hb₁ (hreq₁.trans (hreq.trans hreq₂.symm))
      · rw [← hreq, ← hreq₁] at hlt
        exact absurd hle (Nat.not_le.2 hlt)
    · rcases h.request_cases hc hok hf ha' with ⟨f₁, b₁, hf₁, hb₁, hreq₂, hle⟩ | ⟨-, htask'⟩
      · rw [hreq, ← hreq₂] at hlt
        exact absurd hle (Nat.not_le.2 hlt)
      · rw [htask] at htask'
        exact (Task.attempt.inj (Option.some.inj htask')).1
  · have hspec : ∀ {e : Executor}, b.manager.executor? id = some e → e'.spec = e.spec := by
      intro e he
      obtain ⟨e₁, he₁, hext⟩ := hm.executors id e he
      rw [Option.some.inj (he'.symm.trans he₁)]
      exact hext.spec
    cases h.attempt_cases hc.registered he' ha' with
    | same he ha => exact (ho.source id _ he _ ha).mono hm (hspec he) fun _ _ hP => hP
    | moved he ha hmove heq =>
      rw [heq]
      exact (ho.source id _ he _ ha).move hm hc (hspec he) hmove hgiven
    | started _ hst _ _ _ => exact .spawned hst
  · have hkept : ∀ {s : Subscription} {e : Executor}, b.manager.tasks[u]? = some (.subscription s) →
        b.manager.executor? s.lease.id = some e → d.outcome ∈ e.results →
        ∃ s e, b'.manager.tasks[u]? = some (.subscription s) ∧
          b'.manager.executor? s.lease.id = some e ∧ d.outcome ∈ e.results := by
      intro s e htask he hd
      obtain ⟨s', htask', hlease⟩ := hm.subscription htask
      obtain ⟨e', he', hext⟩ := hm.executors _ e he
      exact ⟨s', e', htask', by rw [hlease]; exact he', hext.results.mem hd⟩
    cases h.note_cases hn with
    | same hn =>
      obtain ⟨s, e, htask, he, hd⟩ := ho.handed u d hn
      exact hkept htask he hd
    | remark hr => exact hr.elim
    | handed htask he hd => exact hkept htask he hd

/-! ## Named queries -/

/-- All queries are among the given ones: those that run, and those that callers are interested
in. -/
structure Within (S : QuerySpec → Prop) (m : QueryManager) : Prop where
  executors : ∀ id e, m.executor? id = some e → S e.spec
  callers : ∀ (t : TaskId) (c : Caller) (spec : QuerySpec), m.tasks[t]? = some (.caller c) →
    c.addressee = .leased spec → S spec

theorem Act.within {S : QuerySpec → Prop} (h : Act t given b b') (hn : Within S b.manager)
    (hc : Coherent b.manager) (hok : ManagerOK b.manager) (hgiven : ∀ spec, given.query = some spec → S spec) :
    Within S b'.manager := by
  refine ⟨fun id e' he' => ?_, fun u c spec htask haddr => ?_⟩
  · cases he : b.manager.executor? id with
    | none =>
      obtain ⟨spec, closed, rfl, hspec | ⟨c, htask, haddr⟩⟩ := h.opens hc.registered id e' he' he
      · exact hgiven spec hspec
      · exact hn.callers t c spec htask haddr
    | some e =>
      obtain ⟨e₁, he₁, hext⟩ := h.extends id e he
      rw [Option.some.inj (he'.symm.trans he₁), hext.spec]
      exact hn.executors id e he
  · cases h.task_cases hc hok htask with
    | same hold => exact hn.callers u c spec hold haddr
    | caller _ hold =>
      rcases hold with ⟨c₀, hold, heq, -⟩ | ⟨hnew, -⟩
      · exact hn.callers u c₀ spec hold (heq.symm.trans haddr)
      · exact hgiven spec (hnew spec haddr)

/-! ## Runs -/

/-- **The backend replied to the call of a task** in a run, while the task waited for it. -/
def Told (es : List ManagerEvent) (t : TaskId) (reply : Reply) : Prop :=
  ∃ before ev more, es = before ++ ev :: more ∧ ev.Answers t reply ∧
    (({} : Lending).after before).manager.isCalling t

/-- The queries that are named in a run. -/
def namedQueries (es : List ManagerEvent) : List QuerySpec := es.filterMap ManagerEvent.spec?

variable {es : List ManagerEvent} {ev : ManagerEvent} {reply : Reply}

theorem Told.append (h : Told es t reply) (more : List ManagerEvent) : Told (es ++ more) t reply := by
  obtain ⟨before, ev, rest, rfl, hev, hcalling⟩ := h
  exact ⟨before, ev, rest ++ more, by simp, hev, hcalling⟩

theorem Lending.after_append (l : Lending) (es more : List ManagerEvent) :
    l.after (es ++ more) = (l.after es).after more := List.foldl_append

/-- Where everything comes from, and which queries there are. -/
structure Traced (P : TaskId → Reply → Prop) (S : QuerySpec → Prop) (m : QueryManager) : Prop where
  ok : ManagerOK m
  coherent : Coherent m
  origins : Origins P m
  within : Within S m

namespace Traced

variable {S S' : QuerySpec → Prop} {P' : TaskId → Reply → Prop}

theorem mono (h : Traced P S m) (hP : ∀ t reply, P t reply → P' t reply) (hS : ∀ spec, S spec → S' spec) :
    Traced P' S' m := by
  refine ⟨h.ok, h.coherent, ⟨h.origins.noted, h.origins.apart, fun id e he a ha => ?_, h.origins.handed⟩,
    fun id e he => hS _ (h.within.executors id e he),
    fun t c spec htask haddr => hS _ (h.within.callers t c spec htask haddr)⟩
  exact (h.origins.source id e he a ha).mono (.refl m) rfl hP

theorem acts (h : Acts t given b b') (hb : Traced P S b.manager)
    (hreply : ∀ reply, given.reply = some reply → P t reply) (hspec : ∀ spec, given.query = some spec → S spec) :
    Traced P S b'.manager := by
  induction h with
  | refl => exact hb
  | tail _ hact ih =>
    exact ⟨hact.ok ih.ok, hact.coherent ih.coherent ih.ok,
      hact.origins ih.origins ih.coherent ih.ok hreply, hact.within ih.within ih.coherent ih.ok hspec⟩

theorem of_queue (h : Traced P S m) {queue : List TaskId} (hok : ManagerOK { m with queue }) :
    Traced P S { m with queue } := by
  refine ⟨hok, h.coherent.of_frame rfl rfl rfl, ⟨h.origins.noted, h.origins.apart,
    fun id e he a ha => ?_, h.origins.handed⟩, h.within.executors, h.within.callers⟩
  exact (h.origins.source id e he a ha).mono (.of_queue m queue) rfl fun _ _ hP => hP

theorem step (h : Traced P S m) (ev : ManagerEvent)
    (hreply : ∀ t reply, ev.Answers t reply → m.isCalling t → P t reply)
    (hspec : ∀ spec, ev.spec? = some spec → S spec) : Traced P S (m.step ev) := by
  obtain ⟨hstart, hacts, hq, -, hgiven⟩ := performed h.ok h.coherent ev
  rename_i t given m₀ m₁ x y fault
  have h₀ : Traced P S m₀ := by
    rcases hstart with rfl | rfl
    · exact h
    · exact h.of_queue h.ok.taken
  have h₁ : Traced P S m₁ := by
    refine acts hacts h₀ (fun reply hg => ?_) fun spec hg => hspec spec (hgiven.query spec hg)
    obtain ⟨hev, hcalling⟩ := hgiven.reply reply hg
    exact hreply t reply hev hcalling
  have hok := hq.ok h₁.ok
  rw [hq.frame] at hok ⊢
  exact h₁.of_queue hok

end Traced

theorem Origins.init : Origins P {} := by
  constructor <;> simp [QueryManager.executor?]

theorem Within.init {S : QuerySpec → Prop} : Within S {} := by
  constructor <;> simp [QueryManager.executor?]

/-- **Where everything comes from in a run.** -/
theorem traced (es : List ManagerEvent) :
    Traced (Told es) (· ∈ namedQueries es) (({} : Lending).after es).manager := by
  induction es using List.reverseRecOn with
  | nil => exact ⟨.init {}, .init {}, .init, .init⟩
  | append_singleton es ev ih =>
    have hS : ∀ spec, spec ∈ namedQueries es → spec ∈ namedQueries (es ++ [ev]) := by
      intro spec hspec
      unfold namedQueries
      rw [List.filterMap_append]
      exact List.mem_append_left _ hspec
    have hold := ih.mono (fun t reply hP => hP.append [ev]) hS
    rw [Lending.after_append]
    show Traced _ _ (Lending.next _ ev).manager
    rcases (({} : Lending).after es).next_manager ev with heq | heq <;> rw [heq]
    · refine hold.step ev (fun t reply hev hcalling => ⟨es, ev, [], rfl, hev, hcalling⟩) fun spec hspec => ?_
      unfold namedQueries
      rw [List.filterMap_append]
      exact List.mem_append_right _ (List.mem_filterMap.2 ⟨ev, List.mem_singleton_self ev, hspec⟩)
    · exact hold

end QueryClient
