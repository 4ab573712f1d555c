import Mathlib.Logic.Relation
import QueryClient.Proofs.Manager.Run

/-!
# The acts of a manager's tasks

A task that runs holds at most one lease in its hands: it has just taken it, or has taken it out of
what it keeps while it waits. What it does to the manager until it has to wait again is a sequence of
acts; so is what users do to the manager. An act says all that it does, and under which conditions.

* `Bench`: a manager, and what the task at work has in its hands.
* `Act`: **one act,** with the conditions under which tasks and users perform it.
* `Act.effect`: an act is made of the small changes.
-/

namespace QueryClient

/-! ## Who holds leases -/

/-- The lease of a caller that waits. -/
def Caller.lease? (c : Caller) : Option Lease :=
  match c.stage with
  | .waiting _ _ lease => lease
  | _ => none

/-- The caller has not ended. -/
def Caller.Pending (c : Caller) : Prop := ∀ ending, c.stage ≠ .ended ending

/-- The lease of a subscription that has not ended. -/
def Subscription.lease? (s : Subscription) : Option Lease :=
  match s.stage with
  | .running => some s.lease
  | _ => none

/-- **The lease that a task holds.** -/
def Task.lease? : Task → Option Lease
  | .attempt .. => none
  | .caller c => c.lease?
  | .subscription s => s.lease?

/-- The lease held by the task of the given name. -/
def QueryManager.leaseOf? (m : QueryManager) (t : TaskId) : Option Lease :=
  (m.tasks[t]?).bind Task.lease?

/-- The leases that the other tasks hold. -/
def QueryManager.othersLeases (m : QueryManager) (t : TaskId) : List Lease :=
  (m.tasks.eraseIdx t).filterMap Task.lease?

/-- **The leases that the tasks hold.** -/
def QueryManager.taskLeases (m : QueryManager) : List Lease := m.tasks.filterMap Task.lease?

/-- A manager while a task is at work. -/
structure Bench where
  manager : QueryManager
  /-- The lease that the task has in its hands. -/
  hand : Option Lease := none
  /-- What was wrong with the lease that it gave up. -/
  fault : Option String := none

/-- The caller asks the instance, with the given lease on it. -/
inductive QueryManager.Asks (m : QueryManager) (c : Caller) : InstanceId → Option Lease → Prop where
  | direct {id : InstanceId} (h : c.addressee = .direct id) : Asks m c id none
  | leased {spec : QuerySpec} {x : Lease} {e : Executor} (h : c.addressee = .leased spec)
      (hx : x.key = spec.key) (he : m.executor? x.id = some e) (hk : e.key = x.key) :
      Asks m c x.id (some x)

/-- What is given from outside. -/
structure Input where
  /-- The backend's reply to a call. -/
  reply : Option Reply := none
  /-- A query that a user is interested in. -/
  query : Option QuerySpec := none
  /-- A user closes a live query that others may use, or wants it closed. -/
  closes : Bool := false
  /-- A caller loses interest. -/
  drops : Bool := false

/-- What a caller ends in, given what was wrong with its lease. -/
inductive QueryManager.Ends (m : QueryManager) (c : Caller) (given : Input) :
    Option String → Ending NumberedOutcome → Prop where
  /-- A result of the instance that it asked; of the attempt that it waited for, if it waited. -/
  | returned {id : InstanceId} {lease : Option Lease} {e : Executor} {o : NumberedOutcome}
      (hasks : m.Asks c id lease) (he : m.executor? id = some e) (ho : o ∈ e.results)
      (hwait : ∀ i n x, c.stage = .waiting i n x → i = id ∧ o.number = n) :
      Ends m c given none (.returned o)
  | dropped (hd : given.drops) : Ends m c given none .dropped
  | fault (text : String) : Ends m c given (some text) (.panicked text)
  /-- It panics before it has asked. -/
  | block {fault : Option String} (hc : c.stage = .arriving) (text : String) :
      Ends m c given fault (.panicked text)

/-- Why an attempt ends in a result. -/
inductive Cause (e : Executor) (a : Attempt) : Except Error OperationResult → Prop where
  | refused (hst : a.stage = .spawned) (hc : e.closed = true) : Cause e a (.error .executorClosed)
  | cancelled (hst : a.isCalling) (hc : e.closed = true) : Cause e a (.error .executionCancelled)
  | answered {result : Except Error OperationResult} (hst : a.stage = .answered (.returned result))
      (hc : e.closed = false) : Cause e a result
  | dropped (hst : a.stage = .dead) : Cause e a (.error .executionDropped)

/-- A note that only says what is wrong. -/
def Note.IsRemark : Note → Prop
  | .warned _ | .failed _ => True
  | _ => False

/-- The query is given, or it is that of the caller at work. -/
def QueryManager.Names (m : QueryManager) (t : TaskId) (given : Input) (spec : QuerySpec) : Prop :=
  given.query = some spec ∨ ∃ c, m.tasks[t]? = some (.caller c) ∧ c.addressee = .leased spec

/-- A user closes live queries, or the caller at work does. -/
def QueryManager.Closes (m : QueryManager) (t : TaskId) (given : Input) : Prop :=
  given.closes ∨ ∃ c, m.tasks[t]? = some (.caller c) ∧ c.block.closes

/-- **What a task does,** or a user, with what is given from outside. -/
inductive Act (t : TaskId) (given : Input) : Bench → Bench → Prop where
  | draw {m : QueryManager} {x : Option Lease} {f : Option String} (s : Supply)
      (hn : m.supply.number ≤ s.number) (hr : m.supply.request ≤ s.request) :
      Act t given ⟨m, x, f⟩ ⟨{ m with supply := s }, x, f⟩
  | acquire {m : QueryManager} {f : Option String} (spec : QuerySpec) (hspec : m.Names t given spec) :
      Act t given ⟨m, none, f⟩ ⟨(m.acquire spec).1, some (m.acquire spec).2, f⟩
  | release {m : QueryManager} (x : Lease) :
      Act t given ⟨m, some x, none⟩ ⟨(m.releaseLease x).1, none, (m.releaseLease x).2⟩
  | close {m : QueryManager} {x : Option Lease} {f : Option String} (id : InstanceId)
      (hclose : m.Closes t given) :
      Act t given ⟨m, x, f⟩ ⟨(m.closeInstance id).1, x, f⟩
  | closeExecutor {m : QueryManager} {x : Option Lease} {f : Option String} (id : InstanceId)
      (hclose : given.closes) :
      Act t given ⟨m, x, f⟩ ⟨{ m with
        lives := m.lives.modify id fun q => { q with executor := q.executor.close } }, x, f⟩
  | cancel {m : QueryManager} {x : Option Lease} {f : Option String} :
      Act t given ⟨m, x, f⟩ ⟨{ m with
        cancelled := true
        lives := m.lives.map fun q => { q with executor := q.executor.close } }, x, f⟩
  | remark {m : QueryManager} {x : Option Lease} {f : Option String} (n : Note) (hn : n.IsRemark) :
      Act t given ⟨m, x, f⟩ ⟨m.note n, x, f⟩
  /-- An attempt is started, and gets a task. -/
  | start {m : QueryManager} {x : Option Lease} {f : Option String} {id : InstanceId} {e : Executor}
      {n : Int} {r : RequestId} {s : Supply} (he : m.executor? id = some e) (hs : e.slot = none)
      (hn : m.supply.number < n) (hr : m.supply.request < r.index)
      (hn' : n ≤ s.number) (hr' : r.index ≤ s.request) (ht : t ≠ m.tasks.length) :
      Act t given ⟨m, x, f⟩
        ⟨(({ m with supply := s }.setExecutor id (e.start n r)).spawn (.attempt id n)).1, x, f⟩
  /-- The task of an attempt calls the backend. -/
  | call {m : QueryManager} {x : Option Lease} {f : Option String} {id : InstanceId} {e : Executor}
      {a : Attempt} {rest : List Attempt} (he : m.executor? id = some e)
      (hl : e.attempts = a :: rest) (hst : a.stage = .spawned) (hc : e.closed = false)
      (htask : m.tasks[t]? = some (.attempt id a.number)) (hq : t ∉ m.queue) :
      Act t given ⟨m, x, f⟩
        ⟨(m.setExecutor id (e.advance a rest .calling)).note (.called t e.spec a.request), x, f⟩
  /-- The backend answers. -/
  | reply {m : QueryManager} {x : Option Lease} {f : Option String} {id : InstanceId} {e : Executor}
      {a : Attempt} {rest : List Attempt} {reply : Reply} (he : m.executor? id = some e)
      (hl : e.attempts = a :: rest) (hst : a.stage = .calling)
      (htask : m.tasks[t]? = some (.attempt id a.number)) (hg : given.reply = some reply) :
      Act t given ⟨m, x, f⟩ ⟨m.setExecutor id (e.advance a rest (.answered reply)), x, f⟩
  /-- The task of an attempt dies of the answer. -/
  | die {m : QueryManager} {x : Option Lease} {f : Option String} {id : InstanceId} {e : Executor}
      {a : Attempt} {rest : List Attempt} {text : String} (he : m.executor? id = some e)
      (hl : e.attempts = a :: rest) (hst : a.stage = .answered (.panicked text))
      (hc : e.closed = false) :
      Act t given ⟨m, x, f⟩ ⟨m.setExecutor id (e.advance a rest .dead), x, f⟩
  /-- An attempt ends. -/
  | settle {m : QueryManager} {x : Option Lease} {f : Option String} {id : InstanceId} {e : Executor}
      {a : Attempt} {rest : List Attempt} {result : Except Error OperationResult}
      (he : m.executor? id = some e) (hl : e.attempts = a :: rest) (hcause : Cause e a result)
      (ht : m.HasTurn t id a) :
      Act t given ⟨m, x, f⟩ ⟨m.setExecutor id (e.store a rest (e.outcomeOf a result)), x, f⟩
  | ask {m : QueryManager} {x : Option Lease} {f : Option String} (addressee : Addressee)
      (block : Block) (ht : t ≠ m.tasks.length)
      (hspec : ∀ spec, addressee = .leased spec → given.query = some spec)
      (hblock : block.closes → given.closes) :
      Act t given ⟨m, x, f⟩ ⟨(m.ask addressee block).1, x, f⟩
  /-- A new subscription gets the lease. -/
  | subscribe {m : QueryManager} {f : Option String} {x : Lease} {e : Executor}
      (he : m.executor? x.id = some e) (hk : e.key = x.key) (react : Delivery → Reaction)
      (ht : t = m.tasks.length) :
      Act t given ⟨m, some x, f⟩
        ⟨(m.spawn (.subscription { lease := x, updates := .open e, react })).1, some x, f⟩
  /-- A caller waits for an attempt. -/
  | wait {m : QueryManager} {x : Option Lease} {f : Option String} {id : InstanceId} {e : Executor}
      {a : Attempt} {c : Caller} (htask : m.tasks[t]? = some (.caller c)) (hc : c.Pending)
      (hasks : m.Asks c id x) (he : m.executor? id = some e) (ha : a ∈ e.attempts)
      (hwait : ∀ i n y, c.stage = .waiting i n y → i = id ∧ n = a.number) :
      Act t given ⟨m, x, f⟩
        ⟨m.setTask t (.caller { c with stage := .waiting id a.number x }), x, f⟩
  | finish {m : QueryManager} {f : Option String} {c : Caller} {ending : Ending NumberedOutcome}
      (htask : m.tasks[t]? = some (.caller c)) (hc : c.Pending) (hend : m.Ends c given f ending) :
      Act t given ⟨m, none, f⟩ ⟨m.endCaller t c ending, none, f⟩
  /-- A subscription hands a result over. -/
  | hand {m : QueryManager} {x : Option Lease} {f : Option String} {s : Subscription} {e : Executor}
      {d : Delivery} (htask : m.tasks[t]? = some (.subscription s)) (hs : s.stage = .running)
      (he : m.executor? s.lease.id = some e) (hd : d.outcome ∈ e.results) :
      Act t given ⟨m, x, f⟩ ⟨m.note (.handed t d), x, f⟩
  /-- A subscription has read, or its handle was given up. -/
  | look {m : QueryManager} {f : Option String} {s s' : Subscription} {e : Executor}
      (htask : m.tasks[t]? = some (.subscription s)) (hlease : s'.lease = s.lease)
      (hstage : s'.stage = s.stage) (hreact : s'.react = s.react)
      (he : m.executor? s.lease.id = some e) (hu : ∀ o ∈ s'.updates.pending, o ∈ e.results) :
      Act t given ⟨m, s.lease?, f⟩ ⟨m.setTask t (.subscription s'), s.lease?, f⟩
  /-- A subscription has given up its lease, and tells its handlers. -/
  | complete {m : QueryManager} {s s' : Subscription} {e : Executor}
      (htask : m.tasks[t]? = some (.subscription s)) (hs : s.stage = .running)
      (hlease : s'.lease = s.lease) (hreact : s'.react = s.react)
      (he : m.executor? s.lease.id = some e) (hu : ∀ o ∈ s'.updates.pending, o ∈ e.results) :
      Act t given ⟨m, none, none⟩
        ⟨(m.setTask t (.subscription { s' with stage := .completed })).note (.completed t), none, none⟩
  /-- The release of a subscription's lease failed. -/
  | fail {m : QueryManager} {s s' : Subscription} {e : Executor} {text : String}
      (htask : m.tasks[t]? = some (.subscription s)) (hs : s.stage = .running)
      (hlease : s'.lease = s.lease) (hreact : s'.react = s.react)
      (he : m.executor? s.lease.id = some e) (hu : ∀ o ∈ s'.updates.pending, o ∈ e.results) :
      Act t given ⟨m, none, some text⟩
        ⟨m.setTask t (.subscription { s' with stage := .panicked text }), none, some text⟩

/-- What a task does until it has to wait. -/
abbrev Acts (t : TaskId) (given : Input) : Bench → Bench → Prop :=
  Relation.ReflTransGen (Act t given)

variable {m m' m'' : QueryManager} {b b' : Bench} {t u : TaskId} {given : Input}
variable {id : InstanceId} {e e' : Executor} {a : Attempt} {c : Caller} {s : Subscription}

theorem Cause.unsettled {result : Except Error OperationResult} (h : Cause e a result) :
    a.Unsettled := by
  cases h with
  | refused hst => exact Attempt.unsettled_of_stage hst rfl
  | cancelled hst => exact ExecutorOK.unsettled_of_isCalling hst
  | answered hst => exact Attempt.unsettled_of_stage hst rfl
  | dropped hst => exact Attempt.unsettled_of_stage hst rfl

theorem lt_of_task {x : Task} (h : m.tasks[t]? = some x) : t < m.tasks.length :=
  (List.getElem?_eq_some_iff.1 h).1

/-! ## Acts are made of the small changes -/

/-- **An act is made of the small changes.** -/
theorem Act.effect (h : Act t given b b') : ∃ stored, Effect t b.manager stored b'.manager := by
  cases h with
  | draw s hn hr => exact ⟨false, Effect.refl.calm (.draw s hn hr)⟩
  | acquire spec _ => exact ⟨false, Effect.refl.leases (.acquire _ spec)⟩
  | release x => exact ⟨false, Effect.refl.leases (.releaseLease _ x)⟩
  | close id _ => exact ⟨false, Effect.refl.leases (.closeInstance _ id)⟩
  | closeExecutor id _ => exact ⟨false, Effect.refl.leases (.closeExecutor _ id)⟩
  | cancel => exact ⟨false, (Effect.refl.leases (.closeAll _)).calm .cancel⟩
  | remark n hn =>
    refine ⟨false, Effect.refl.note n fun u d hd => ?_⟩
    rw [hd] at hn
    exact hn
  | start he hs hn hr hn' hr' _ => exact ⟨false, Effect.refl.start (.intro he hs hn hr hn' hr')⟩
  | call he hl hst _ htask hq =>
    exact ⟨false, (Effect.refl.calm (.advance he hl (Attempt.unsettled_of_stage hst rfl) rfl
      (.inr ⟨htask, hq⟩))).note _ (by simp)⟩
  | reply he hl hst _ _ =>
    exact ⟨false, Effect.refl.calm (.advance he hl (Attempt.unsettled_of_stage hst rfl) rfl
      (.inl (by simp [hst])))⟩
  | die he hl hst _ =>
    exact ⟨false, Effect.refl.calm (.advance he hl (Attempt.unsettled_of_stage hst rfl) rfl
      (.inl (by simp [hst])))⟩
  | settle he hl hcause ht => exact ⟨true, Effect.refl.store (.intro _ he hl hcause.unsettled ht)⟩
  | ask addressee block _ _ _ => exact ⟨false, Effect.refl.calm (.spawn _ (by simp))⟩
  | subscribe he _ react _ => exact ⟨false, Effect.refl.calm (.spawn _ (by simp))⟩
  | wait htask _ _ _ _ _ => exact ⟨false, Effect.refl.calm (.setTask _ (by simp))⟩
  | finish htask _ _ => exact ⟨false, Effect.refl.endCaller _ _⟩
  | hand htask _ _ _ =>
    exact ⟨false, Effect.refl.calm (.note _ fun u d hd => ⟨(Note.handed.inj hd).1.symm, lt_of_task htask⟩)⟩
  | look htask _ _ _ _ _ => exact ⟨false, Effect.refl.calm (.setTask _ (by simp))⟩
  | complete htask _ _ _ _ _ =>
    exact ⟨false, (Effect.refl.calm (.setTask _ (by simp))).note _ (by simp)⟩
  | fail htask _ _ _ _ _ => exact ⟨false, Effect.refl.calm (.setTask _ (by simp))⟩

theorem Act.ok (h : Act t given b b') (hok : ManagerOK b.manager) : ManagerOK b'.manager := by
  obtain ⟨stored, hf⟩ := h.effect
  exact hf.ok hok

theorem Acts.ok (h : Acts t given b b') (hok : ManagerOK b.manager) : ManagerOK b'.manager := by
  induction h with
  | refl => exact hok
  | tail _ hact ih => exact hact.ok ih

end QueryClient
