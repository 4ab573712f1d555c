import QueryClient.Query.LiveQuery
import QueryClient.Query.Task

/-!
# The manager of live queries

A manager has live queries, the registry of those in use, and the tasks around them. Tasks that can
go on wait in a queue and run one at a time. A scheduler that does nothing else runs them in the order in
which they became ready; one that favours a task puts it before the others first (Proofs/Manager/Run).

* `QueryManager.acquire`, `QueryManager.release`: leases on live queries.
* `QueryManager.ask`, `QueryManager.abort`: callers, and callers that lose interest.
* `QueryManager.subscribe`, `QueryManager.unsubscribe`: subscriptions.
* `QueryManager.answer`: the backend answers a call.
* `QueryManager.cancel`: everything ends.
* `QueryManager.wake`: the tasks that can go on are queued.
* `QueryManager.poll`: the first task of the queue runs until it has to wait.
-/

namespace QueryClient

/-- Live queries, and the tasks around them. -/
structure QueryManager where
  supply : Supply := {}
  cancelled : Bool := false
  /-- All live queries there have been; an instance is named by its place. -/
  lives : List LiveQuery := []
  registry : Registry := {}
  /-- All tasks there have been; a task is named by its place. -/
  tasks : List Task := []
  /-- The tasks that can go on. -/
  queue : List TaskId := []
  /-- What was seen from outside. -/
  journal : List Note := []

namespace QueryManager

/-- Something is seen from outside. -/
def note (m : QueryManager) (n : Note) : QueryManager := { m with journal := m.journal ++ [n] }

/-- The executor of an instance. -/
def executor? (m : QueryManager) (id : InstanceId) : Option Executor :=
  (m.lives[id]?).map (·.executor)

/-- The executor of an instance changes. -/
def setExecutor (m : QueryManager) (id : InstanceId) (e : Executor) : QueryManager :=
  { m with lives := m.lives.modify id fun q => { q with executor := e } }

/-- A task changes. -/
def setTask (m : QueryManager) (id : TaskId) (t : Task) : QueryManager :=
  { m with tasks := m.tasks.set id t }

/-! ## Which tasks can go on -/

/-- The task can go on. -/
def isReady (m : QueryManager) : Task → Bool
  | .attempt id number => (m.executor? id).any fun e => e.attemptReady number
  | .caller c =>
    match c.stage with
    | .arriving => true
    | .waiting id number _ => (m.executor? id).any fun e => e.awaitReady number
    | .ended _ => false
  | .subscription s =>
    match s.stage with
    | .running =>
      s.cancelled || m.cancelled || (m.executor? s.lease.id).any fun e => s.updates.ready e
    | _ => false

/-- The task is queued if it can go on and is not queued yet. -/
def wakeTask (m : QueryManager) (id : TaskId) : QueryManager :=
  if (m.tasks[id]?).any m.isReady && !m.queue.contains id then
    { m with queue := m.queue ++ [id] }
  else m

/-- The rank of a task among those that become ready together. -/
def rank : Task → Nat
  | .subscription _ => 0
  | .attempt .. => 1
  | .caller _ => 2

/-- The tasks of a rank, the oldest first. -/
def ofRank (m : QueryManager) (r : Nat) : List TaskId :=
  (List.range m.tasks.length).filter fun id => (m.tasks[id]?).any fun t => rank t == r

/-- **Tasks that can go on are queued:** subscriptions before the callers who wait for the same
result, older tasks before younger ones. -/
def wake (m : QueryManager) : QueryManager :=
  (m.ofRank 0 ++ m.ofRank 1 ++ m.ofRank 2).foldl wakeTask m

/-- A new task, which runs when those that are queued have run. -/
def spawn (m : QueryManager) (t : Task) : QueryManager × TaskId :=
  ({ m with tasks := m.tasks ++ [t], queue := m.queue ++ [m.tasks.length] }, m.tasks.length)

/-! ## Live queries and leases -/

/-- A live query that is not registered. -/
def openInstance (m : QueryManager) (spec : QuerySpec) : QueryManager × InstanceId :=
  ({ m with lives := m.lives ++ [{ executor := .ofSpec spec m.cancelled }] }, m.lives.length)

/-- A lease on the live query of a query, which is created when the key is not in use. -/
def acquire (m : QueryManager) (spec : QuerySpec) : QueryManager × Lease :=
  let (registry, id) := m.registry.acquire spec.key m.lives.length
  let m := { m with registry }
  let m := if id = m.lives.length then (m.openInstance spec).1 else m
  (m, ⟨spec.key, id⟩)

/-- Closes an instance. The flag says whether it was open. -/
def closeInstance (m : QueryManager) (id : InstanceId) : QueryManager × Bool :=
  match m.lives[id]? with
  | none => (m, false)
  | some q =>
    let (q, wasOpen) := q.close
    ({ m with lives := m.lives.set id q }, wasOpen)

/-- Gives up a lease; the last one closes the live query. The text says what is wrong, if anything
is. -/
def releaseLease (m : QueryManager) (lease : Lease) : QueryManager × Option String :=
  let (registry, outcome) := m.registry.release lease.key lease.id
  let m := { m with registry }
  let (m, wasOpen) := if outcome = .last then m.closeInstance lease.id else (m, true)
  (m, Registry.fault? lease.key wasOpen outcome)

/-- Gives up a lease that may be none. -/
def releaseLease? (m : QueryManager) : Option Lease → QueryManager × Option String
  | none => (m, none)
  | some lease => m.releaseLease lease

/-! ## What the tasks do -/

/-- Asks an instance; an attempt that is started for this gets a task. -/
def enter (m : QueryManager) (id : InstanceId) (e : Executor) : QueryManager × Entry :=
  let (e, supply, entry) := e.enter m.supply
  let m := { m with supply }.setExecutor id e
  match entry with
  | .started number => ((m.spawn (.attempt id number)).1, entry)
  | _ => (m, entry)

/-- A caller ends. -/
def endCaller (m : QueryManager) (task : TaskId) (c : Caller) (ending : Ending NumberedOutcome) :
    QueryManager :=
  (m.setTask task (.caller { c with stage := .ended ending })).note (.ended task ending)

/-- A caller has its result: it gives up its lease, and panics if that fails. -/
def finishCaller (m : QueryManager) (task : TaskId) (c : Caller) (lease : Option Lease)
    (outcome : NumberedOutcome) : QueryManager :=
  let (m, fault) := m.releaseLease? lease
  m.endCaller task c (fault.elim (.returned outcome) .panicked)

/-- A caller waits for an attempt, or has its result at once. -/
def awaitAttempt (m : QueryManager) (task : TaskId) (c : Caller) (id : InstanceId) (number : Int)
    (lease : Option Lease) : QueryManager :=
  let waiting := m.setTask task (.caller { c with stage := .waiting id number lease })
  match m.executor? id with
  | none => waiting
  | some e =>
    match e.await? number with
    | none => waiting
    | some (e, outcome, madeUp) =>
      let m := m.setExecutor id e
      let m := if madeUp then m.note (.warned e.droppedText) else m
      m.finishCaller task c lease outcome

/-- A caller asks an instance. -/
def callInstance (m : QueryManager) (task : TaskId) (c : Caller) (id : InstanceId)
    (lease : Option Lease) : QueryManager :=
  match m.executor? id with
  | none => m
  | some e =>
    match m.enter id e with
    | (m, .found outcome) => m.finishCaller task c lease outcome
    | (m, .joined number) | (m, .started number) => m.awaitAttempt task c id number lease

/-- What a caller's block panics with. -/
def blockFailed : String := "block failed"

/-- A caller arrives: it leases the live query it is interested in, does to it what its block says,
and asks. A lease that cannot be given up is reported when the caller is panicking already. -/
def arrive (m : QueryManager) (task : TaskId) (c : Caller) : QueryManager :=
  match c.addressee with
  | .direct id => m.callInstance task c id none
  | .leased spec =>
    let (m, lease) := m.acquire spec
    let m := if c.block.closes then (m.closeInstance lease.id).1 else m
    if c.block.panics then
      let (m, fault) := m.releaseLease lease
      let m := fault.elim m fun text => m.note (.failed text)
      m.endCaller task c (.panicked blockFailed)
    else m.callInstance task c lease.id (some lease)

/-- A subscription ends: it gives up its lease, and then tells its handlers. -/
def endSubscription (m : QueryManager) (task : TaskId) (s : Subscription) : QueryManager :=
  match m.releaseLease s.lease with
  | (m, none) =>
    (m.setTask task (.subscription { s with stage := .completed })).note (.completed task)
  | (m, some text) => m.setTask task (.subscription { s with stage := .panicked text })

/-- What is said of a subscription whose handler panics. -/
def handlerPanicked (key : QueryKey) : String :=
  "subscription handler for " ++ key.display ++ " panicked"

/-- A subscription hands over results until there is none left or it has to end. -/
def deliver : Nat → QueryManager → TaskId → Subscription → QueryManager
  | 0, m, task, s => m.setTask task (.subscription s)
  | fuel + 1, m, task, s =>
    if s.cancelled || m.cancelled then m.endSubscription task s
    else
      match m.executor? s.lease.id with
      | none => m.setTask task (.subscription s)
      | some e =>
        match s.updates.next e with
        | (updates, none) => m.setTask task (.subscription { s with updates })
        | (updates, some outcome) =>
          let delivery : Delivery := ⟨outcome, updates.source outcome⟩
          let m := m.note (.handed task delivery)
          let reaction := s.react delivery
          let s := { s with updates, cancelled := s.cancelled || reaction.unsubscribes }
          if reaction.panics then
            (m.note (.failed (handlerPanicked s.lease.key))).endSubscription task s
          else deliver fuel m task s

/-- A task runs until it has to wait. -/
def runTask (m : QueryManager) (task : TaskId) : QueryManager :=
  match m.tasks[task]? with
  | none => m
  | some (.attempt id number) =>
    match m.executor? id with
    | none => m
    | some e =>
      match e.stage? number with
      | some .spawned =>
        let e := e.begin number
        let m := m.setExecutor id e
        match e.attempt? number with
        | some ⟨_, request, .calling⟩ => m.note (.called task e.spec request)
        | _ => m
      | _ => m.setExecutor id (e.resume number)
  | some (.caller c) =>
    match c.stage with
    | .arriving => m.arrive task c
    | .waiting id number lease => m.awaitAttempt task c id number lease
    | .ended _ => m
  | some (.subscription s) =>
    match s.stage with
    | .running => deliver (s.updates.pending.length + 2) m task s
    | _ => m

/-! ## What happens from outside -/

/-- **The first task of the queue runs until it has to wait.** -/
def poll (m : QueryManager) : QueryManager :=
  match m.queue with
  | [] => m
  | task :: rest => ({ m with queue := rest }.runTask task).wake

/-- Gives up a lease. -/
def release (m : QueryManager) (lease : Lease) : QueryManager × Option String :=
  let (m, fault) := m.releaseLease lease
  (m.wake, fault)

/-- Closes an instance, whoever uses it. The flag says whether it was open. -/
def close (m : QueryManager) (id : InstanceId) : QueryManager × Bool :=
  let (m, wasOpen) := m.closeInstance id
  (m.wake, wasOpen)

/-- Closes the executor of an instance. -/
def closeExecutor (m : QueryManager) (id : InstanceId) : QueryManager :=
  { m with lives := m.lives.modify id fun q => { q with executor := q.executor.close } }.wake

/-- A new caller. -/
def ask (m : QueryManager) (addressee : Addressee) (block : Block) : QueryManager × TaskId :=
  m.spawn (.caller { addressee, block })

/-- A caller loses interest. -/
def abort (m : QueryManager) (task : TaskId) : QueryManager :=
  match m.tasks[task]? with
  | some (.caller c) =>
    match c.stage with
    | .arriving => m.endCaller task c .dropped
    | .waiting _ _ lease =>
      let (m, fault) := m.releaseLease? lease
      (m.endCaller task c (fault.elim .dropped .panicked)).wake
    | .ended _ => m
  | _ => m

/-- A new subscription. With `executes`, a result is asked for first. -/
def subscribe (m : QueryManager) (spec : QuerySpec) (executes : Bool)
    (react : Delivery → Reaction) : QueryManager × TaskId :=
  let (m, lease) := m.acquire spec
  match m.executor? lease.id with
  | none => (m, m.tasks.length)
  | some e =>
    let updates := Updates.open e
    let m := if executes then (m.ask (.direct lease.id) {}).1 else m
    m.spawn (.subscription { lease, updates, react })

/-- The handle of a subscription is given up. -/
def unsubscribe (m : QueryManager) (task : TaskId) : QueryManager :=
  match m.tasks[task]? with
  | some (.subscription s) => (m.setTask task (.subscription { s with cancelled := true })).wake
  | _ => m

/-- The subscription's handle has not been given up and the manager has not been cancelled. -/
def isActive (m : QueryManager) (task : TaskId) : Bool :=
  match m.tasks[task]? with
  | some (.subscription s) => !(s.cancelled || m.cancelled)
  | _ => false

/-- The backend answers the call of a task. The answer is looked at when the task runs next. -/
def answer (m : QueryManager) (task : TaskId) (reply : Reply) : QueryManager :=
  match m.tasks[task]? with
  | some (.attempt id number) =>
    match m.executor? id with
    | some e => (m.setExecutor id (e.answer number reply)).wake
    | none => m
  | _ => m

/-- The backend answers a task at once, within the same run of the task. -/
def answerNow (m : QueryManager) (task : TaskId) (reply : Reply) : QueryManager :=
  match m.tasks[task]? with
  | some (.attempt id number) =>
    match m.executor? id with
    | some e => (m.setExecutor id ((e.answer number reply).resume number)).wake
    | none => m
  | _ => m

/-- The task of an attempt dies. -/
def kill (m : QueryManager) (task : TaskId) : QueryManager :=
  match m.tasks[task]? with
  | some (.attempt id number) =>
    match m.executor? id with
    | some e => (m.setExecutor id (e.kill number)).wake
    | none => m
  | _ => m

/-- **Everything ends:** no live query calls the backend any more, and every subscription ends, the
youngest first. -/
def cancel (m : QueryManager) : QueryManager :=
  let m := { m with
    cancelled := true
    lives := m.lives.map fun q => { q with executor := q.executor.close } }
  (List.range m.tasks.length).reverse.foldl wakeTask m

/-! ## What is seen of the state -/

/-- The task waits for the backend's answer. -/
def isCalling (m : QueryManager) (task : TaskId) : Bool :=
  match m.tasks[task]? with
  | some (.attempt id number) =>
    match (m.executor? id).bind fun e => e.stage? number with
    | some .calling => true
    | _ => false
  | _ => false

/-- The task uses the instance and has not ended. -/
def taskUses (m : QueryManager) (id : InstanceId) : Task → Bool
  | .attempt other number =>
    other == id && (m.executor? id).any fun e => e.attemptRuns number
  | .caller c =>
    match c.stage with
    | .arriving =>
      match c.addressee with
      | .direct other => other == id
      | .leased _ => false
    | .waiting other _ _ => other == id
    | .ended _ => false
  | .subscription s =>
    match s.stage with
    | .running => s.lease.id == id
    | _ => false

/-- The registry or a task uses the instance. -/
def isUsed (m : QueryManager) (id : InstanceId) : Bool :=
  m.registry.entries.any (fun e => e.2.object == id) || m.tasks.any (m.taskUses id)

end QueryManager

end QueryClient
