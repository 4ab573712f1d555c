import QueryClient.Session.Command

/-!
# Sessions

A session has executors, a registry, managers, services and a token manager, each under a name, on
one scheduler and with one supply of numbers. What the parts of a session show goes through its
inbox: calls are passed on to whoever answers them, and the rest goes into the report.

* `Session`: the objects.
* `Session.overQueries`, `Session.overMutations`, `Session.overRealm`: an operation on a part.
* `Session.view`: what is seen of the objects.
-/

namespace QueryClient

/-- Where a live query belongs. -/
inductive Place where
  /-- It is an executor that is used by itself. -/
  | bench
  | registry
  | manager
  | service (id : ServiceId)
  deriving DecidableEq, Repr

/-- Work in a part of a session. -/
inductive Work where
  | task (place : Place) (id : TaskId)
  | execution (place : Place) (id : TaskId)
  | fetch (id : FetchId)
  /-- A call over the web that nobody manages. -/
  | direct (id : Nat)
  deriving DecidableEq, Repr

/-- What is made of a task's result. -/
inductive Purpose where
  | outcome
  | update
  | typed (operation : TypedOperation)

/-- A task with a name. -/
structure Job where
  name : String
  work : Work
  purpose : Purpose := .outcome

/-- A call over the web that waits for its token. -/
structure Exchange where
  client : Work
  transport : RestTransport
  action : Action
  operation : String
  vars : Struct
  fetch : FetchId

/-- A subscription with a name. -/
structure Observer where
  name : String
  place : Place
  task : TaskId
  handlers : Handlers
  /-- How data are decoded; none for a subscription that gets them as they are. -/
  operation : Option TypedOperation := none

/-- A reader of results with a name. -/
structure Reader where
  place : Place
  id : InstanceId
  updates : Updates

/-- What a part of a session shows. -/
inductive Notice where
  | query (place : Place) (note : Note)
  | mutation (place : Place) (note : MutationNote)
  | auth (note : AuthNote)

/-- Values by name. -/
abbrev Named (α : Type) := List (String × α)

namespace Named

variable {α : Type}

/-- The value of a name. -/
def get? (n : Named α) (name : String) : Option α := (n.find? fun e => e.1 = name).map (·.2)

/-- The value of a name changes; a new name comes last. -/
def set (n : Named α) (name : String) (value : α) : Named α :=
  if n.any (·.1 = name) then n.map fun e => if e.1 = name then (name, value) else e
  else n ++ [(name, value)]

/-- A name is given up. -/
def erase (n : Named α) (name : String) : Named α := n.filter fun e => e.1 ≠ name

end Named

/-- The objects of a session. -/
structure Session where
  supply : Supply := {}
  /-- Executors, the registry and the managers end together. -/
  cancelled : Bool := false
  script : Script Reply := {}
  tokens : Script ScriptedToken := {}
  /-- The calls of the scripted backend so far. -/
  calls : List Work := []
  /-- The web can be reached. -/
  online : Bool := false
  answers : List HttpAnswer := []
  exchanges : List Exchange := []
  jobs : List Job := []
  observers : List Observer := []
  /-- The number of calls over the web that nobody manages. -/
  directs : Nat := 0
  bench : QueryManager := {}
  registry : Option QueryManager := none
  manager : Option QueryManager := none
  mutations : Option MutationManager := none
  directory : Directory := {}
  auth : Option AuthId := none
  /-- The provider closes the session's token manager while it takes a listener. -/
  closesOnAdd : Bool := false
  rest : Option RestTransport := none
  executors : Named InstanceId := []
  leases : Named (Place × Lease) := []
  queries : Named (Place × InstanceId) := []
  readers : Named Reader := []
  /-- The subscriptions whose handles are held. -/
  handles : List String := []
  services : Named ServiceId := []
  inbox : List Notice := []
  report : Report := {}

namespace Session

/-! ## Operations on parts -/

/-- The service with the given name. -/
def service? (s : Session) (name : String) : Option (ServiceId × Service) := do
  let id ← s.services.get? name
  let service ← s.directory.services[id]?
  return (id, service)

/-- The live queries of a place. -/
def queriesAt? (s : Session) : Place → Option QueryManager
  | .bench => some s.bench
  | .registry => s.registry
  | .manager => s.manager
  | .service id => (s.directory.services[id]?).map (·.queries)

/-- The directory changes; what its realm shows goes into the inbox. -/
def setDirectory (s : Session) (d : Directory) : Session :=
  { s with
    inbox := s.inbox ++ d.realm.journal.map Notice.auth
    directory := { d with realm := { d.realm with journal := [] } } }

/-- The live queries of a place change; what they show goes into the inbox. -/
def setQueries (s : Session) (place : Place) (m : QueryManager) : Session :=
  let s := { s with
    supply := m.supply
    inbox := s.inbox ++ m.journal.map (Notice.query place) }
  let m := { m with journal := [] }
  match place with
  | .bench => { s with bench := m }
  | .registry => { s with registry := some m }
  | .manager => { s with manager := some m }
  | .service id =>
    { s with directory := { s.directory with
        services := s.directory.services.modify id fun x => { x with queries := m } } }

/-- An operation on the live queries of a place, with the session's supply. -/
def overQueries {α : Type} (s : Session) (place : Place)
    (f : QueryManager → QueryManager × α) : Session × Option α :=
  match s.queriesAt? place with
  | none => (s, none)
  | some m =>
    let (m, a) := f { m with supply := s.supply }
    (s.setQueries place m, some a)

/-- An operation on the live queries of a place that returns nothing. -/
def changeQueries (s : Session) (place : Place) (f : QueryManager → QueryManager) : Session :=
  (s.overQueries place fun m => (f m, ())).1

/-- The mutations of a place. -/
def mutationsAt? (s : Session) : Place → Option MutationManager
  | .bench | .registry => none
  | .manager => s.mutations
  | .service id => (s.directory.services[id]?).map (·.mutations)

/-- The mutations of a place change; what they show goes into the inbox. -/
def setMutations (s : Session) (place : Place) (m : MutationManager) : Session :=
  let s := { s with
    supply := m.supply
    inbox := s.inbox ++ m.journal.map (Notice.mutation place) }
  let m := { m with journal := [] }
  match place with
  | .bench | .registry => s
  | .manager => { s with mutations := some m }
  | .service id =>
    { s with directory := { s.directory with
        services := s.directory.services.modify id fun x => { x with mutations := m } } }

/-- An operation on the mutations of a place, with the session's supply. -/
def overMutations {α : Type} (s : Session) (place : Place)
    (f : MutationManager → MutationManager × α) : Session × Option α :=
  match s.mutationsAt? place with
  | none => (s, none)
  | some m =>
    let (m, a) := f { m with supply := s.supply }
    (s.setMutations place m, some a)

/-- An operation on the mutations of a place that returns nothing. -/
def changeMutations (s : Session) (place : Place) (f : MutationManager → MutationManager) :
    Session :=
  (s.overMutations place fun m => (f m, ())).1

/-- An operation on the realm of the session's token managers. -/
def overRealm {α : Type} (s : Session) (f : AuthRealm → AuthRealm × α) : Session × α :=
  let (realm, a) := f s.directory.realm
  (s.setDirectory { s.directory with realm }, a)

/-- An operation on the realm that returns nothing. -/
def changeRealm (s : Session) (f : AuthRealm → AuthRealm) : Session :=
  (s.overRealm fun r => (f r, ())).1

/-- An operation on the session's token manager, if it has one. -/
def changeAuth (s : Session) (f : AuthRealm → AuthId → AuthRealm) : Session :=
  s.auth.elim s fun id => s.changeRealm fun r => f r id

/-- An operation of a service that can be refused. -/
def tryService {α : Type} (s : Session) (id : ServiceId) (service : Service)
    (f : Service → Except Error (Service × α)) : Session × Except Error α :=
  match f service with
  | .error e => (s, .error e)
  | .ok (service, a) => ({ s with directory := s.directory.set id service }, .ok a)

/-! ## The report -/

/-- A record in the log. -/
def log (s : Session) (level : LogLevel) (text : String) : Session :=
  { s with report := { s.report with logs := s.report.logs ++ [(level, text)] } }

/-- A task ended. -/
def finish (s : Session) (name : String) (answer : Answer) : Session :=
  { s with report := { s.report with done := s.report.done ++ [(name, answer)] } }

/-- An observer got something. -/
def observe (s : Session) (name : String) (event : Event) : Session :=
  { s with report := { s.report with events := s.report.events ++ [(name, event)] } }

/-! ## What is seen -/

/-- The work waits for its call of the backend. -/
def isCalling (s : Session) : Work → Bool
  | .task place id => (s.queriesAt? place).any fun m => m.isCalling id
  | .execution place id => (s.mutationsAt? place).any fun m => m.isCalling id
  | .fetch _ => false
  | .direct id => s.jobs.any fun j => j.work = .direct id

/-- The calls of the scripted backend that are waited for. -/
def heldCalls (s : Session) : List Nat :=
  (List.range s.calls.length).filterMap fun i =>
    if (s.calls[i]?).any s.isCalling then some (i + 1) else none

/-- What is seen of an instance. -/
def viewInstance? (s : Session) (place : Place) (id : InstanceId) : Option ExecutorView := do
  let m ← s.queriesAt? place
  let e ← m.executor? id
  return ⟨e.closed, e.last, e.lastSuccess⟩

/-- What is seen of the registry of a place: its size, and how many use the key of each lease. -/
def viewRegistry? (s : Session) (place : Place) : Option RegistryView := do
  let m ← s.queriesAt? place
  return ⟨m.registry.size, s.leases.map fun l => (l.1, m.registry.users l.2.2.key)⟩

/-- What is seen of the session's token manager. -/
def viewAuth? (s : Session) : Option AuthView := do
  let id ← s.auth
  let r := s.directory.realm
  return ⟨r.isClosed id, r.uid id, r.provider.listeners.length, r.calls, r.waitingCalls⟩

/-- What is seen of the objects of the session. -/
def view (s : Session) : View where
  held := s.heldCalls
  executors := s.executors.filterMap fun (name, id) => do
    return (name, ← s.viewInstance? .bench id)
  queries := s.queries.filterMap fun (name, place, id) => do
    return (name, ← s.viewInstance? place id)
  live := s.viewRegistry? .registry
  manager := s.viewRegistry? .manager
  subscriptions := s.handles.filterMap fun name => do
    let o ← s.observers.find? fun o => o.name = name
    let m ← s.queriesAt? o.place
    return (name, m.isActive o.task)
  services := s.services.filterMap fun (name, id) => do
    let x ← s.directory.services[id]?
    return (name, ⟨x.closed, x.settings.baseUrl⟩)
  auth := s.viewAuth?

end Session

end QueryClient
