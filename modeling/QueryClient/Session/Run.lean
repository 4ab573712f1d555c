import QueryClient.Session.Settle

/-!
# Carrying out commands

* `Session.perform`: what a command does to a session, and what it returns.
* `Session.step`: a command, and all that follows from it.
-/

namespace QueryClient.Session

/-! ## Names -/

/-- Where the registry of an owner is. -/
def placeOf? (s : Session) : Owner → Option Place
  | .registry => some .registry
  | .manager => some .manager
  | .service name => (s.services.get? name).map .service

/-- A registry is needed. A service's managers are built for this, which a closed service
refuses. -/
def prepare (s : Session) : Place → Session × Except Error Unit
  | .service id =>
    match s.directory.services[id]? with
    | none => (s, .ok ())
    | some service => s.tryService id service fun x => x.components.map fun x => (x, ())
  | _ => (s, .ok ())

/-- Work gets a name. -/
def addJob (s : Session) (job : Job) : Session := { s with jobs := s.jobs ++ [job] }

/-- Tasks that ask for results, one for each name. -/
def askAll (s : Session) (place : Place) (addressee : Addressee) (block : Block)
    (purpose : Purpose) (names : List String) : Session :=
  names.foldl (fun s name =>
    match s.overQueries place fun m => m.ask addressee block with
    | (s, some id) => s.addJob { name, work := .task place id, purpose }
    | (s, none) => s) s

/-- The session's executor of the given name. -/
def askExecutor (s : Session) (place : Place) (id : Option InstanceId) (names : List String) :
    Session :=
  id.elim s fun id => s.askAll place (.direct id) {} .outcome names

/-! ## Readers and executors -/

/-- A reader of an instance's results gets a name. With `executes`, a result is asked for. -/
def openReader (s : Session) (name : String) (place : Place) (id : InstanceId) (executes : Bool) :
    Session × Out :=
  match (s.queriesAt? place).bind fun m => m.executor? id with
  | none => (s, .nothing)
  | some e =>
    let updates := Updates.open e
    let s := { s with readers := s.readers.set name { place, id, updates } }
    let s :=
      if executes then (s.overQueries place fun m => m.ask (.direct id) {}).1 else s
    (s, .replayed updates.replayedThrough)

/-- Somebody uses the instance. -/
def isUsed (s : Session) (place : Place) (id : InstanceId) : Bool :=
  (s.queriesAt? place).any (fun m => m.isUsed id)
    || (place == .bench && s.executors.any fun e => e.2 == id)
    || s.queries.any fun e => e.2 == (place, id)

/-- What a reader gets now. -/
def readNext (s : Session) (name : String) (r : Reader) : Session × Read :=
  match (s.queriesAt? r.place).bind fun m => m.executor? r.id with
  | none => (s, .ended)
  | some e =>
    let (updates, outcome) := r.updates.next e
    let s := { s with readers := s.readers.set name { r with updates } }
    match outcome with
    | some o => (s, .outcome o)
    | none => (s, if s.isUsed r.place r.id then .pending else .ended)

/-! ## Leases -/

/-- A lease on the live query of a query gets a name. -/
def acquireLease (s : Session) (name : String) (spec : QuerySpec) (place : Place) :
    Session × Out :=
  match s.overQueries place fun m => m.acquire spec with
  | (s, none) => (s, .nothing)
  | (s, some lease) =>
    let m := (s.queriesAt? place).getD {}
    let shared := s.leases.filterMap fun (other, home, l) =>
      if home = place ∧ l.id = lease.id ∧ other ≠ name then some other else none
    let acquired : Acquired := {
      key := lease.key
      sameKey := (m.lives[lease.id]?).any fun q => q.key = lease.key
      users := m.registry.users lease.key
      sharedWith := shared
      empty := m.registry.size == 0 }
    let s := { s with
      leases := s.leases.set name (place, lease)
      queries := s.queries.set name (place, lease.id) }
    (s, .acquired acquired)

/-- A lease is given up. -/
def releaseLease (s : Session) (name : String) : Session × Out :=
  match s.leases.get? name with
  | none => (s, .nothing)
  | some (place, lease) =>
    let s := { s with leases := s.leases.erase name }
    match s.overQueries place fun m => m.release lease with
    | (s, some (some text)) => (s, .panicked text)
    | (s, _) => (s, .nothing)

/-! ## Subscriptions -/

/-- A subscription gets a name. -/
def addObserver (s : Session) (o : Observer) : Session :=
  { s with
    observers := s.observers.filter (fun x => x.name ≠ o.name) ++ [o]
    handles := s.handles.erase o.name ++ [o.name] }

/-- The handle of a subscription is given up. -/
def dropHandle (s : Session) (name : String) : Session :=
  let s := { s with handles := s.handles.erase name }
  match s.observers.find? fun o => o.name = name with
  | none => s
  | some o => s.changeQueries o.place fun m => m.unsubscribe o.task

/-! ## Tasks -/

/-- A task is abandoned. -/
def abortWork (s : Session) (name : String) (work : Work) : Session :=
  match work with
  | .task place id => s.changeQueries place fun m => m.abort id
  | .execution place id => s.changeMutations place fun m => m.abort id
  | .fetch id => s.changeRealm fun r => r.abort id
  | .direct _ => { s with jobs := s.jobs.filter fun j => j.work ≠ work }.finish name .aborted

/-- A call over the web that nobody manages. -/
def callDirectly (s : Session) (t : RestTransport) (action : Action) (spec : QuerySpec)
    (name : String) : Session :=
  let work : Work := .direct s.directs
  let s := { s with directs := s.directs + 1 }.addJob { name, work }
  s.callWeb work t action spec.operation spec.vars

/-! ## Operations of services -/

/-- Tasks that ask for typed results, one for each name. -/
def queryAll (s : Session) (on : String) (t : TypedOperation) (names : List String) : Session :=
  names.foldl (fun s name =>
    match s.service? on with
    | none => s
    | some (id, service) =>
      match s.tryService id service fun x => x.query t.operation t.vars with
      | (s, .ok task) => s.addJob { name, work := .task (.service id) task, purpose := .typed t }
      | (s, .error e) => s.finish name (.queryResult t.operation t.given (.error e))) s

/-- Tasks that execute a mutation, one for each name. -/
def mutateAll (s : Session) (on : String) (t : TypedOperation) (names : List String) : Session :=
  names.foldl (fun s name =>
    match s.service? on with
    | none => s
    | some (id, service) =>
      match s.tryService id service fun x => x.mutate t.operation t.vars with
      | (s, .ok x) => s.addJob { name, work := .execution (.service id) x, purpose := .typed t }
      | (s, .error e) => s.finish name (.mutationResult t.operation t.given (.error e))) s

/-- A service gets a name. -/
def nameService (s : Session) (name : String) (id : ServiceId) : Session :=
  { s with services := s.services.set name id }

/-- The session's token manager, for one who holds it from now on; one that never has a provider
when the session has none. -/
def shareAuth (s : Session) : Session × AuthId :=
  match s.auth with
  | some id => (s.changeRealm fun r => r.hold id, id)
  | none => s.overRealm fun r => r.create true

/-- A new service that is not remembered. -/
def addService (s : Session) (name : String) (options : Options) (settings : Option Settings) :
    Session :=
  match settings with
  | none =>
    let (d, id) := s.directory.addGiven options
    (s.setDirectory d).nameService name id
  | some settings =>
    let (s, auth) := s.shareAuth
    let (d, id) := s.directory.addWeb options settings auth
    (s.setDirectory d).nameService name id

/-- A change of a service that can be refused. -/
def configure (s : Session) (on : String) (f : Service → Except Error Service) : Session × Out :=
  match s.service? on with
  | none => (s, .nothing)
  | some (id, service) =>
    let (s, result) := s.tryService id service fun x => (f x).map fun x => (x, ())
    (s, .done result)

/-! ## The auth provider -/

/-- The provider closes the session's token manager while it takes a listener, if it does that at
all. -/
def aimProvider (s : Session) : Session :=
  s.changeRealm fun r =>
    { r with provider := { r.provider with closedOnAdd := s.auth.filter fun _ => s.closesOnAdd } }

/-- The auth provider changes. -/
def changeProvider (s : Session) (c : ProviderChange) : Session :=
  let s := { s with closesOnAdd := c.closesOnAdd.getD s.closesOnAdd }.aimProvider
  s.changeRealm fun r =>
    let p := r.provider
    let p := { p with
      addError := c.addError.getD p.addError
      removeError := c.removeError.getD p.removeError }
    let r := { r with provider := p }.setUser (c.uid.getD p.uid)
    if c.notifies then r.notify else r

/-- The session's token manager is another one. -/
def setAuth (s : Session) (auth : Option AuthId) : Session :=
  { s.changeAuth AuthRealm.letGo with auth }.aimProvider

/-! ## Commands -/

/-- Everything that the session's commands started ends. -/
def cancelAll (s : Session) : Session :=
  let s := { s with cancelled := true }
  let s := [Place.bench, .registry, .manager].foldl
    (fun s place => s.changeQueries place QueryManager.cancel) s
  s.changeMutations .manager MutationManager.cancel

/-- **What a command does,** and what it returns. -/
def perform (s : Session) : Command → Session × Out
  | .manual on => ({ s with script := { s.script with manual := on } }, .nothing)
  | .manualTokens on => ({ s with tokens := { s.tokens with manual := on } }, .nothing)
  | .queue replies =>
    ({ s with script := { s.script with queue := s.script.queue ++ replies } }, .nothing)
  | .queueTokens replies =>
    ({ s with tokens := { s.tokens with queue := s.tokens.queue ++ replies } }, .nothing)
  | .respond call answer =>
    match s.calls[call - 1]? with
    | none => (s, .flag false)
    | some work =>
      if 0 < call && s.isCalling work then (s.reply work answer, .flag true)
      else (s, .flag false)
  | .respondToken call answer =>
    match s.directory.realm.fetchOf? call with
    | none => (s, .flag false)
    | some fetch =>
      ((s.interrupt answer.before).changeRealm fun r => r.answer fetch answer.reply, .flag true)
  | .abort name =>
    match s.jobs.find? fun j => j.name = name with
    | none => (s, .nothing)
    | some job => (s.abortWork name job.work, .nothing)
  | .cancel => (s.cancelAll, .nothing)
  | .executor name spec =>
    match s.overQueries .bench fun m => m.openInstance spec with
    | (s, some id) => ({ s with executors := s.executors.set name id }, .query spec)
    | (s, none) => (s, .nothing)
  | .execute on names => (s.askExecutor .bench (s.executors.get? on) names, .nothing)
  | .openExecutor name on executes =>
    match s.executors.get? on with
    | some id => s.openReader name .bench id executes
    | none => (s, .nothing)
  | .next name =>
    match s.readers.get? name with
    | none => (s, .nothing)
    | some r =>
      let (s, read) := s.readNext name r
      (s, .read read)
  | .discard name => ({ s with readers := s.readers.erase name }, .nothing)
  | .closeExecutor on =>
    match s.executors.get? on with
    | some id => (s.changeQueries .bench fun m => m.closeExecutor id, .nothing)
    | none => (s, .nothing)
  | .dropExecutor on => ({ s with executors := s.executors.erase on }, .nothing)
  | .executorState on =>
    match (s.executors.get? on).bind fun id => s.viewInstance? .bench id with
    | some v => (s, .stored v.last v.lastSuccess)
    | none => (s, .nothing)
  | .registry => ({ s with registry := some { cancelled := s.cancelled } }, .nothing)
  | .acquire name spec owner =>
    match s.placeOf? owner with
    | some place =>
      match s.prepare place with
      | (s, .ok _) => s.acquireLease name spec place
      | (s, .error e) => (s, .done (.error e))
    | none => (s, .nothing)
  | .release name => s.releaseLease name
  | .liveExecute on names =>
    match s.queries.get? on with
    | some (place, id) => (s.askExecutor place (some id) names, .nothing)
    | none => (s, .nothing)
  | .liveOpen name on executes =>
    match s.queries.get? on with
    | some (place, id) => s.openReader name place id executes
    | none => (s, .nothing)
  | .liveClose on =>
    match s.queries.get? on with
    | some (place, id) =>
      match s.overQueries place fun m => m.close id with
      | (s, some wasOpen) => (s, .flag wasOpen)
      | (s, none) => (s, .nothing)
    | none => (s, .nothing)
  | .liveDescribe on =>
    match (s.queries.get? on).bind fun (place, id) =>
        (s.queriesAt? place).bind fun m => m.lives[id]? with
    | some q => (s, .text q.describe)
    | none => (s, .nothing)
  | .liveCompare on spec =>
    match (s.queries.get? on).bind fun (place, id) =>
        (s.queriesAt? place).bind fun m => m.lives[id]? with
    | some q => (s, .compared q.executor.spec (q.executor.spec.agrees spec))
    | none => (s, .nothing)
  | .forget name => ({ s with queries := s.queries.erase name }, .nothing)
  | .withLiveQuery names spec block owner =>
    match s.placeOf? owner with
    | some place =>
      match s.prepare place with
      | (s, .ok _) => (s.askAll place (.leased spec) block .outcome names, .nothing)
      | (s, .error e) => (s, .done (.error e))
    | none => (s, .nothing)
  | .managers =>
    ({ s with
        manager := some { cancelled := s.cancelled }
        mutations := some { cancelled := s.cancelled } }, .nothing)
  | .managerQuery names spec => (s.askAll .manager (.leased spec) {} .update names, .nothing)
  | .managerMutation names spec =>
    (names.foldl (fun s name =>
      match s.overMutations .manager fun m => m.execute spec.operation spec.vars with
      | (s, some id) => s.addJob { name, work := .execution .manager id, purpose := .update }
      | (s, none) => s) s, .nothing)
  | .managerSubscribe name spec executes handlers =>
    match s.overQueries .manager fun m => m.subscribe spec executes (reactionOf handlers none) with
    | (s, some task) => (s.addObserver { name, place := .manager, task, handlers }, .nothing)
    | (s, none) => (s, .nothing)
  | .unsubscribe name => (s.dropHandle name, .nothing)
  | .provider change => (s.changeProvider change, .nothing)
  | .provide => (s.changeRealm AuthRealm.provide, .flag true)
  | .auth unavailable =>
    let (s, id) := s.overRealm fun r => r.create unavailable
    (s.setAuth (some id), .nothing)
  | .dropAuth => (s.setAuth none, .nothing)
  | .token names =>
    (names.foldl (fun s name =>
      match s.auth with
      | none => s
      | some id =>
        let (s, fetch) := s.overRealm fun r => r.fetch id
        s.addJob { name, work := .fetch fetch }) s, .nothing)
  | .forceRefresh => (s.changeAuth AuthRealm.forceRefresh, .nothing)
  | .listen listener => (s.changeAuth fun r id => r.listen id listener, .nothing)
  | .closeAuth => (s.changeAuth AuthRealm.close, .nothing)
  | .rest options settings generated =>
    match options with
    | .error e => (s, .done (.error e))
    | .ok options =>
      let (s, manager) := s.shareAuth
      ({ s with rest := some { options, settings, manager, generated } }, .done (.ok ()))
  | .call action names spec =>
    match s.rest with
    | none => (s, .nothing)
    | some t => (names.foldl (fun s name => s.callDirectly t action spec name) s, .nothing)
  | .queueAnswers answers => ({ s with answers := s.answers ++ answers }, .nothing)
  | .service name options settings =>
    match options with
    | .error e => (s, .done (.error e))
    | .ok options => (s.addService name options settings, .done (.ok ()))
  | .obtain name options settings environment =>
    match options.bind fun o => s.directory.obtain o settings environment with
    | .error e => (s, .configured (.error e))
    | .ok (d, id) =>
      let s := (s.setDirectory d).nameService name id
      match s.directory.services[id]? with
      | some x => (s, .configured (.ok (x.settings, x.options)))
      | none => (s, .nothing)
  | .useEmulator on host port => s.configure on fun x => x.useEmulator host port
  | .setGenerated on generated => s.configure on fun x => x.setGenerated generated
  | .describeService on =>
    match s.service? on with
    | some (_, x) => (s, .text x.describe)
    | none => (s, .nothing)
  | .serviceAuth on =>
    match s.service? on with
    | some (_, x) =>
      let r := s.directory.realm
      (s, .manager (r.uid x.auth) (r.isClosed x.auth))
    | none => (s, .nothing)
  | .closeService on =>
    match s.service? on with
    | some (id, _) => (s.setDirectory (s.directory.close id), .nothing)
    | none => (s, .nothing)
  | .reference on action operation vars other =>
    match s.service? on with
    | some (_, x) =>
      (s, .reference operation vars other
        [describeReference action operation (Text.quoted vars),
          describeReference action operation (String.ofList (Json.writeInt other))]
        x.options.resourcePath)
    | none => (s, .nothing)
  | .query on names operation => (s.queryAll on operation names, .nothing)
  | .mutation on names operation => (s.mutateAll on operation names, .nothing)
  | .subscribe on name operation handlers =>
    match s.service? on with
    | none => (s, .nothing)
    | some (id, service) =>
      match s.tryService id service fun x =>
          x.subscribe operation.operation operation.vars
            (reactionOf handlers (some operation)) with
      | (s, .ok task) =>
        (s.addObserver { name, place := .service id, task, handlers, operation := some operation },
          .done (.ok ()))
      | (s, .error e) => (s, .done (.error e))

/-- **A command, and all that follows from it.** -/
def step (s : Session) (c : Command) : Session × Out × Report :=
  let (s, out) := { s with report := {} }.perform c
  let s := s.settle
  (s, out, s.report)

end QueryClient.Session
