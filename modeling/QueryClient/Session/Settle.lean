import QueryClient.Session.Basic

/-!
# Settling

After each command a session's tasks run until none can go on. Calls of the scripted backend are
answered by the script; calls over the web fetch a token first and are sent then.

* `Session.heed`: what follows from a notice.
* `Session.pollNext?`: the first task that can go on runs.
* `Session.settle`: until nothing can go on.
-/

namespace QueryClient.Session

/-! ## Answers -/

/-- The backend's answer reaches the work that waits for it, which goes on at once. -/
def replyNow (s : Session) (work : Work) (reply : Reply) : Session :=
  match work with
  | .task place id => s.changeQueries place fun m => m.answerNow id reply
  | .execution place id => s.changeMutations place fun m => m.answerNow id reply
  | .fetch _ => s
  | .direct _ =>
    match s.jobs.find? fun j => j.work = work with
    | none => s
    | some job =>
      let s := { s with jobs := s.jobs.filter fun j => j.work ≠ work }
      match reply with
      | .returned result => s.finish job.name (.response result)
      | .panicked text => s.finish job.name (.panicked text)

/-- The backend's answer is left for the work that waits for it. -/
def reply (s : Session) (work : Work) (reply : Reply) : Session :=
  match work with
  | .task place id => s.changeQueries place fun m => m.answer id reply
  | .execution place id => s.changeMutations place fun m => m.answer id reply
  | _ => s

/-- What the auth provider does before it answers. -/
def interrupt (s : Session) : Option Interruption → Session
  | none => s
  | some .rotate => s.changeRealm AuthRealm.notify
  | some .close => s.changeAuth AuthRealm.close
  | some .force => s.changeAuth AuthRealm.forceRefresh

/-! ## Calls -/

/-- The scripted backend is called. -/
def callScripted (s : Session) (work : Work) (action : Action) (operation : String)
    (vars : Struct) (request : RequestId) : Session :=
  let number := s.calls.length + 1
  let record : CallRecord := { number, action, request, operation, vars }
  let s := { s with
    calls := s.calls ++ [work]
    report := { s.report with calls := s.report.calls ++ [record] } }
  let (answer, script) := s.script.take (usualReply operation number)
  let s := { s with script }
  answer.elim s (s.replyNow work)

/-- A call over the web begins: its headers are checked, and its token is fetched. -/
def callWeb (s : Session) (work : Work) (transport : RestTransport) (action : Action)
    (operation : String) (vars : Struct) : Session :=
  match transport.headers with
  | .error e => s.replyNow work (.returned (.error e))
  | .ok _ =>
    let (s, fetch) := s.overRealm fun r => r.fetchNow transport.manager
    let exchange : Exchange := { client := work, transport, action, operation, vars, fetch }
    { s with exchanges := s.exchanges ++ [exchange] }

/-- The web can be reached for a request. -/
def reaches (s : Session) (request : HttpRequest) : Bool := s.online && !request.url.secure

/-- The answer to a request that has no other. -/
def usualAnswer : HttpAnswer := .answered 200 (Utf8.bytes "\x7b\"data\":\x7b\x7d\x7d")

/-- What the web answers to a request. -/
def webAnswer (s : Session) (request : HttpRequest) : HttpAnswer :=
  if s.reaches request then s.answers.headD usualAnswer else .dropped

/-- A request was sent. -/
def recordRequest (s : Session) (request : HttpRequest) : Session :=
  if s.reaches request then
    { s with
      answers := s.answers.tail
      report := { s.report with requests := s.report.requests ++ [request] } }
  else s

/-- A call over the web goes on with its token. -/
def sendExchange (s : Session) (x : Exchange) (token : TokenOutcome) : Session :=
  let call := x.transport.complete x.action x.operation x.vars token s.webAnswer
  let s := call.sent.elim s s.recordRequest
  let s :=
    if call.refused then s.changeRealm fun r => r.forceRefresh x.transport.manager else s
  s.replyNow x.client (.returned call.result)

/-- A task or an execution calls the backend of its place. -/
def callBackend (s : Session) (place : Place) (work : Work) (action : Action) (operation : String)
    (vars : Struct) (request : RequestId) : Session :=
  let transport := match place with
    | .service id => (s.directory.services[id]?).bind (·.transport)
    | _ => none
  match transport with
  | some (.rest t) => s.callWeb work t action operation vars
  | _ => s.callScripted work action operation vars request

/-! ## Results -/

/-- What a task with a name ended in. -/
def answerOf (purpose : Purpose) : Ending NumberedOutcome → Answer
  | .dropped => .aborted
  | .panicked text => .panicked text
  | .returned o =>
    match purpose with
    | .outcome => .outcome o
    | .update => .update (Outcome.update o .server)
    | .typed t => .queryResult t.operation t.given (typedQuery t.operation t.target o)

/-- What an execution with a name ended in. -/
def mutationAnswerOf (purpose : Purpose) : Ending MutationOutcome → Answer
  | .dropped => .aborted
  | .panicked text => .panicked text
  | .returned o =>
    match purpose with
    | .typed t => .mutationResult t.operation t.given (typedMutation t.operation t.target o)
    | _ => .mutated o

/-- Work with a name ended. -/
def endWork (s : Session) (work : Work) (answer : Purpose → Answer) : Session :=
  match s.jobs.find? fun j => j.work = work with
  | none => s
  | some job =>
    { s with jobs := s.jobs.filter fun j => j.work ≠ work }.finish job.name (answer job.purpose)

/-- A fetch ended: the task that wanted the token ends, or the call over the web goes on. -/
def endFetch (s : Session) (id : FetchId) (ending : Ending TokenOutcome) : Session :=
  match s.exchanges.find? fun x => x.fetch = id with
  | some x =>
    let s := { s with exchanges := s.exchanges.filter fun x => x.fetch ≠ id }
    match ending with
    | .returned outcome => s.sendExchange x outcome
    | _ => s
  | none =>
    s.endWork (.fetch id) fun _ =>
      match ending with
      | .returned outcome => .token outcome
      | .panicked text => .panicked text
      | .dropped => .aborted

/-! ## Subscriptions -/

/-- The handler that is called for a delivery, and what it gets. -/
def eventOf (operation : Option TypedOperation) (d : Delivery) : HandlerKind × Event :=
  match operation with
  | none =>
    match untypedCall d with
    | .next u => (.next, .update u)
    | .error e => (.error, .failed e)
  | some t =>
    match typedCall t.operation t.target d with
    | .next r => (.next, .queryResult r)
    | .error e => (.error, .failed e)

/-- The handler is there. -/
def isInstalled (h : Handlers) : HandlerKind → Bool
  | .next => true
  | .error => h.hasError

/-- The handler is there and panics. -/
def panicsOn (h : Handlers) (kind : HandlerKind) : Bool :=
  isInstalled h kind && h.panics == some kind

/-- What the handlers of a subscription do. -/
def reactionOf (h : Handlers) (operation : Option TypedOperation) (d : Delivery) : Reaction :=
  { panics := panicsOn h (eventOf operation d).1 }

/-- The subscription that a task carries out. -/
def observerOf? (s : Session) (place : Place) (task : TaskId) : Option Observer :=
  s.observers.find? fun o => o.place = place ∧ o.task = task

/-- A delivery reaches the handlers of a subscription; a handler that panics records nothing. -/
def hand (s : Session) (o : Observer) (d : Delivery) : Session :=
  let (kind, event) := eventOf o.operation d
  if isInstalled o.handlers kind && !panicsOn o.handlers kind then s.observe o.name event else s

/-! ## Notices -/

/-- What follows from a note of live queries. -/
def heedQuery (s : Session) (place : Place) : Note → Session
  | .called task spec request =>
    s.callBackend place (.task place task) .query spec.operation spec.vars request
  | .warned text => s.log .warning text
  | .failed text => s.log .error text
  | .ended task ending => s.endWork (.task place task) fun purpose => answerOf purpose ending
  | .handed task delivery =>
    (s.observerOf? place task).elim s fun o => s.hand o delivery
  | .completed task =>
    (s.observerOf? place task).elim s fun o =>
      if o.handlers.hasComplete then s.observe o.name .completed else s

/-- What follows from a note of mutations. -/
def heedMutation (s : Session) (place : Place) : MutationNote → Session
  | .called id operation vars request =>
    s.callBackend place (.execution place id) .mutation operation vars request
  | .ended id ending =>
    s.endWork (.execution place id) fun purpose => mutationAnswerOf purpose ending

/-- What follows from a note of token managers. -/
def heedAuth (s : Session) : AuthNote → Session
  | .reported _ label uid => s.observe label (.user uid)
  | .joined .. | .left .. | .closed _ => s
  | .warned text => s.log .warning text
  | .called .. => s
  | .reached fetch call forced =>
    let (answer, tokens) := s.tokens.take (usualToken call forced)
    let s := { s with tokens }
    answer.elim s fun a =>
      (s.interrupt a.before).changeRealm fun r => r.answerNow fetch a.reply
  | .ended fetch ending => s.endFetch fetch ending

/-- **What follows from a notice.** -/
def heed (s : Session) : Notice → Session
  | .query place note => s.heedQuery place note
  | .mutation place note => s.heedMutation place note
  | .auth note => s.heedAuth note

/-! ## Settling -/

/-- All places. -/
def places (s : Session) : List Place :=
  [.bench, .registry, .manager] ++ (List.range s.directory.services.length).map .service

/-- The first task that can go on runs, if there is one. -/
def pollNext? (s : Session) : Option Session :=
  if !s.directory.realm.queue.isEmpty then some (s.changeRealm AuthRealm.poll)
  else
    match s.places.find? fun p => (s.queriesAt? p).any fun m => !m.queue.isEmpty with
    | some p => some (s.changeQueries p QueryManager.poll)
    | none =>
      match s.places.find? fun p => (s.mutationsAt? p).any fun m => !m.queue.isEmpty with
      | some p => some (s.changeMutations p MutationManager.poll)
      | none => none

/-- A call over the web whose task has ended is given up, if there is one. -/
def dropExchange? (s : Session) : Option Session :=
  match s.exchanges.find? fun x => !s.isCalling x.client with
  | none => none
  | some x =>
    let s := { s with exchanges := s.exchanges.filter fun y => y.fetch ≠ x.fetch }
    some (s.changeRealm fun r => r.abort x.fetch)

/-- One step towards rest, if something can go on. -/
def stepOnce? (s : Session) : Option Session :=
  match s.inbox with
  | notice :: rest => some ({ s with inbox := rest }.heed notice)
  | [] => s.pollNext?.or s.dropExchange?

/-- At most `fuel` steps. -/
def settleWithin : Nat → Session → Session
  | 0, s => s
  | fuel + 1, s =>
    match s.stepOnce? with
    | none => s
    | some s => settleWithin fuel s

/-- How much there is that could go on. -/
def size (s : Session) : Nat :=
  let queries := (s.places.filterMap s.queriesAt?).foldl (fun n m => n + m.tasks.length) 0
  let mutations := (s.places.filterMap s.mutationsAt?).foldl (fun n m => n + m.executions.length) 0
  queries + mutations + s.directory.realm.fetches.length + s.inbox.length
    + s.script.queue.length + s.tokens.queue.length + s.exchanges.length

/-- **Until nothing can go on.** A task takes a few steps for each answer that it gets. -/
def settle (s : Session) : Session := settleWithin (64 * (s.size + 1)) s

end QueryClient.Session
