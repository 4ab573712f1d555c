import QueryClient.Proofs.Auth.Closing
import QueryClient.Proofs.Manager.Shut
import QueryClient.Proofs.Mutation.Executions
import QueryClient.Service.Directory

/-!
# A service at work

A station is a service in its directory, with the leases that users hold on its live queries and the
calls over the web that its tasks wait for. Users call the service and keep its managers, tokens are
fetched, the backend answers, and the service may be closed, in any order and any number of times.

A call over the web waits for its token first; it goes on in the event that ends its fetch, and
waits for the answer then. A call is given up when its client does not wait for it any more.

* `Service.orders`: the calls of the backend that a service has made.
* `Station.callWeb`, `Station.settle`: calls over the web begin, go on, and are given up.
* `Station`, `ServiceEvent`, `Station.next`: **what happens to a service,** with events.
-/

namespace QueryClient

/-! ## Calls -/

/-- Who calls the backend. -/
inductive Client where
  | task (id : TaskId)
  | execution (id : TaskId)
  deriving DecidableEq, Repr

/-- A call of the backend. -/
structure Order where
  client : Client
  action : Action
  operation : String
  vars : Struct

/-- The call that is noted. -/
def Note.order? : Note → Option Order
  | .called task spec _ => some ⟨.task task, .query, spec.operation, spec.vars⟩
  | _ => none

/-- The call that is noted. -/
def MutationNote.order? : MutationNote → Option Order
  | .called execution operation vars _ => some ⟨.execution execution, .mutation, operation, vars⟩
  | .ended .. => none

/-- A call over the web that has not been answered. -/
structure WebCall where
  order : Order
  transport : RestTransport
  fetch : FetchId
  /-- The token that the request was sent with; none while the call waits for its token. -/
  token : Option TokenOutcome := none

namespace WebCall

/-- **The end of the call** with a token. -/
def complete (x : WebCall) (token : TokenOutcome) (answer : HttpAnswer) : CompletedCall :=
  x.transport.complete x.order.action x.order.operation x.order.vars token fun _ => answer

/-- The request that the call sends once its token has come, if it sends one. -/
def request? (x : WebCall) (token : TokenOutcome) : Option HttpRequest := (x.complete token .dropped).sent

end WebCall

/-- The calls of the backend so far. -/
def QueryManager.orders (m : QueryManager) : List Order := m.journal.filterMap Note.order?

/-- The calls of the backend so far. -/
def MutationManager.orders (m : MutationManager) : List Order := m.journal.filterMap MutationNote.order?

namespace Service

/-- **The calls of the backend so far.** -/
def orders (x : Service) : List Order := x.queries.orders ++ x.mutations.orders

/-- The calls of the backend since the service was as given. -/
def ordersSince (x before : Service) : List Order :=
  x.queries.orders.drop before.queries.orders.length ++
    x.mutations.orders.drop before.mutations.orders.length

/-- The client waits for the backend's answer. -/
def isCalling (x : Service) : Client → Bool
  | .task id => x.queries.isCalling id
  | .execution id => x.mutations.isCalling id

end Service

/-! ## Stations -/

/-- **A service at work.** -/
structure Station where
  directory : Directory
  id : ServiceId
  here : id < directory.services.length
  /-- The leases that users hold. -/
  held : List Lease := []
  /-- The calls over the web that have not been answered. -/
  calls : List WebCall := []
  /-- The requests that were sent. -/
  sent : List HttpRequest := []

namespace Station

/-- The service. -/
def service (s : Station) : Service := s.directory.services.get ⟨s.id, s.here⟩

/-- The realm that has the service's tokens. -/
def realm (s : Station) : AuthRealm := s.directory.realm

/-- The service's queries, with the leases that users hold. -/
def lending (s : Station) : Lending := { manager := s.service.queries, held := s.held }

/-- The service changes. -/
def setService (s : Station) (x : Service) : Station :=
  { s with directory := s.directory.set s.id x, here := by simpa [Directory.set] using s.here }

/-- The realm changes. -/
def setRealm (s : Station) (r : AuthRealm) : Station :=
  { s with directory := { s.directory with realm := r }, here := s.here }

/-- The queries change, and the leases that users hold. -/
def setLending (s : Station) (l : Lending) : Station :=
  { s.setService { s.service with queries := l.manager } with held := l.held }

/-- The executions of mutations change. -/
def setMutations (s : Station) (m : MutationManager) : Station :=
  s.setService { s.service with mutations := m }

/-! ## Calls over the web -/

/-- The answer reaches the client, which goes on at once. -/
def replyNow (s : Station) (client : Client) (result : Except Error OperationResult) : Station :=
  match client with
  | .task id => s.setLending (s.lending.next (.answerNow id (.returned result)))
  | .execution id => s.setMutations (s.service.mutations.step (.answerNow id (.returned result)))

/-- A call over the web begins: its headers are checked, and a fetch of its token comes, which goes on with
the events of the realm. -/
def callWeb (t : RestTransport) (s : Station) (order : Order) : Station :=
  match t.headers with
  | .error e => s.replyNow order.client (.error e)
  | .ok _ =>
    let (r, fetch) := s.realm.fetch t.manager
    { s.setRealm r with calls := s.calls ++ [{ order, transport := t, fetch }] }

/-- What the fetch ended in that the call waits for. -/
def ended? (s : Station) (x : WebCall) : Option (Ending TokenOutcome) :=
  match x.token, s.realm.stage? x.fetch with
  | none, some (.ended ending) => some ending
  | _, _ => none

/-- A call goes on with its token: its request is sent, or it ends without one. -/
def proceed (s : Station) (x : WebCall) (token : TokenOutcome) : Station :=
  match x.request? token with
  | none => s.replyNow x.order.client (x.complete token .dropped).result
  | some request =>
    { s with sent := s.sent ++ [request], calls := s.calls ++ [{ x with token := some token }] }

/-- A call whose fetch has ended goes on, unless the fetch was abandoned. -/
def goOn (s : Station) (x : WebCall) : Station :=
  match s.ended? x with
  | some (.returned token) => s.proceed x token
  | _ => s

/-- All calls whose fetch has ended go on. -/
def advance (s : Station) : Station :=
  (s.calls.filter fun x => (s.ended? x).isSome).foldl goOn
    { s with calls := s.calls.filter fun x => (s.ended? x).isNone }

/-- Calls that nobody waits for are given up, and their fetches unless they are underway. -/
def tidy (s : Station) : Station :=
  let gone := s.calls.filter fun x => !s.service.isCalling x.order.client
  { s.setRealm ((gone.map (·.fetch)).foldl AuthRealm.abort s.realm) with
    calls := s.calls.filter fun x => s.service.isCalling x.order.client }

/-- What follows for calls over the web. -/
def settle (s : Station) : Station := s.advance.tidy

/-- The calls of the backend that the service made since it was as given begin. -/
def heed (s : Station) (before : Service) : Station :=
  match s.service.transport with
  | some (.rest t) => ((s.service.ordersSince before).foldl (callWeb t) s).settle
  | _ => s.settle

/-- The web answers the call at a place among those that were sent or wait to be. -/
def respond (s : Station) (place : ℕ) (answer : HttpAnswer) : Station :=
  match s.calls[place]? with
  | none => s
  | some x =>
    match x.token with
    | none => s
    | some token =>
      let call := x.complete token answer
      let s : Station := { s with calls := s.calls.eraseIdx place }
      let s := if call.refused then s.setRealm (s.realm.step (.forceRefresh x.transport.manager)) else s
      (s.replyNow x.order.client call.result).settle

/-! ## Events -/

/-- An operation of the service, which may be refused. -/
def operate (s : Station) : Except Error Service → Station
  | .error _ => s
  | .ok x => (s.setService x).heed s.service

end Station

/-- **What happens to a service.** -/
inductive ServiceEvent where
  | useEmulator (host : Option String) (port : Option UInt16)
  | setGenerated (generated : Bool)
  /-- The service is asked for its managers. -/
  | prepare
  | query (operation : String) (vars : Except Error Struct)
  | mutate (operation : String) (vars : Except Error Struct)
  | subscribe (operation : String) (vars : Except Error Struct) (react : Delivery → Reaction)
  /-- The managers that were built are used, go on, or get an answer. -/
  | queries (ev : ManagerEvent)
  | mutations (ev : MutationEvent)
  /-- Something happens to the tokens of this service or of others. -/
  | auth (ev : AuthEvent)
  | respond (place : ℕ) (answer : HttpAnswer)
  | close

/-- The client's user loses interest. -/
def ServiceEvent.abandon : Client → ServiceEvent
  | .task id => .queries (.abort id)
  | .execution id => .mutations (.abort id)

/-- Users may do this with a manager of queries: they cannot cancel it, and it is assumed that they close no
live query and no executor by hand. What closing by hand leads to is said of managers on their own; here a
live query is closed with the service, or with its last lease. Nor is a task favoured here: the tasks of a
service run in the order in which they became ready. -/
def ManagerEvent.isAllowed : ManagerEvent → Bool
  | .cancel | .favour _ => false
  | ev => !ev.closes

namespace Station

/-- **The service is closed.** -/
def close (s : Station) : Station :=
  { s with
    directory := s.directory.close s.id
    here := by
      have h := s.here
      unfold Directory.close
      split
      · exact h
      · split
        · exact h
        · simpa [Directory.set] using h }

/-- **What an event does.** -/
def next (s : Station) : ServiceEvent → Station
  | .useEmulator host port => s.operate (s.service.useEmulator host port)
  | .setGenerated generated => s.operate (s.service.setGenerated generated)
  | .prepare => s.operate s.service.components
  | .query operation vars => s.operate ((s.service.query operation vars).map Prod.fst)
  | .mutate operation vars => s.operate ((s.service.mutate operation vars).map Prod.fst)
  | .subscribe operation vars react =>
    s.operate ((s.service.subscribe operation vars react).map Prod.fst)
  | .queries ev =>
    if s.service.built && ev.isAllowed then (s.setLending (s.lending.next ev)).heed s.service else s
  | .mutations ev =>
    if s.service.built then (s.setMutations (s.service.mutations.step ev)).heed s.service else s
  | .auth ev => (s.setRealm (s.realm.step ev)).settle
  | .respond place answer => s.respond place answer
  | .close => s.close

/-- A run. -/
def after (s : Station) (es : List ServiceEvent) : Station := es.foldl next s

end Station

end QueryClient
