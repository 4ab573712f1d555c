import QueryClient.Config.Describe
import QueryClient.Config.EmulatorHost
import QueryClient.Mutation
import QueryClient.Query.Manager
import QueryClient.Query.Result
import QueryClient.Rest.Transport

/-!
# Services

A service sends the queries and mutations of one connector. Where it sends them can be changed until
the first operation, which builds the service's managers on a transport; closing the service ends
all that goes on in it.

* `Service.useEmulator`, `Service.setGenerated`: what can be changed before the first operation.
* `Service.components`: the managers, which are built when they are first needed.
* `Service.query`, `Service.mutate`, `Service.subscribe`: the operations.
* `Service.shut`: ends everything.
* `Service.describe`, `describeReference`: services and references for human readers.
-/

namespace QueryClient

/-- Where a service's calls go. -/
inductive Transport where
  /-- To a backend that somebody else stands for. -/
  | given
  | rest (t : RestTransport)

/-- Sends the operations of a connector. -/
structure Service where
  options : Options
  settings : Settings
  /-- The manager that has the tokens. -/
  auth : AuthId
  generated : Bool := false
  /-- None until the first operation, unless one was given. -/
  transport : Option Transport
  /-- The managers have been built. -/
  built : Bool := false
  closed : Bool := false
  queries : QueryManager := {}
  mutations : MutationManager := {}

namespace Service

/-- Settings may be changed: the service is open and no operation came through. -/
def ensureConfigurable (s : Service) (operation : String) : Except Error Unit :=
  if s.closed then .error .instanceClosed
  else if s.built then .error (.frozen operation)
  else .ok ()

/-- Routes the calls to an emulator. -/
def useEmulator (s : Service) (host : Option String) (port : Option UInt16) :
    Except Error Service := do
  s.ensureConfigurable "use_emulator()"
  return { s with settings := Settings.emulator host port }

/-- Says whether the caller is generated code. -/
def setGenerated (s : Service) (generated : Bool) : Except Error Service := do
  s.ensureConfigurable "set_caller_sdk_type()"
  return { s with generated }

/-- The transport over the web that the service would build now. -/
def ownTransport (s : Service) : RestTransport :=
  { options := s.options, settings := s.settings, manager := s.auth, generated := s.generated }

/-- **The managers are needed:** they are built on the given transport, or on one of the service's
own. -/
def components (s : Service) : Except Error Service :=
  if s.closed then .error .instanceClosed
  else if s.built then .ok s
  else .ok { s with built := true, transport := some (s.transport.getD (.rest s.ownTransport)) }

/-- Asks for the result of a query. Variables that cannot be encoded are reported first, and build
nothing. -/
def query (s : Service) (operation : String) (vars : Except Error Struct) :
    Except Error (Service × TaskId) := do
  let vars ← vars
  let s ← s.components
  let (queries, task) := s.queries.ask (.leased ⟨operation, vars⟩) {}
  return ({ s with queries }, task)

/-- Executes a mutation. -/
def mutate (s : Service) (operation : String) (vars : Except Error Struct) :
    Except Error (Service × TaskId) := do
  let vars ← vars
  let s ← s.components
  let (mutations, task) := s.mutations.execute operation vars
  return ({ s with mutations }, task)

/-- Subscribes to the results of a query, and asks for one. -/
def subscribe (s : Service) (operation : String) (vars : Except Error Struct)
    (react : Delivery → Reaction) : Except Error (Service × TaskId) := do
  let vars ← vars
  let s ← s.components
  let (queries, task) := s.queries.subscribe ⟨operation, vars⟩ true react
  return ({ s with queries }, task)

/-- The service is closed and all that goes on in it is cancelled. -/
def shut (s : Service) : Service :=
  { s with
    closed := true
    queries := s.queries.cancel
    mutations := s.mutations.cancel }

/-- A service for human readers. -/
def describe (s : Service) : String :=
  describeRecord "DataConnectService"
    [("options", s.options.describe), ("closed", describeBool s.closed)]

end Service

/-- A reference to an operation for human readers. -/
def describeReference (action : Action) (operation vars : String) : String :=
  let name := match action with
    | .query => "QueryRef"
    | .mutation => "MutationRef"
  describeRecord name [("operation_name", Text.quoted operation), ("variables", vars)]

end QueryClient
