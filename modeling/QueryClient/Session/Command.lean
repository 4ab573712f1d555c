import QueryClient.Session.Report
import QueryClient.Session.Script

/-!
# Commands of a session

A command acts on the objects of a session by their names. Tasks that a command starts have names,
too; one command may start several that do the same.

* `Handlers`: the handlers of a subscription, and which of them panics.
* `Command`: the commands.
-/

namespace QueryClient

/-- Whose registry a command is about. -/
inductive Owner where
  | registry
  | manager
  | service (name : String)
  deriving DecidableEq, Repr

/-- A handler of a subscription. -/
inductive HandlerKind where
  | next
  | error
  deriving DecidableEq, Repr

/-- The handlers of a subscription. -/
structure Handlers where
  /-- The handler that panics when it is called. -/
  panics : Option HandlerKind := none
  hasError : Bool := true
  hasComplete : Bool := true

/-- An operation with variables that may turn out not to be encodable, and the type that its data
are decoded into. -/
structure TypedOperation where
  operation : String
  /-- The variables as they were given. -/
  given : Json
  vars : Except Error Struct
  target : Target Json

/-- What changes about the auth provider; a field without value stays as it is. -/
structure ProviderChange where
  uid : Option (Option String) := none
  addError : Option (Option TokenError) := none
  removeError : Option (Option TokenError) := none
  closesOnAdd : Option Bool := none
  notifies : Bool := false

/-- What a session is told to do. -/
inductive Command where
  | manual (on : Bool)
  | manualTokens (on : Bool)
  | queue (replies : List Reply)
  | queueTokens (replies : List ScriptedToken)
  | respond (call : Nat) (reply : Reply)
  | respondToken (call : Nat) (reply : ScriptedToken)
  | abort (task : String)
  | cancel
  | executor (name : String) (spec : QuerySpec)
  | execute (on : String) (tasks : List String)
  | openExecutor (name on : String) (executes : Bool)
  | next (name : String)
  | discard (name : String)
  | closeExecutor (on : String)
  | dropExecutor (on : String)
  | executorState (on : String)
  | registry
  | acquire (name : String) (spec : QuerySpec) (owner : Owner)
  | release (name : String)
  | liveExecute (on : String) (tasks : List String)
  | liveOpen (name on : String) (executes : Bool)
  | liveClose (on : String)
  | liveDescribe (on : String)
  | liveCompare (on : String) (spec : QuerySpec)
  | forget (name : String)
  | withLiveQuery (tasks : List String) (spec : QuerySpec) (block : Block) (owner : Owner)
  | managers
  | managerQuery (tasks : List String) (spec : QuerySpec)
  | managerMutation (tasks : List String) (spec : QuerySpec)
  | managerSubscribe (name : String) (spec : QuerySpec) (executes : Bool) (handlers : Handlers)
  | unsubscribe (name : String)
  | provider (change : ProviderChange)
  | provide
  | auth (unavailable : Bool)
  | dropAuth
  | token (tasks : List String)
  | forceRefresh
  | listen (listener : ChangeListener)
  | closeAuth
  | rest (options : Except Error Options) (settings : Settings) (generated : Bool)
  | call (action : Action) (tasks : List String) (spec : QuerySpec)
  | queueAnswers (answers : List HttpAnswer)
  | service (name : String) (options : Except Error Options) (settings : Option Settings)
  | obtain (name : String) (options : Except Error Options) (settings : Option Settings)
      (environment : Option (List Char))
  | useEmulator (on : String) (host : Option String) (port : Option UInt16)
  | setGenerated (on : String) (generated : Bool)
  | describeService (on : String)
  | serviceAuth (on : String)
  | closeService (on : String)
  | reference (on : String) (action : Action) (operation vars : String) (other : Int)
  | query (on : String) (tasks : List String) (operation : TypedOperation)
  | mutation (on : String) (tasks : List String) (operation : TypedOperation)
  | subscribe (on name : String) (operation : TypedOperation) (handlers : Handlers)

end QueryClient
