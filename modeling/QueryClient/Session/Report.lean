import QueryClient.Service.Directory

/-!
# What a session shows

* `Answer`: what a task ended in.
* `Event`: what an observer got.
* `Out`: what a command returns.
* `Report`: what was seen while a command was carried out.
* `View`: what is seen of the objects of a session.
-/

namespace QueryClient

/-- What a task ended in. -/
inductive Answer where
  | outcome (o : NumberedOutcome)
  | update (r : Except Error (Sequenced QueryUpdate))
  | mutated (r : MutationOutcome)
  | queryResult (operation : String) (vars : Json) (r : Except Error (QueryResult Json))
  | mutationResult (operation : String) (vars : Json) (r : Except Error (MutationResult Json))
  | token (r : TokenOutcome)
  | response (r : Except Error OperationResult)
  | aborted
  | panicked (text : String)

/-- What an observer got. -/
inductive Event where
  | update (u : Sequenced QueryUpdate)
  | queryResult (r : QueryResult Json)
  | failed (e : Error)
  | completed
  | user (uid : Option String)

/-- The level of a record in the log. -/
inductive LogLevel where
  | warning
  | error
  deriving DecidableEq, Repr

/-- A call of the backend. -/
structure CallRecord where
  number : Nat
  action : Action
  request : RequestId
  operation : String
  vars : Struct

/-- What a reader of results gets now. -/
inductive Read where
  | outcome (o : NumberedOutcome)
  | pending
  /-- The executor is gone. -/
  | ended

/-- A lease that was just taken. -/
structure Acquired where
  key : QueryKey
  /-- The key of the live query is that of the lease. -/
  sameKey : Bool
  users : Nat
  /-- The names of the other leases on the same instance. -/
  sharedWith : List String
  /-- The registry has no entry. -/
  empty : Bool

/-- What a command returns. -/
inductive Out where
  | nothing
  | flag (b : Bool)
  | text (s : String)
  | panicked (text : String)
  | query (spec : QuerySpec)
  | replayed (through : Option Int)
  | read (r : Read)
  | stored (last lastSuccess : Option NumberedOutcome)
  | acquired (a : Acquired)
  | compared (spec : QuerySpec) (equal : Bool)
  | done (r : Except Error Unit)
  | configured (r : Except Error (Settings × Options))
  | manager (uid : Option String) (closed : Bool)
  | reference (operation vars : String) (other : Int) (described : List String)
      (resourcePath : String)

/-- What was seen while a command was carried out. -/
structure Report where
  calls : List CallRecord := []
  done : List (String × Answer) := []
  events : List (String × Event) := []
  requests : List HttpRequest := []
  logs : List (LogLevel × String) := []

/-- What is seen of an executor. -/
structure ExecutorView where
  closed : Bool
  last : Option NumberedOutcome
  lastSuccess : Option NumberedOutcome

/-- What is seen of a registry: its size, and the number of users for each lease. -/
structure RegistryView where
  size : Nat
  users : List (String × Nat)

/-- What is seen of the session's token manager and its provider. -/
structure AuthView where
  closed : Bool
  uid : Option String
  listeners : Nat
  forced : List Bool
  held : List Nat

/-- What is seen of a service. -/
structure ServiceView where
  closed : Bool
  baseUrl : String

/-- What is seen of the objects of a session. -/
structure View where
  held : List Nat
  executors : List (String × ExecutorView)
  queries : List (String × ExecutorView)
  live : Option RegistryView
  manager : Option RegistryView
  subscriptions : List (String × Bool)
  services : List (String × ServiceView)
  auth : Option AuthView

end QueryClient
