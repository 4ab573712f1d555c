import QueryClient.Query.Registry
import QueryClient.Query.Updates

/-!
# Tasks

What goes on around live queries is the work of tasks: one for each attempt, one for each caller
that asks for a result, and one for each subscription. A task runs until it has to wait; what it
waits for makes it ready again.

* `Caller`: asks an instance, or leases the live query of a query, does something to it, and asks.
* `Subscription`: hands results to its handlers until it is told to end, or a handler panics.
* `Note`: what is seen of tasks from outside.
-/

namespace QueryClient

/-- A reference on a live query. -/
structure Lease where
  key : QueryKey
  id : InstanceId
  deriving DecidableEq, Repr, Inhabited

/-- Whom a caller asks. -/
inductive Addressee where
  /-- A given instance. -/
  | direct (id : InstanceId)
  /-- The live query of a query, leased for as long as the caller waits. -/
  | leased (spec : QuerySpec)

/-- What a caller does to the live query that it leased, before it asks. -/
structure Block where
  closes : Bool := false
  panics : Bool := false
  deriving DecidableEq, Repr, Inhabited

/-- How far a caller is. -/
inductive CallerStage where
  | arriving
  /-- Waits for an attempt of an instance. -/
  | waiting (id : InstanceId) (number : Int) (lease : Option Lease)
  | ended (ending : Ending NumberedOutcome)

/-- One who asks for a result. -/
structure Caller where
  addressee : Addressee
  block : Block := {}
  stage : CallerStage := .arriving

/-- A result that is handed to a subscription's handlers. -/
structure Delivery where
  outcome : NumberedOutcome
  source : DataSource

/-- What a subscription's handlers do about a result. -/
structure Reaction where
  panics : Bool := false
  /-- The subscription's handle is given up. -/
  unsubscribes : Bool := false
  deriving DecidableEq, Repr, Inhabited

/-- How far a subscription is. -/
inductive SubscriptionStage where
  | running
  /-- Told its handlers that it has ended. -/
  | completed
  /-- The release of its lease failed. -/
  | panicked (text : String)

/-- One who gets every result. -/
structure Subscription where
  lease : Lease
  updates : Updates
  react : Delivery → Reaction
  /-- The handle was given up. -/
  cancelled : Bool := false
  stage : SubscriptionStage := .running

/-- A task. -/
inductive Task where
  | attempt (id : InstanceId) (number : Int)
  | caller (c : Caller)
  | subscription (s : Subscription)

/-- What is seen of tasks from outside. -/
inductive Note where
  /-- The task of an attempt called the backend. -/
  | called (task : TaskId) (spec : QuerySpec) (request : RequestId)
  | warned (text : String)
  | failed (text : String)
  | ended (task : TaskId) (ending : Ending NumberedOutcome)
  | handed (task : TaskId) (delivery : Delivery)
  | completed (task : TaskId)

end QueryClient
