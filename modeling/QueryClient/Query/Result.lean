import QueryClient.Codec.Decode
import QueryClient.Mutation
import QueryClient.Query.Task

/-!
# What users get

An outcome of an attempt is an *update* when it is a success, and a failure else. A typed result has
the update's data decoded; an answer that lists errors has no typed result, whatever its data.

* `Outcome.update`: the update or the failure.
* `decodeResponse`: the typed data of an answer.
* `typedQuery`, `typedMutation`: typed results.
* `untypedCall`, `typedCall`: the handler that a subscription calls for a delivery.
-/

namespace QueryClient

/-- The backend's answer to a query. -/
structure QueryUpdate where
  request : RequestId
  data : OperationResult
  source : DataSource

/-- The update of a success; the failure of a failure. -/
def Outcome.update (o : NumberedOutcome) (source : DataSource) :
    Except Error (Sequenced QueryUpdate) :=
  match o.value.result with
  | .ok data => .ok ⟨o.number, ⟨o.value.request, data, source⟩⟩
  | .error e => .error e

/-- **The typed data of an answer.** An answer that lists errors is a failure that keeps all of it;
missing data is null. -/
def decodeResponse {α : Type} (operation : String) (target : Target α) (r : OperationResult) :
    Except Error α :=
  if r.hasErrors then .error (.operationFailed operation r)
  else decodeData target (r.data.getD .null)

/-- A typed result of a query. -/
structure QueryResult (α : Type) where
  data : α
  source : DataSource
  number : Int
  request : RequestId

/-- A typed result of a mutation. -/
structure MutationResult (α : Type) where
  data : α
  source : DataSource
  request : RequestId

section

variable {α : Type}

/-- The typed result of an update. -/
def typedUpdate (operation : String) (target : Target α) (u : Sequenced QueryUpdate) :
    Except Error (QueryResult α) :=
  (decodeResponse operation target u.value.data).map fun data =>
    ⟨data, u.value.source, u.number, u.value.request⟩

/-- The typed result of a query. -/
def typedQuery (operation : String) (target : Target α) (o : NumberedOutcome) :
    Except Error (QueryResult α) := do
  let u ← Outcome.update o .server
  typedUpdate operation target u

/-- The typed result of a mutation. -/
def typedMutation (operation : String) (target : Target α) (o : MutationOutcome) :
    Except Error (MutationResult α) := do
  let r ← o
  let data ← decodeResponse operation target r.data
  return ⟨data, .server, r.request⟩

/-- The handler that is called for a result, with what it is given. -/
inductive HandlerCall (α : Type) where
  | next (value : α)
  | error (e : Error)

/-- What is no value goes to the handler of errors. -/
def HandlerCall.ofResult : Except Error α → HandlerCall α
  | .ok value => .next value
  | .error e => .error e

/-- The handler called for a delivery, with the update or the failure. -/
def untypedCall (d : Delivery) : HandlerCall (Sequenced QueryUpdate) :=
  .ofResult (Outcome.update d.outcome d.source)

/-- The handler called for a delivery, with the typed result or the failure. -/
def typedCall (operation : String) (target : Target α) (d : Delivery) :
    HandlerCall (QueryResult α) :=
  match untypedCall d with
  | .next u => .ofResult (typedUpdate operation target u)
  | .error e => .error e

end

end QueryClient
