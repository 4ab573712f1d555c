import QueryClient.Call
import QueryClient.Sequence

/-!
# Mutations

Every execution of a mutation makes a call of its own and gets the answer of that call: mutations
are neither shared nor stored.

* `MutationManager.execute`: a new execution.
* `MutationManager.answer`: the backend answers a call.
* `MutationManager.abort`, `MutationManager.cancel`: one execution, or all of them, end.
* `MutationManager.poll`: the first execution of the queue goes on until it has to wait.
-/

namespace QueryClient

/-- The answer to a mutation. -/
structure MutationResponse where
  request : RequestId
  data : OperationResult

/-- What an execution of a mutation returns. -/
abbrev MutationOutcome := Except Error MutationResponse

/-- How far an execution is. -/
inductive ExecutionStage where
  | arriving
  /-- The backend was called and has not answered. -/
  | calling (request : RequestId)
  /-- The answer is there and has not been looked at. -/
  | answered (request : RequestId) (reply : Reply)
  | ended (ending : Ending MutationOutcome)

/-- An execution of a mutation. -/
structure Execution where
  operation : String
  vars : Struct
  stage : ExecutionStage := .arriving

/-- What is seen of executions from outside. -/
inductive MutationNote where
  | called (execution : TaskId) (operation : String) (vars : Struct) (request : RequestId)
  | ended (execution : TaskId) (ending : Ending MutationOutcome)

/-- The executions of mutations. -/
structure MutationManager where
  supply : Supply := {}
  cancelled : Bool := false
  /-- All executions there have been; an execution is named by its place. -/
  executions : List Execution := []
  /-- The executions that can go on. -/
  queue : List TaskId := []
  /-- What was seen from outside. -/
  journal : List MutationNote := []

namespace MutationManager

/-- Something is seen from outside. -/
def note (m : MutationManager) (n : MutationNote) : MutationManager :=
  { m with journal := m.journal ++ [n] }

/-- How far an execution is. -/
def stage? (m : MutationManager) (id : TaskId) : Option ExecutionStage :=
  (m.executions[id]?).map (·.stage)

/-- An execution changes. -/
def setStage (m : MutationManager) (id : TaskId) (stage : ExecutionStage) : MutationManager :=
  { m with executions := m.executions.modify id fun x => { x with stage } }

/-- An execution ends. -/
def finish (m : MutationManager) (id : TaskId) (ending : Ending MutationOutcome) :
    MutationManager :=
  (m.setStage id (.ended ending)).note (.ended id ending)

/-- The execution can go on. -/
def isReady (m : MutationManager) (x : Execution) : Bool :=
  match x.stage with
  | .arriving | .answered .. => true
  | .calling _ => m.cancelled
  | .ended _ => false

/-- The execution is queued if it can go on and is not queued yet. -/
def wakeExecution (m : MutationManager) (id : TaskId) : MutationManager :=
  if (m.executions[id]?).any m.isReady && !m.queue.contains id then
    { m with queue := m.queue ++ [id] }
  else m

/-- What a call's end means to its execution. -/
def ending (request : RequestId) : Reply → Ending MutationOutcome
  | .returned (.ok data) => .returned (.ok ⟨request, data⟩)
  | .returned (.error e) => .returned (.error e)
  | .panicked text => .panicked text

/-- An execution goes on until it has to wait: it calls the backend unless the manager has been
cancelled, and takes the answer unless the manager has been cancelled since. -/
def runExecution (m : MutationManager) (id : TaskId) : MutationManager :=
  match m.executions[id]? with
  | none => m
  | some x =>
    match x.stage with
    | .arriving =>
      if m.cancelled then m.finish id (.returned (.error .mutationsClosed))
      else
        let (request, supply) := m.supply.drawRequest
        ({ m with supply }.setStage id (.calling request)).note
          (.called id x.operation x.vars request)
    | .calling _ =>
      if m.cancelled then m.finish id (.returned (.error .mutationCancelled)) else m
    | .answered request reply =>
      if m.cancelled then m.finish id (.returned (.error .mutationCancelled))
      else m.finish id (ending request reply)
    | .ended _ => m

/-- **The first execution of the queue goes on until it has to wait.** -/
def poll (m : MutationManager) : MutationManager :=
  match m.queue with
  | [] => m
  | id :: rest => { m with queue := rest }.runExecution id

/-- A new execution. -/
def execute (m : MutationManager) (operation : String) (vars : Struct) :
    MutationManager × TaskId :=
  ({ m with
      executions := m.executions ++ [{ operation, vars }]
      queue := m.queue ++ [m.executions.length] },
    m.executions.length)

/-- The backend answers the call of an execution. -/
def setReply (m : MutationManager) (id : TaskId) (reply : Reply) : MutationManager :=
  match m.stage? id with
  | some (.calling request) => m.setStage id (.answered request reply)
  | _ => m

/-- The backend answers an execution, which looks at the answer when it goes on. -/
def answer (m : MutationManager) (id : TaskId) (reply : Reply) : MutationManager :=
  (m.setReply id reply).wakeExecution id

/-- The backend answers an execution at once. -/
def answerNow (m : MutationManager) (id : TaskId) (reply : Reply) : MutationManager :=
  (m.setReply id reply).runExecution id

/-- An execution is abandoned. -/
def abort (m : MutationManager) (id : TaskId) : MutationManager :=
  match m.stage? id with
  | some (.ended _) | none => m
  | _ => m.finish id .dropped

/-- **Everything ends:** no call is made any more, and those that wait are cancelled. -/
def cancel (m : MutationManager) : MutationManager :=
  (List.range m.executions.length).reverse.foldl wakeExecution { m with cancelled := true }

/-- The execution waits for the backend's answer. -/
def isCalling (m : MutationManager) (id : TaskId) : Bool :=
  match m.stage? id with
  | some (.calling _) => true
  | _ => false

end MutationManager

end QueryClient
