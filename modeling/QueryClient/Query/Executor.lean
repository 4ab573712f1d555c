import QueryClient.Call
import QueryClient.Query.Key
import QueryClient.Sequence

/-!
# Executing one query

An executor runs one query with at most one call of the backend at a time. Who asks while an attempt
is unfinished joins it; the attempt waits in the executor's *slot*. An attempt is carried out by a
task of its own, which outlives those who asked for it. When the task dies without a result, the
next of those who wait for it makes up a failure in its place.

Attempts and their results carry numbers drawn in order; a result is stored only when its number is
larger than that of the result stored before.

* `Executor.draw`, `Executor.join`, `Executor.enter`: asking for a result.
* `Executor.begin`, `Executor.answer`, `Executor.resume`: the steps of an attempt's task.
* `Executor.kill`: the task dies.
* `Executor.await?`: the result for those who wait for an attempt.
* `Executor.publish`: stores a result that is newer than what is stored.
-/

namespace QueryClient

/-- What an attempt ended in. -/
structure Outcome where
  key : QueryKey
  request : RequestId
  result : Except Error OperationResult

namespace Outcome

/-- The backend answered. -/
def isSuccess (o : Outcome) : Bool := o.result.isOk

end Outcome

/-- A result with the number of its attempt. -/
abbrev NumberedOutcome := Sequenced Outcome

/-- How far an attempt is. -/
inductive Stage where
  /-- Its task has not run yet. -/
  | spawned
  /-- The backend was called and has not answered. -/
  | calling
  /-- The answer is there and has not been looked at. -/
  | answered (reply : Reply)
  /-- The task is gone without a result. -/
  | dead
  | settled (outcome : NumberedOutcome)

/-- One try at the query. -/
structure Attempt where
  number : Int
  request : RequestId
  stage : Stage

/-- Runs one query. -/
structure Executor where
  spec : QuerySpec
  key : QueryKey := spec.key
  closed : Bool := false
  last : Option NumberedOutcome := none
  lastSuccess : Option NumberedOutcome := none
  /-- How often a result was stored. -/
  version : Nat := 0
  /-- The number of the attempt that can be joined. -/
  slot : Option Int := none
  /-- All attempts, the youngest first. -/
  attempts : List Attempt := []

/-- What asking for a result leads to. -/
inductive Entry where
  /-- A result newer than the question is there. -/
  | found (outcome : NumberedOutcome)
  /-- The attempt with the given number is to be awaited. -/
  | joined (number : Int)
  /-- So it is, and it was started for this question. -/
  | started (number : Int)

namespace Executor

/-- The attempt with the given number. -/
def attempt? (e : Executor) (number : Int) : Option Attempt :=
  e.attempts.find? fun a => a.number = number

/-- How far the attempt with the given number is. -/
def stage? (e : Executor) (number : Int) : Option Stage := (e.attempt? number).map (·.stage)

/-- The attempt with the given number is now at another stage. -/
def setStage (e : Executor) (number : Int) (stage : Stage) : Executor :=
  { e with
    attempts := e.attempts.map fun a => if a.number = number then { a with stage := stage } else a }

/-- The stored result, if its number is larger than the given one. -/
def newerThan? (e : Executor) (number : Int) : Option NumberedOutcome :=
  e.last.filter fun r => number < r.number

/-- A question that drew `least` finds a newer result, joins the attempt in the slot, or starts one
with a number and a request identifier of its own. -/
def join (e : Executor) (least : Int) (supply : Supply) : Executor × Supply × Entry :=
  match e.newerThan? least, e.slot with
  | some outcome, _ => (e, supply, .found outcome)
  | none, some number => (e, supply, .joined number)
  | none, none =>
    let (number, supply) := supply.drawNumber
    let (request, supply) := supply.drawRequest
    ({ e with
        slot := some number
        attempts := { number, request, stage := .spawned } :: e.attempts },
      supply, .started number)

/-- **Asking for a result:** a number is drawn, and no result up to it will do. -/
def enter (e : Executor) (supply : Supply) : Executor × Supply × Entry :=
  let (least, supply) := supply.drawNumber
  e.join least supply

/-- The result is newer than what is stored. -/
def accepts (e : Executor) (outcome : NumberedOutcome) : Bool :=
  e.last.all fun r => outcome.isNewerThan r

/-- Stores a result that is newer than what is stored; a success is stored as the last success,
too, when it is newer than that. -/
def publish (e : Executor) (outcome : NumberedOutcome) : Executor :=
  if e.accepts outcome then
    { e with
      last := some outcome
      lastSuccess :=
        if outcome.value.isSuccess && e.lastSuccess.all (fun r => outcome.isNewerThan r) then
          some outcome
        else e.lastSuccess
      version := e.version + 1 }
  else e

/-- The slot is freed if it holds the attempt of the result, and the result is stored. -/
def complete (e : Executor) (outcome : NumberedOutcome) : Executor :=
  { e with slot := if e.slot = some outcome.number then none else e.slot }.publish outcome

/-- The result of an attempt. -/
def outcomeOf (e : Executor) (a : Attempt) (result : Except Error OperationResult) :
    NumberedOutcome :=
  ⟨a.number, ⟨e.key, a.request, result⟩⟩

/-- The attempt ends in a result, which is handed to those who wait. -/
def settle (e : Executor) (a : Attempt) (result : Except Error OperationResult) : Executor :=
  let outcome := e.outcomeOf a result
  (e.complete outcome).setStage a.number (.settled outcome)

/-- The first step of an attempt's task: it calls the backend, or fails when the executor is
closed. -/
def begin (e : Executor) (number : Int) : Executor :=
  match e.attempt? number with
  | some a =>
    match a.stage with
    | .spawned =>
      if e.closed then e.settle a (.error .executorClosed) else e.setStage number .calling
    | _ => e
  | none => e

/-- The backend answers an attempt that waits for it. -/
def answer (e : Executor) (number : Int) (reply : Reply) : Executor :=
  match e.stage? number with
  | some .calling => e.setStage number (.answered reply)
  | _ => e

/-- The next step of an attempt's task that called the backend: it is cancelled when the executor
has been closed, even if the answer is there, and else takes the answer. -/
def resume (e : Executor) (number : Int) : Executor :=
  match e.attempt? number with
  | some a =>
    match a.stage with
    | .calling => if e.closed then e.settle a (.error .executionCancelled) else e
    | .answered reply =>
      if e.closed then e.settle a (.error .executionCancelled)
      else
        match reply with
        | .returned result => e.settle a result
        | .panicked _ => e.setStage number .dead
    | _ => e
  | none => e

/-- The task of an attempt dies before it has a result. -/
def kill (e : Executor) (number : Int) : Executor :=
  match e.stage? number with
  | some .spawned | some .calling | some (.answered _) => e.setStage number .dead
  | _ => e

/-- The task of an attempt can take a step. -/
def attemptReady (e : Executor) (number : Int) : Bool :=
  match e.stage? number with
  | some .spawned | some (.answered _) => true
  | some .calling => e.closed
  | _ => false

/-- The task of an attempt has not ended. -/
def attemptRuns (e : Executor) (number : Int) : Bool :=
  match e.stage? number with
  | some .spawned | some .calling | some (.answered _) => true
  | _ => false

/-- Those who wait for an attempt can go on. -/
def awaitReady (e : Executor) (number : Int) : Bool :=
  match e.stage? number with
  | some .dead | some (.settled _) => true
  | _ => false

/-- What is said of an attempt whose task died. -/
def droppedText (e : Executor) : String :=
  "[rid=*] execution task for " ++ e.key.display ++ " was dropped"

/-- The result for one who waits for an attempt: its own, or, when its task died, a failure made up
by the first who finds this out. The flag says that it was made up just now. -/
def await? (e : Executor) (number : Int) : Option (Executor × NumberedOutcome × Bool) :=
  match e.attempt? number with
  | some a =>
    match a.stage with
    | .settled outcome => some (e, outcome, false)
    | .dead =>
      let result := .error .executionDropped
      some (e.settle a result, e.outcomeOf a result, true)
    | _ => none
  | none => none

/-- No call of the backend is made any more; an unfinished one is cancelled. -/
def close (e : Executor) : Executor := { e with closed := true }

/-- A fresh executor. -/
def ofSpec (spec : QuerySpec) (closed : Bool) : Executor := { spec, closed }

end Executor

end QueryClient
