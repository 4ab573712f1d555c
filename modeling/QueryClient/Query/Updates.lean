import QueryClient.Query.Executor

/-!
# Following an executor's results

A reader first gets what was stored when it came: the last success, and then the last result if that
is newer. After that it gets what is stored later. One who looks late gets the latest result only.

* `Updates.open`: a reader of the results stored from now on.
* `Updates.next`: what the reader gets now.
-/

namespace QueryClient

/-- A reader of an executor's results. -/
structure Updates where
  /-- What was stored when the reader came and has not been read. -/
  pending : List NumberedOutcome
  /-- The number of the last result read, or of the last one that was stored when the reader
  came. -/
  delivered : Option Int
  /-- The number of the last result that was stored when the reader came. -/
  replayedThrough : Option Int
  /-- The executor's version when the reader last looked. -/
  seen : Nat

namespace Updates

/-- What a new reader gets first. -/
def replay (e : Executor) : List NumberedOutcome :=
  match e.lastSuccess, e.last with
  | none, none => []
  | none, some last => [last]
  | some success, none => [success]
  | some success, some last => if last.isNewerThan success then [success, last] else [success]

/-- A reader of the results stored from now on. -/
def «open» (e : Executor) : Updates :=
  let pending := replay e
  let through := pending.getLast?.map (·.number)
  { pending, delivered := through, replayedThrough := through, seen := e.version }

/-- The stored result, if it is newer than all the reader got. -/
def fresh? (u : Updates) (e : Executor) : Option NumberedOutcome :=
  e.last.filter fun r => u.delivered.all fun n => n < r.number

/-- **What the reader gets now,** if there is something. -/
def next (u : Updates) (e : Executor) : Updates × Option NumberedOutcome :=
  match u.pending with
  | outcome :: rest => ({ u with pending := rest }, some outcome)
  | [] =>
    if u.seen = e.version then (u, none)
    else
      match u.fresh? e with
      | some outcome =>
        ({ u with seen := e.version, delivered := some outcome.number }, some outcome)
      | none => ({ u with seen := e.version }, none)

/-- The reader has to look. -/
def ready (u : Updates) (e : Executor) : Bool := !u.pending.isEmpty || u.seen != e.version

/-- The source of a result that the reader got. -/
def source (u : Updates) (outcome : NumberedOutcome) : DataSource :=
  if u.replayedThrough.any fun n => outcome.number ≤ n then .cache else .server

end Updates

end QueryClient
