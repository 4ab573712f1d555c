import QueryClient.Config.Describe
import QueryClient.Query.Executor

/-!
# Live queries

A live query is an executor that is shared by all who are interested in one key. It is closed once,
by the last of them.

* `LiveQuery.close`: closes, and says whether it was open before.
* `LiveQuery.describe`: a live query for human readers.
-/

namespace QueryClient

/-- A shared executor. -/
structure LiveQuery where
  executor : Executor
  /-- Was closed by a user. -/
  closed : Bool := false

namespace LiveQuery

/-- The key of its query. -/
def key (q : LiveQuery) : QueryKey := q.executor.key

/-- Closes the live query. The flag says whether this is the first time. -/
def close (q : LiveQuery) : LiveQuery × Bool :=
  if q.closed then (q, false) else ({ executor := q.executor.close, closed := true }, true)

/-- A live query for human readers. -/
def describe (q : LiveQuery) : String :=
  describeRecord "LiveQuery"
    [("key", q.key.describe), ("closed", describeBool q.executor.closed)]

end LiveQuery

end QueryClient
