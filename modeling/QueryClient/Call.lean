import QueryClient.Error

/-!
# Calls and the tasks that make them

* `Reply`: how a call of the backend ends.
* `Ending`: how a task ends that somebody waits for.
-/

namespace QueryClient

/-- Names a task. -/
abbrev TaskId := Nat

/-- How a call of the backend ends. -/
inductive Reply where
  | returned (result : Except Error OperationResult)
  /-- The call dies, and whoever made it. -/
  | panicked (text : String)

/-- How a task with a result ends. -/
inductive Ending (α : Type) where
  | returned (value : α)
  | panicked (text : String)
  /-- It was abandoned. -/
  | dropped

end QueryClient
