import QueryClient.Auth.Realm
import QueryClient.Query.Executor

/-!
# Scripts

A session's backend and its auth provider answer as a script says: each call with the next answer of
a list, with a usual answer when the list is empty, or not before somebody says so.

* `Script.take`: the answer to a call that is answered at once.
* `usualReply`, `usualToken`: the usual answers.
-/

namespace QueryClient

/-- How calls are answered. -/
structure Script (α : Type) where
  /-- Calls wait until somebody answers them. -/
  manual : Bool := false
  queue : List α := []
  deriving Inhabited

namespace Script

variable {α : Type}

/-- The answer to a call that is answered at once, and the script for the calls after it. -/
def take (s : Script α) (usual : α) : Option α × Script α :=
  if s.manual then (none, s)
  else
    match s.queue with
    | [] => (some usual, s)
    | a :: rest => (some a, { s with queue := rest })

end Script

/-- The usual answer of the backend: the operation and the number of the call. -/
def usualReply (operation : String) (call : Nat) : Reply :=
  .returned (.ok (.ofData (.obj [("call", .int call), ("operation", .str operation)])))

/-- What an auth provider does before it answers. -/
inductive Interruption where
  /-- It reports a change. -/
  | rotate
  /-- It closes the session's token manager. -/
  | close
  /-- It makes the session's token manager ask for a new token next. -/
  | force
  deriving DecidableEq, Repr

/-- An answer of the auth provider. -/
structure ScriptedToken where
  reply : TokenReply
  before : Option Interruption := none

/-- The usual answer of the auth provider: a token with the number of the call. -/
def usualToken (call : Nat) (forced : Bool) : ScriptedToken :=
  { reply := .ok (some ("token" ++ String.ofList (Nat.toDigits 10 call)
      ++ if forced then "-forced" else "")) }

end QueryClient
