import QueryClient.Counted
import QueryClient.Query.Key

/-!
# The registry of live queries

The registry has one instance for each key in use, with the number of its users. An instance is
named by a number; a key that comes into use again gets another instance.

* `Registry.acquire`: one user more of a key.
* `Registry.release`: one user less, and what follows from that.
* `Registry.fault?`: what is wrong with a release.
-/

namespace QueryClient

/-- Names an instance of a live query. -/
abbrev InstanceId := Nat

/-- The instances in use. -/
structure Registry where
  entries : List (QueryKey × Counted InstanceId) := []
  deriving Inhabited

/-- What a release leads to. -/
inductive Release where
  /-- There are other users. -/
  | kept
  /-- That was the last user. -/
  | last
  | notRegistered
  /-- Another instance is registered for the key. -/
  | otherInstance
  /-- The entry has no user that could be taken away. -/
  | noUsers
  deriving DecidableEq, Repr

namespace Registry

/-- The entry of a key. -/
def entry? (r : Registry) (key : QueryKey) : Option (Counted InstanceId) :=
  (r.entries.find? fun e => e.1 = key).map (·.2)

/-- The number of keys in use. -/
def size (r : Registry) : Nat := r.entries.length

/-- The number of users of a key. -/
def users (r : Registry) (key : QueryKey) : Nat := ((r.entry? key).map (·.count)).getD 0

/-- The entry of a key that has one is replaced. -/
def setEntry (r : Registry) (key : QueryKey) (entry : Counted InstanceId) : Registry :=
  { entries := r.entries.map fun e => if e.1 = key then (key, entry) else e }

/-- The key is no longer in use. -/
def remove (r : Registry) (key : QueryKey) : Registry :=
  { entries := r.entries.filter fun e => e.1 ≠ key }

/-- One user more of a key. A key that was not in use gets the instance `fresh`. -/
def acquire (r : Registry) (key : QueryKey) (fresh : InstanceId) : Registry × InstanceId :=
  match r.entry? key with
  | some entry => (r.setEntry key entry.increment, entry.object)
  | none => ({ entries := r.entries ++ [(key, { object := fresh, count := 1 })] }, fresh)

/-- **One user less.** The last user takes the entry away. Nothing changes when the instance is not
the one that is registered. -/
def release (r : Registry) (key : QueryKey) (id : InstanceId) : Registry × Release :=
  match r.entry? key with
  | none => (r, .notRegistered)
  | some entry =>
    if entry.object ≠ id then (r, .otherInstance)
    else
      match entry.decrement? with
      | none => (r, .noUsers)
      | some entry =>
        if entry.count = 0 then (r.remove key, .last) else (r.setEntry key entry, .kept)

/-- What is said of a live query that its last user finds closed. -/
def closedTwice (key : QueryKey) : String :=
  "live query " ++ key.display ++ " was closed twice"

/-- What is wrong with a release, if anything is. The flag says whether the last user found the live
query open. -/
def fault? (key : QueryKey) (wasOpen : Bool) : Release → Option String
  | .kept => none
  | .last => if wasOpen then none else some (closedTwice key)
  | .notRegistered => some ("released live query " ++ key.display ++ " is not registered")
  | .otherInstance =>
    some ("released live query " ++ key.display ++ " does not match the registered instance")
  | .noUsers => some Counted.noUsers

end Registry

end QueryClient
