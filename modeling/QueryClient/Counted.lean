/-!
# Objects with a count of their users

* `Counted.increment`, `Counted.decrement?`: one user more or less; a count of zero cannot be
  decreased.
-/

namespace QueryClient

/-- An object with the number of its users. -/
structure Counted (α : Type) where
  object : α
  count : Nat := 0
  deriving DecidableEq, Repr, Inhabited

namespace Counted

variable {α : Type}

/-- One user more. -/
def increment (c : Counted α) : Counted α := { c with count := c.count + 1 }

/-- One user less, unless there is none. -/
def decrement? (c : Counted α) : Option (Counted α) :=
  if c.count = 0 then none else some { c with count := c.count - 1 }

/-- What happens when an object without users is to lose one. -/
def noUsers : String := "ReferenceCounted::decrement() called with ref_count == 0"

@[simp] theorem decrement?_increment (c : Counted α) : c.increment.decrement? = some c := by
  simp [decrement?, increment]

end Counted

end QueryClient
