/-!
# Numbers drawn in order

Results carry the number that was current when they were produced, so that any two can be compared.
Numbers and request identifiers come from one supply for all queries: they are distinct and
increasing, and not contiguous for any single query. The supply is taken not to run out: numbers of 64 bits
have room for all that a process draws, so that none is drawn twice.

* `Supply`: what was drawn last, and how to draw.
* `Sequenced`: a value with its number.
-/

namespace QueryClient

/-- Tells one request from every other. -/
structure RequestId where
  index : Nat
  deriving DecidableEq, Repr, Inhabited

/-- What was drawn last. -/
structure Supply where
  number : Int := 0
  request : Nat := 0
  deriving DecidableEq, Repr, Inhabited

namespace Supply

/-- Draws the next number. -/
def drawNumber (s : Supply) : Int × Supply := (s.number + 1, { s with number := s.number + 1 })

/-- Draws a request identifier not drawn before. -/
def drawRequest (s : Supply) : RequestId × Supply :=
  (⟨s.request + 1⟩, { s with request := s.request + 1 })

end Supply

/-- A value with the number it was produced under. -/
structure Sequenced (α : Type) where
  number : Int
  value : α
  deriving DecidableEq, Repr, Inhabited

namespace Sequenced

variable {α β : Type}

/-- Produced under a larger number. -/
def isNewerThan (a : Sequenced α) (b : Sequenced β) : Bool := b.number < a.number

/-- The value changed, the number kept. -/
def map (a : Sequenced α) (f : α → β) : Sequenced β := ⟨a.number, f a.value⟩

/-- A value under a number drawn for it. -/
def next (s : Supply) (value : α) : Sequenced α × Supply :=
  let (n, s) := s.drawNumber
  (⟨n, value⟩, s)

end Sequenced

end QueryClient
