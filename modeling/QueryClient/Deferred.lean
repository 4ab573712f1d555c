/-!
# Values that become available later

Callbacks wait for a value that may be provided at any time, or never. When it is provided they run
in the order they were registered; later ones run at once. A callback may register further ones and
may provide a value itself: both are done to the value as it is then, while others still wait to run.

* `Callback`: a label, and what the callback does when it runs.
* `Frame`, `Deferred.advance`, `Deferred.exec`: what is left to be done, one step of it, and all of it.
* `Deferred.whenAvailable`, `Deferred.provide`: register a callback; make the value available.
* `Deferred.fired`: what ran, in order, each with the value it ran with.
-/

namespace QueryClient

/-- A callback: its label, and what it does when it runs. -/
inductive Callback (α : Type) where
  | mk (label : String) (deeds : List (Callback α ⊕ α))

/-- What a callback does when it runs: register another one, or provide a value. -/
abbrev Deed (α : Type) := Callback α ⊕ α

namespace Callback

variable {α : Type}

/-- The label. -/
def label : Callback α → String
  | .mk l _ => l

/-- What it does when it runs. -/
def deeds : Callback α → List (Deed α)
  | .mk _ ds => ds

mutual

/-- How many steps the run of a callback takes, with all that it registers. -/
def size : Callback α → Nat
  | .mk _ deeds => sizeDeeds deeds + 2

def sizeDeeds : List (Callback α ⊕ α) → Nat
  | [] => 0
  | .inl callback :: rest => size callback + 1 + sizeDeeds rest
  | .inr _ :: rest => sizeDeeds rest + 1

end

end Callback

/-- What is seen of a callback. -/
inductive CallbackNote (α : Type) where
  /-- It begins to run with a value. -/
  | began (label : String) (value : α)
  | returned (label : String)
  deriving DecidableEq, Repr

/-- The label and the value of a callback that begins. -/
def CallbackNote.began? {α : Type} : CallbackNote α → Option (String × α)
  | .began label value => some (label, value)
  | .returned _ => none

/-- What is left to be done. -/
inductive Frame (α : Type) where
  | deed (deed : Deed α)
  /-- A callback is to run with a value. -/
  | run (callback : Callback α) (value : α)
  /-- A callback that runs is to return. -/
  | leave (label : String)

/-- How many steps it takes. -/
def Frame.size {α : Type} : Frame α → Nat
  | .deed (.inl callback) => callback.size + 1
  | .deed (.inr _) => 1
  | .run callback _ => callback.size
  | .leave _ => 1

/-- A value that may become available. -/
structure Deferred (α : Type) where
  value : Option α := none
  /-- Callbacks that wait, in the order they were registered. -/
  waiting : List (Callback α) := []
  /-- What was seen of callbacks. -/
  journal : List (CallbackNote α) := []
  /-- How often a value was provided in vain. -/
  ignored : Nat := 0

namespace Deferred

variable {α : Type}

/-- The text of a provision in vain. -/
def ignoredText : String := "deferred value provided more than once; ignoring"

/-- What ran, in order, each with its value. -/
def fired (d : Deferred α) : List (String × α) := d.journal.filterMap CallbackNote.began?

/-- Something is seen of a callback. -/
def note (d : Deferred α) (n : CallbackNote α) : Deferred α := { d with journal := d.journal ++ [n] }

/-- **One step,** with what it leaves to be done before all else. A callback that is registered waits,
or runs at once when the value is there. Only the first value that is provided counts: what waits is
taken then, to be run with it in the order of registration. -/
def advance (d : Deferred α) : Frame α → Deferred α × List (Frame α)
  | .deed (.inl callback) =>
    match d.value with
    | none => ({ d with waiting := d.waiting ++ [callback] }, [])
    | some value => (d, [.run callback value])
  | .deed (.inr value) =>
    match d.value with
    | none => ({ d with value := some value, waiting := [] }, d.waiting.map fun c => .run c value)
    | some _ => ({ d with ignored := d.ignored + 1 }, [])
  | .run callback value =>
    (d.note (.began callback.label value), callback.deeds.map .deed ++ [.leave callback.label])
  | .leave label => (d.note (.returned label), [])

section Total

variable {β γ : Type} (count : β → Nat)

/-- What is counted in each element of a list, together. -/
def total : List β → Nat
  | [] => 0
  | b :: rest => count b + total rest

@[simp] theorem total_nil : total count [] = 0 := rfl

@[simp] theorem total_cons (b : β) (rest : List β) : total count (b :: rest) = count b + total count rest :=
  rfl

@[simp] theorem total_append (left right : List β) :
    total count (left ++ right) = total count left + total count right := by
  induction left with
  | nil => exact (Nat.zero_add _).symm
  | cons b rest ih => rw [List.cons_append, total_cons, total_cons, ih, Nat.add_assoc]

theorem total_map (f : γ → β) (items : List γ) :
    total count (items.map f) = total (fun c => count (f c)) items := by
  induction items with
  | nil => rfl
  | cons c rest ih => rw [List.map_cons, total_cons, total_cons, ih]

end Total

/-- How many steps it takes to do all that is left to be done. -/
def load (d : Deferred α) (frames : List (Frame α)) : Nat :=
  total Callback.size d.waiting + total Frame.size frames

theorem total_deeds (deeds : List (Deed α)) :
    total Frame.size (deeds.map .deed) = Callback.sizeDeeds deeds := by
  induction deeds with
  | nil => rfl
  | cons deed rest ih =>
    rw [List.map_cons, total_cons, ih]
    cases deed with
    | inl c => rfl
    | inr v => exact Nat.add_comm ..

/-- A callback begins, does what it does, and returns. -/
theorem size_eq (c : Callback α) : c.size = total Frame.size (c.deeds.map .deed) + 2 := by
  rw [total_deeds]
  cases c
  rfl

/-- **Every step is one of those that it takes.** -/
theorem load_advance (d : Deferred α) (frame : Frame α) (rest : List (Frame α)) :
    load (d.advance frame).1 ((d.advance frame).2 ++ rest) + 1 = d.load (frame :: rest) := by
  cases frame with
  | deed deed =>
    cases deed with
    | inl c =>
      cases hv : d.value with
      | none => simp [advance, hv, load, Frame.size]; omega
      | some v => simp [advance, hv, load, Frame.size]; omega
    | inr v =>
      cases hv : d.value with
      | none =>
        have hruns : total Frame.size (d.waiting.map fun c => .run c v) = total Callback.size d.waiting :=
          total_map ..
        simp [advance, hv, load, hruns, Frame.size]
        omega
      | some w => simp [advance, hv, load, Frame.size]; omega
  | run c v =>
    have hsize := size_eq c
    simp [advance, load, note, Frame.size]
    omega
  | leave label => simp [advance, load, note, Frame.size]; omega

/-- **Does all that is left to be done,** the first first. -/
def exec (d : Deferred α) : List (Frame α) → Deferred α
  | [] => d
  | frame :: rest => exec (d.advance frame).1 ((d.advance frame).2 ++ rest)
termination_by frames => d.load frames
decreasing_by
  have := load_advance d frame rest
  omega

/-- Registers a callback: it waits, or runs at once when the value is there. -/
def whenAvailable (d : Deferred α) (callback : Callback α) : Deferred α := d.exec [.deed (.inl callback)]

/-- Makes the value available and runs what waits. Only the first value counts. -/
def provide (d : Deferred α) (value : α) : Deferred α := d.exec [.deed (.inr value)]

/-- A value that is available from the start. -/
def available (value : α) : Deferred α := provide {} value

end Deferred

end QueryClient
