/-!
# Deliveries

How a request turns out in time: what comes back and how many ticks after it was sent. A request
that is never answered has no such number. Whoever sends it waits for a window of ticks; what
arrives at its very end is still in time.
-/

namespace ClusterClient

/-- What comes of a request, `after` so many ticks; never if `after` is `none`. -/
structure Delivery (α : Type) where
  after : Option Nat
  result : α
  deriving DecidableEq, Repr

namespace Delivery

variable {α : Type}

def now (result : α) : Delivery α := ⟨some 0, result⟩

/-- The tick within a window at which the result is there. -/
def arrival? (window : Nat) (d : Delivery α) : Option Nat := d.after.filter (· ≤ window)

/-- The result, if it is there within a window. -/
def within? (window : Nat) (d : Delivery α) : Option α :=
  (d.arrival? window).map fun _ => d.result

/-- How long the sender waits: until the result is there, or to the end of the window. -/
def waited (window : Nat) (d : Delivery α) : Nat := (d.arrival? window).getD window

-- Nobody waits beyond the window.
theorem waited_le (window : Nat) (d : Delivery α) : d.waited window ≤ window := by
  unfold waited arrival?
  cases h : d.after with
  | none => simp
  | some t =>
    by_cases ht : t ≤ window
    · simp [Option.filter, ht]
    · simp [Option.filter, ht]

end Delivery

end ClusterClient
