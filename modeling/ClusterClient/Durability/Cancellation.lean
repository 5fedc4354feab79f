/-!
# Cancelling a confirmation

The caller of a confirmation may hold a flag that stops it. The flag's history is a first value and
the ticks at which it is set anew; a caller who lets go of the flag leaves it as it is.
-/

namespace ClusterClient

/-- The history of a cancel flag: its changes in the order of time. -/
structure Cancellation where
  initially : Bool
  changes : List (Nat × Bool)
  deriving DecidableEq, Repr

namespace Cancellation

def never : Cancellation := ⟨false, []⟩

/-- The flag before a tick, as the changes at earlier ticks have left it. -/
def wasSet (c : Cancellation) (now : Nat) : Bool :=
  (c.changes.takeWhile (·.1 < now)).foldl (fun _ change => change.2) c.initially

/-- The flag at a tick, after the changes at that tick. -/
def isSet (c : Cancellation) (now : Nat) : Bool := c.wasSet (now + 1)

/-- The first tick from `start` on and before `stop` at which the flag is set. -/
def firstSet? (c : Cancellation) (start stop : Nat) : Option Nat :=
  if start < stop then
    (start :: (c.changes.map (·.1)).filter fun tick => start < tick && tick < stop).find? c.isSet
  else none

end Cancellation

end ClusterClient
