import ClusterClient.Durability.Tally
import ClusterClient.Surroundings
/-!
# Observe rounds

One round asks the primary and every replica that can be reached about a key, all at once, and waits
until all have answered or a window is over. A node that fails or is late counts as an error, and
takes nothing from what the others say.
-/

namespace ClusterClient

structure Round where
  -- The tick at which it was broadcast.
  started : Nat
  -- The ticks that replies had.
  window : Nat
  route : Route
  -- What came of asking each target of the route, in order.
  deliveries : List (Delivery (Except TransportError Observation))

namespace Round

/-- What a node contributes to a round that waits for a version. -/
def outcome (cas : UInt64) (window : Nat) (d : Delivery (Except TransportError Observation)) :
    Outcome :=
  match d.within? window with
  | some (.ok o) => .classify cas o.cas o.state
  | some (.error _) | none => .error

/-- The outcomes of a round in the order of the targets. -/
def outcomes (r : Round) (cas : UInt64) : List Outcome :=
  r.deliveries.map (outcome cas r.window)

/-- The outcomes with whether they are the primary's, which is the first target. -/
def marked (r : Round) (cas : UInt64) : List (Bool × Outcome) :=
  (r.outcomes cas).mapIdx fun i o => (i == 0, o)

def tally (r : Round) (request : DurabilityRequest) : Tally :=
  .ofOutcomes request.isDelete (r.marked request.cas)

/-- The tick at which the round ends: all have answered, or the window is over. -/
def ended (r : Round) : Nat :=
  r.started + (r.deliveries.map (·.waited r.window)).foldl max 0

/-- Ask each node in turn, without letting time pass. -/
def broadcast {W : Type} (s : Surroundings W) (w : W) (now : Nat) (key : String) (cas : UInt64)
    (partition : Nat) : List Node → W × List (Delivery (Except TransportError Observation))
  | [] => (w, [])
  | node :: rest =>
    let (w, d) := s.observe w now node key cas partition
    let (w, ds) := broadcast s w now key cas partition rest
    (w, d :: ds)

/-- Broadcast a round over a route and wait for its end, if it has not ended at once. -/
def run {W : Type} (s : Surroundings W) (w : W) (now window : Nat) (key : String) (cas : UInt64)
    (route : Route) : W × Round :=
  let (w, deliveries) := broadcast s w now key cas route.partition route.targets
  let round : Round := { started := now, window, route, deliveries }
  (if round.ended ≤ now then w else s.wait w round.ended, round)

/-- An association list in which a key that is there already takes the new value. -/
def assign (address : String) (o : Outcome) :
    List (String × Outcome) → List (String × Outcome)
  | [] => [(address, o)]
  | (a, old) :: rest =>
    if a = address then (a, o) :: rest else (a, old) :: assign address o rest

/-- The outcome of each address that was asked; of targets with one address the last one counts. -/
def byAddress (r : Round) (cas : UInt64) : List (String × Outcome) :=
  ((r.route.targets.zip (r.outcomes cas)).foldl
    (fun found (node, o) => assign node.address o found) [])

end Round

end ClusterClient
