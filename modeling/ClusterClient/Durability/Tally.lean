import ClusterClient.Durability.Outcome
import ClusterClient.Durability.Request
/-!
# Counting a round

What one round of outcomes amounts to. After a mutation a replica that has found the key counts as
reached, and as persisted if it has persisted it; the primary counts as persisted if it has. After a
delete, "not found" takes the place of "found".
-/

namespace ClusterClient

structure Tally where
  -- The replicas that the mutation has reached.
  replicated : Nat := 0
  -- The replicas among them that have persisted it.
  replicaPersisted : Nat := 0
  masterPersisted : Bool := false
  masterModified : Bool := false
  deriving DecidableEq, Repr

namespace Tally

/-- The outcome of a node that the mutation has reached and that has not persisted it. -/
def present (isDelete : Bool) : Outcome :=
  if isDelete then .notFoundNotPersisted else .foundNotPersisted

/-- The outcome of a node that has persisted the mutation. -/
def persisted (isDelete : Bool) : Outcome :=
  if isDelete then .notFoundPersisted else .foundPersisted

/-- A tally with one more outcome, of the primary or of a replica. -/
def add (isDelete : Bool) (t : Tally) (isMaster : Bool) (o : Outcome) : Tally :=
  if isMaster then
    if o = .modified then { t with masterModified := true }
    else if o = persisted isDelete then { t with masterPersisted := true }
    else t
  else if o = present isDelete then { t with replicated := t.replicated + 1 }
  else if o = persisted isDelete then
    { t with replicated := t.replicated + 1, replicaPersisted := t.replicaPersisted + 1 }
  else t

/-- The tally of a round's outcomes, each with whether it is the primary's. -/
def ofOutcomes (isDelete : Bool) (outcomes : List (Bool × Outcome)) : Tally :=
  outcomes.foldl (fun t (isMaster, o) => t.add isDelete isMaster o) {}

/-- Whether a round proves the durability asked for. -/
def satisfies (t : Tally) (persistTo : PersistTo) (replicateTo : ReplicateTo) : Bool :=
  replicateTo.count ≤ t.replicated && persistTo.replicas ≤ t.replicaPersisted &&
    (persistTo == .zero || t.masterPersisted)

end Tally

end ClusterClient
