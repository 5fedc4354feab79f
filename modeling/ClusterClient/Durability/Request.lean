import ClusterClient.Route
/-!
# Durability requests

What a caller asks for after a mutation: on how many nodes it has to be persisted, the primary
first, and on how many replicas it has to have arrived.
-/

namespace ClusterClient

/-- The number of nodes that must have persisted a mutation, the primary first. -/
inductive PersistTo where
  | zero
  | master
  | two
  | three
  | four
  deriving DecidableEq, Repr

namespace PersistTo

def count : PersistTo → Nat
  | zero => 0
  | master => 1
  | two => 2
  | three => 3
  | four => 4

/-- The replicas among the nodes that must have persisted. -/
def replicas (p : PersistTo) : Nat := p.count - 1

def name : PersistTo → String
  | zero => "Zero"
  | master => "Master"
  | two => "Two"
  | three => "Three"
  | four => "Four"

end PersistTo

/-- The number of replicas that a mutation must have reached, persisted or not. -/
inductive ReplicateTo where
  | zero
  | one
  | two
  | three
  deriving DecidableEq, Repr

namespace ReplicateTo

def count : ReplicateTo → Nat
  | zero => 0
  | one => 1
  | two => 2
  | three => 3

def name : ReplicateTo → String
  | zero => "Zero"
  | one => "One"
  | two => "Two"
  | three => "Three"

end ReplicateTo

/-- A mutation whose durability is to be confirmed. -/
structure DurabilityRequest where
  key : String
  -- The version that the mutation gave the key.
  cas : UInt64
  persistTo : PersistTo := .zero
  replicateTo : ReplicateTo := .zero
  isDelete : Bool := false
  deriving DecidableEq, Repr

namespace DurabilityRequest

/-- Nothing to wait for: the primary's acknowledgement is enough. -/
def isTrivial (r : DurabilityRequest) : Bool := r.persistTo == .zero && r.replicateTo == .zero

def replicasNeeded (r : DurabilityRequest) : Nat := max r.replicateTo.count r.persistTo.replicas

def available (route : Route) : Nat :=
  match route.table.kind with
  | .simple => 0
  | .partitioned => min (route.replicas.filterMap id).length route.table.availableReplicas

/-- Whether a route can satisfy the request at all. Without partitions nothing can be confirmed. -/
def isSatisfiable (r : DurabilityRequest) (route : Route) : Bool :=
  !(route.table.kind == .simple && r.persistTo != .zero) && r.replicasNeeded ≤ available route

end DurabilityRequest

end ClusterClient
