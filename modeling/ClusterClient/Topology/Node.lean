import ClusterClient.Address
/-!
# Nodes

The nodes a table sends requests to, in the order in which the descriptor lists them, each with its
liveness as the client knows it.
-/

namespace ClusterClient

/-- Liveness of a node as known to the client. Only an active node is sent requests. -/
inductive NodeState where
  | active
  | inactive
  | suspected
  deriving DecidableEq, Repr

/-- A node: its place in the list of nodes, its `host:port` address and its liveness. -/
structure Node where
  index : Nat
  address : String
  state : NodeState
  deriving DecidableEq, Repr

namespace Node

def host (n : Node) : String := Address.host n.address

def isActive (n : Node) : Bool := n.state == .active

end Node

structure Registry where
  nodes : List Node
  deriving DecidableEq, Repr

namespace Registry

/-- All nodes active, numbered from zero. -/
def ofAddresses (addresses : List String) : Registry :=
  ⟨addresses.mapIdx fun index address => ⟨index, address, .active⟩⟩

def size (r : Registry) : Nat := r.nodes.length

def isEmpty (r : Registry) : Bool := r.nodes.isEmpty

def get? (r : Registry) (index : Nat) : Option Node := r.nodes[index]?

/-- The node at a place, provided that it is active. -/
def active? (r : Registry) (index : Nat) : Option Node := (r.get? index).filter (·.isActive)

def find? (r : Registry) (address : String) : Option Node :=
  r.nodes.find? (·.address == address)

def activeCount (r : Registry) : Nat := r.nodes.countP (·.isActive)

/-- The first node with an address in another state; nothing if no node has that address. -/
def setState? (r : Registry) (address : String) (state : NodeState) : Option Registry :=
  (r.nodes.findIdx? (·.address == address)).map fun i =>
    ⟨r.nodes.modify i fun n => { n with state }⟩

end Registry

end ClusterClient
