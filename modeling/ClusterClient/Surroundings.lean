import ClusterClient.Frame.Message
import ClusterClient.Route
import ClusterClient.Transport.Delivery
import ClusterClient.Transport.Error
/-!
# The surroundings of an operation

What an operation on a key sees of the rest of the world: the table in force, nodes that answer
requests, and time that passes. The state of that world is a type of its own, which an operation
hands on and never looks into. So the same operation runs against nodes that follow a script and
against any other.
-/

namespace ClusterClient

/-- A node's report about a key: the version that it holds and what it has done with it. -/
structure Observation where
  cas : UInt64
  state : KeyState
  deriving DecidableEq, Repr

/-- Which copy of a key a read goes to. -/
inductive ReadTarget where
  | primary
  | replica (slot : Nat)
  deriving DecidableEq, Repr

/-- The reply to a read, with the address of the node that gave it. -/
structure GetReply where
  node : String
  status : GetStatus
  cas : UInt64
  value : Option (List UInt8)
  deriving DecidableEq, Repr

def GetReply.isSuccess (r : GetReply) : Bool := r.status == .success

/-- How one read ends. -/
inductive ReadResult where
  | reply (r : GetReply)
  | failed (e : TransportError)
  -- The reader broke down before it had a reply.
  | crashed
  deriving DecidableEq, Repr

/-- A world in state `W`, as an operation on a key uses it. Requests are sent at a tick and tell when
their results are there; only `wait` lets time pass. While an operation waits, its caller
may let go of it. -/
structure Surroundings (W : Type) where
  -- The table in force.
  table : W → Option Table
  -- Ask a node about a key.
  observe : W → (now : Nat) → Node → (key : String) → (cas : UInt64) → (partition : Nat) →
    W × Delivery (Except TransportError Observation)
  -- Read a copy of a key from a node.
  get : W → (now : Nat) → Node → ReadTarget → (key : String) → (partition : Nat) →
    W × Delivery ReadResult
  -- Report that the table is out of date.
  signalOutdated : W → W
  -- Give way to what else happens up to a tick, and let time pass up to it. A wait up to the tick
  -- that it is lets no time pass, and still gives way.
  wait : W → (tick : Nat) → W
  -- The caller let go of the operation. It ends there, without an answer.
  isDropped : W → Bool

end ClusterClient
