import ClusterClient.Text.Quoted
/-!
# Malformed descriptors

The reasons for which a descriptor does not give a table.
-/

namespace ClusterClient

/-- Why a descriptor does not describe a consistent topology. -/
inductive Malformed where
  -- The text is not a descriptor in JSON.
  | unreadable
  -- The number of partitions is not a power of two.
  | partitionCount (count : Nat)
  | noNodes
  | hashAlgorithm (name : String)
  -- More replicas are declared than the client accepts.
  | replicaCount (declared limit : Nat)
  -- A row of the partition map is empty or has more than `expected` entries.
  | rowWidth (partition entries expected : Nat)
  -- A row names a node that is not in the list.
  | nodeIndex (partition : Nat) (index : Int) (nodes : Nat)
  -- A row names one node twice.
  | repeatedNode (partition index : Nat)
  -- A node's address is not a host and a port.
  | address (text : String)
  deriving DecidableEq, Repr

/-- What a message says of a malformed descriptor. -/
def Malformed.message : Malformed → String
  | unreadable => "descriptor is not valid JSON"
  | partitionCount count => s!"partition count {count} is not a non-zero power of two"
  | noNodes => "descriptor lists no nodes"
  | hashAlgorithm name => "unsupported hash algorithm " ++ Text.quoted name
  | replicaCount declared limit => s!"replica count {declared} exceeds the maximum of {limit}"
  | rowWidth partition entries expected =>
    s!"partition {partition} has {entries} entries, expected at most {expected}"
  | nodeIndex partition index nodes =>
    s!"partition {partition} references node {index} but only {nodes} nodes exist"
  | repeatedNode partition index => s!"partition {partition} lists node {index} more than once"
  | address text => "node address " ++ Text.quoted text ++ " is not host:port"

end ClusterClient
