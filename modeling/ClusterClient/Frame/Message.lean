import ClusterClient.Durability.Outcome
/-!
# Messages

The requests and replies that a client and a node exchange.
-/

namespace ClusterClient

inductive GetStatus where
  | success
  | notFound
  -- The node does not own the partition: the asker's table is out of date.
  | notMyPartition
  | failure
  deriving DecidableEq, Repr

inductive Message where
  | getConfig
  | config (descriptor : Option String)
  | observe (key : String) (cas : UInt64) (partition : UInt32)
  | observeResponse (key : String) (cas : UInt64) (state : KeyState)
  | get (key : String) (partition : UInt32)
  | replicaGet (key : String) (partition replicaIndex : UInt32)
  | getResponse (status : GetStatus) (cas : UInt64) (value : Option (List UInt8))
  deriving DecidableEq, Repr

/-- The mark by which a reply names its request. -/
structure RequestId where
  bytes : Vector UInt8 16
  deriving DecidableEq, Repr

/-- A message with the id of its request. -/
structure Envelope where
  id : RequestId
  message : Message
  deriving DecidableEq, Repr

end ClusterClient
