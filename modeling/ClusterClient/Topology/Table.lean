import ClusterClient.Hash.Checksum
import ClusterClient.Topology.Malformed
import ClusterClient.Topology.Node
/-!
# Topology tables

A table says which node owns each partition of the keys and which nodes hold its replicas. It is
built whole, from a list of servers and a partition map, or refused; a table is never edited, only
copied with one node's liveness changed.
-/

namespace ClusterClient

inductive TableKind where
  -- Keys fall into a fixed set of partitions with a primary and replicas.
  | partitioned
  -- Keys fall straight onto the nodes; there are no replicas.
  | simple
  deriving DecidableEq, Repr

/-- The owners of one partition, as places in the list of nodes; `none` where no node is assigned. -/
structure Partition where
  primary : Option Nat
  replicas : List (Option Nat)
  deriving DecidableEq, Repr

/-- A snapshot of the cluster: its partitions, its nodes and the revision it was given. -/
structure Table where
  kind : TableKind
  name : String
  rev : Int
  replicaCount : Nat
  partitions : List Partition
  registry : Registry
  deriving DecidableEq, Repr

namespace Table

/-! ## Building -/

/-- A table needs a node, and each node an address of host and port. -/
def checkServers (servers : List String) : Except Malformed Unit :=
  if servers.isEmpty then .error .noNodes
  else match servers.find? (!Address.isValid ·) with
    | some address => .error (.address address)
    | none => .ok ()

/-- A number that is two to some power. -/
def isPowerOfTwo (n : Nat) : Bool := n != 0 && 1 <<< n.log2 == n

/-- An entry of a row: the place of a node, or -1 for none. -/
def readEntry (nodes partition : Nat) (entry : Int) : Except Malformed (Option Nat) :=
  if entry = -1 then .ok none
  else if 0 ≤ entry ∧ entry < nodes then .ok (some entry.toNat)
  else .error (.nodeIndex partition entry nodes)

/-- The smallest number that a list holds more than once. -/
def repeated? (owners : List Nat) : Option Nat :=
  (owners.filter fun i => 1 < owners.count i).min?

/-- The entries that a row may have, its primary and its replicas, as a word counts them. -/
def rowWidth (replicaCount : Nat) : Nat := (UInt64.ofNat replicaCount + 1).toNat

theorem rowWidth_eq (replicaCount : Nat) :
    rowWidth replicaCount = (replicaCount + 1) % UInt64.size := by
  show (replicaCount % UInt64.size + 1) % UInt64.size = _
  rw [Nat.mod_add_mod]

-- A count that leaves room for the primary is not cut.
theorem rowWidth_of_lt {replicaCount : Nat} (h : replicaCount + 1 < UInt64.size) :
    rowWidth replicaCount = replicaCount + 1 := by
  rw [rowWidth_eq, Nat.mod_eq_of_lt h]

theorem rowWidth_le (replicaCount : Nat) : rowWidth replicaCount ≤ replicaCount + 1 := by
  rw [rowWidth_eq]
  exact Nat.mod_le _ _

-- The largest count does not: no row is narrow enough.
example : rowWidth (UInt64.size - 1) = 0 := by decide +kernel

/-- The owners that a row names: no more than it may have, and no node twice. -/
def readOwners (nodes replicaCount partition : Nat) (row : List Int) :
    Except Malformed (List (Option Nat)) :=
  if row.isEmpty || rowWidth replicaCount < row.length then
    .error (.rowWidth partition row.length (rowWidth replicaCount))
  else do
    let owners ← row.mapM (readEntry nodes partition)
    match repeated? (owners.filterMap id) with
    | some index => .error (.repeatedNode partition index)
    | none => .ok owners

/-- A row is the primary and then the replicas; replicas that it leaves out are not assigned. -/
def readRow (nodes replicaCount partition : Nat) (row : List Int) : Except Malformed Partition := do
  let owners ← readOwners nodes replicaCount partition row
  .ok ⟨owners.head?.join, owners.tail ++ List.replicate (replicaCount + 1 - row.length) none⟩

/-- What is checked of a partition map before its rows. -/
def checkMap (servers : List String) (replicaCount : Nat) (map : List (List Int))
    (maxReplicas : Nat) : Except Malformed Unit := do
  checkServers servers
  if maxReplicas < replicaCount then .error (.replicaCount replicaCount maxReplicas)
  else if !isPowerOfTwo map.length then .error (.partitionCount map.length)
  else .ok ()

/-- A partitioned table from a server list and a partition map, one row a partition. -/
def partitioned (name : String) (rev : Int) (servers : List String) (replicaCount : Nat)
    (map : List (List Int)) (maxReplicas : Nat) : Except Malformed Table := do
  checkMap servers replicaCount map maxReplicas
  let partitions ← map.zipIdx.mapM fun (row, partition) =>
    readRow servers.length replicaCount partition row
  .ok { kind := .partitioned, name, rev, replicaCount, partitions,
        registry := .ofAddresses servers }

/-- The number of replicas from which on no list can have a slot for each: a slot takes sixteen
bytes, and a list takes less than 2 ^ 63 of them. -/
def slotLimit : Nat := 1 <<< 59

/-- Whether building comes to the slots of the first partition, which are laid out as soon as its
row has been checked. -/
def comesToSlots (servers : List String) (replicaCount : Nat) (map : List (List Int))
    (maxReplicas : Nat) : Bool :=
  Except.isOk do
    checkMap servers replicaCount map maxReplicas
    readOwners servers.length replicaCount 0 (map.headD [])

/-- What comes of building a partitioned table; nothing if the builder breaks down over more slots
than a list can have. -/
def build? (name : String) (rev : Int) (servers : List String) (replicaCount : Nat)
    (map : List (List Int)) (maxReplicas : Nat) : Option (Except Malformed Table) :=
  if slotLimit ≤ replicaCount ∧ comesToSlots servers replicaCount map maxReplicas then none
  else some (partitioned name rev servers replicaCount map maxReplicas)

/-- A simple table: each node is the primary of one partition. -/
def simple (name : String) (rev : Int) (servers : List String) : Except Malformed Table := do
  checkServers servers
  .ok { kind := .simple, name, rev, replicaCount := 0,
        partitions := (List.range servers.length).map fun index => ⟨some index, []⟩,
        registry := .ofAddresses servers }

/-! ## Looking up -/

def partitionCount (t : Table) : Nat := t.partitions.length

/-- The partition of a key: fifteen bits of the checksum of its bytes, modulo the number of
partitions as a word. -/
def partitionOf (t : Table) (key : String) : Nat :=
  (((Hash.crc32 key.toUTF8.data.toList >>> 16) &&& 0x7fff) % .ofNat t.partitionCount).toNat

def partition? (t : Table) (partition : Nat) : Option Partition := t.partitions[partition]?

/-- The primary of a partition, provided that it is active. -/
def primary? (t : Table) (partition : Nat) : Option Node :=
  (t.partition? partition).bind (·.primary) |>.bind t.registry.active?

/-- The node in a replica slot of a partition, provided that it is active. -/
def replica? (t : Table) (partition slot : Nat) : Option Node :=
  (t.partition? partition).bind (·.replicas[slot]?) |>.join |>.bind t.registry.active?

/-- The replica slots of a partition in order; `none` where no active node is assigned. -/
def replicas (t : Table) (partition : Nat) : List (Option Node) :=
  (List.range t.replicaCount).map (t.replica? partition)

/-- The replicas that the active nodes could hold beside a primary. -/
def availableReplicas (t : Table) : Nat := min (t.registry.activeCount - 1) t.replicaCount

/-- The same table with the first node of an address in another state; nothing if the address is
unknown. -/
def setNodeState? (t : Table) (address : String) (state : NodeState) : Option Table :=
  (t.registry.setState? address state).map fun registry => { t with registry }

end Table

end ClusterClient
