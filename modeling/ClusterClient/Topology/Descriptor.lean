import ClusterClient.Json.Reader
import ClusterClient.Json.Record
import ClusterClient.Topology.Table
/-!
# Descriptors

A descriptor is the JSON text by which the cluster announces its topology. A descriptor with a
server map, or with the node locator `vbucket`, describes a partitioned table; any other describes a
simple table over its list of nodes.
-/

namespace ClusterClient

/-- A node of a descriptor: a host name, of which a port at the end is not used, and the port for
requests, if it is given. -/
structure NodeEntry where
  hostname : String
  direct : Option Nat
  deriving DecidableEq, Repr

/-- The partition map of a descriptor: one row a partition, the primary before the replicas. -/
structure ServerMap where
  hashAlgorithm : String
  numReplicas : Nat
  serverList : List String
  rows : List (List Int)
  deriving DecidableEq, Repr

structure Descriptor where
  name : String
  rev : Int
  nodeLocator : Option String
  nodes : List NodeEntry
  serverMap : Option ServerMap
  deriving DecidableEq, Repr

/-! ## Reading -/

def Json.int64? (j : Json) : Option Int := j.int? (-0x8000000000000000) 0x7fffffffffffffff

/-- The port for requests. The record has one field, which the positional notation has to give. -/
def NodeEntry.readPorts? (j : Json) : Option (Option Nat) := do
  let (written, fields) ← j.record? ["direct"]
  match written, fields with
  | .named, [none] => some none
  | _, [some direct] => direct.nullable? (·.nat? 65535)
  | _, _ => none

def NodeEntry.ofJson? (j : Json) : Option NodeEntry := do
  let (_, fields) ← j.record? ["hostname", "ports"]
  match fields with
  | [hostname, ports] =>
    let hostname ← Json.required? (·.text?) hostname
    let direct ← Json.orDefault? none readPorts? ports
    some { hostname, direct }
  | _ => none

def ServerMap.ofJson? (j : Json) : Option ServerMap := do
  let (_, fields) ← j.record? ["hashAlgorithm", "numReplicas", "serverList", "vBucketMap"]
  match fields with
  | [hashAlgorithm, numReplicas, serverList, rows] =>
    let hashAlgorithm ← Json.orDefault? "CRC" (·.text?) hashAlgorithm
    let numReplicas ← Json.orDefault? 0 (·.nat? 0xffffffffffffffff) numReplicas
    let serverList ← Json.required? (·.list? (·.text?)) serverList
    let rows ← Json.required? (·.list? (·.list? (·.int64?))) rows
    some { hashAlgorithm, numReplicas, serverList, rows }
  | _ => none

def Descriptor.ofJson? (j : Json) : Option Descriptor := do
  let (_, fields) ← j.record? ["name", "rev", "nodeLocator", "nodes", "vBucketServerMap"]
  match fields with
  | [name, rev, nodeLocator, nodes, serverMap] =>
    let name ← Json.orDefault? "" (·.text?) name
    let rev ← Json.orDefault? 0 (·.int64?) rev
    let nodeLocator ← Json.orDefault? none (·.nullable? (·.text?)) nodeLocator
    let nodes ← Json.orDefault? [] (·.list? NodeEntry.ofJson?) nodes
    let serverMap ← Json.orDefault? none (·.nullable? ServerMap.ofJson?) serverMap
    some { name, rev, nodeLocator, nodes, serverMap }
  | _ => none

def Descriptor.read? (text : String) : Option Descriptor :=
  (Json.read? text.toList).bind Descriptor.ofJson?

/-! ## The table of a descriptor -/

/-- The port for requests of a node that does not give one. -/
def NodeEntry.defaultPort : Nat := 11210

/-- The address for requests: the host without the port that the host name may end in. -/
def NodeEntry.address (n : NodeEntry) : String :=
  Address.ofHostPort (Address.host n.hostname) (n.direct.getD defaultPort)

/-- Equality up to the case of ASCII letters. -/
def equalsIgnoringCase (a b : String) : Bool :=
  a.toList.map Char.toLower == b.toList.map Char.toLower

def Descriptor.table (d : Descriptor) (maxReplicas : Nat) : Except Malformed Table :=
  match d.serverMap with
  | some map =>
    if equalsIgnoringCase map.hashAlgorithm "CRC" then
      Table.partitioned d.name d.rev map.serverList map.numReplicas map.rows maxReplicas
    else .error (.hashAlgorithm map.hashAlgorithm)
  | none =>
    if d.nodeLocator = some "vbucket" then .error (.partitionCount 0)
    else Table.simple d.name d.rev (d.nodes.map (·.address))

def Table.parse (text : String) (maxReplicas : Nat) : Except Malformed Table :=
  match Descriptor.read? text with
  | some d => d.table maxReplicas
  | none => .error .unreadable

end ClusterClient
