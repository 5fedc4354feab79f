import ClusterClient.Provider.Acquisition
/-!
# The provider of the table

The provider keeps the table in force. Whoever uses a table keeps it as long as they like: taking
over another one replaces it as a whole. Tables come from a bootstrap, from refreshes in the
background and from descriptors that the cluster pushes; only a bootstrap may take over a table of a
lower revision.
-/

namespace ClusterClient

/-- Where a provider stands in its life. -/
inductive Phase where
  | uninitialized
  | bootstrapping
  | ready
  | refreshing
  -- No source gave a table while there was none.
  | failed
  deriving DecidableEq, Repr

/-- The table in force and what is known about it. -/
structure Provider where
  -- The most replicas that a descriptor may declare.
  maxReplicas : Nat
  -- The source that the transport in the first place reports itself to be.
  binaryReports : Source := .binary
  -- The source that the transport in the second place reports itself to be.
  httpReports : Source := .http
  table : Option Table := none
  -- How many tables have been published; subscribers wake when it grows.
  publications : Nat := 0
  phase : Phase := .uninitialized
  -- The source of the last table that was taken over.
  lastSource : Option Source := none
  -- A refresh is under way.
  isRefreshing : Bool := false
  -- A signal came while a refresh was under way.
  isPending : Bool := false
  deriving DecidableEq, Repr

namespace Provider

/-- The source that the transport in a place reports itself to be. -/
def reported (p : Provider) : Source → Source
  | .binary => p.binaryReports
  | .http => p.httpReports

def rev (p : Provider) : Option Int := p.table.map (·.rev)

def preferred (p : Provider) : Source := p.lastSource.getD .binary

def setTable (p : Provider) (t : Table) : Provider :=
  { p with table := some t, publications := p.publications + 1 }

/-- Take over a table whatever its revision. -/
def publish (p : Provider) (t : Table) (source : Source) : Provider :=
  { p.setTable t with lastSource := some source }

/-- Take over a table unless the one in force has a higher revision. -/
def publishIfNewer (p : Provider) (t : Table) (source : Source) :
    Except ConfigurationError Provider :=
  match p.table with
  | some current =>
    if t.rev < current.rev then .error (.stale t.rev current.rev) else .ok (p.publish t source)
  | none => .ok (p.publish t source)

/-- Take over a descriptor that the cluster pushed: the provider and the table, or why the table in
force stays. -/
def reconfigure (p : Provider) (text : String) : Except ConfigurationError (Provider × Table) :=
  match Table.parse text p.maxReplicas with
  | .error e => .error (.malformed e)
  | .ok t => (p.publishIfNewer t p.preferred).map (·, t)

/-- Publish the table with a node in another state; nothing if there is no table or no such node. -/
def markNode? (p : Provider) (address : String) (state : NodeState) : Option Provider :=
  (p.table.bind (·.setNodeState? address state)).map p.setTable

/-- Ask for a refresh. While one is under way a signal is only remembered; otherwise a refresh has
to be started, and the answer is true. -/
def signalOutdated (p : Provider) : Provider × Bool :=
  if p.isRefreshing then ({ p with isPending := true }, false)
  else ({ p with isRefreshing := true }, true)

end Provider

end ClusterClient
