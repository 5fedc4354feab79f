import ClusterClient.Topology.Table
/-!
# Routes

Where the requests for one key go: the primary of its partition, and the replicas that can be
reached. A route is taken from one table and not kept beyond one operation.
-/

namespace ClusterClient

/-- No primary can be asked for a key: `partition` is `none` while there is no table. -/
structure NoRoute where
  key : String
  partition : Option Nat
  deriving DecidableEq, Repr

/-- What a message says of a missing route. -/
def NoRoute.message (e : NoRoute) : String :=
  let partition := match e.partition with
    | some p => s!"Some({p})"
    | none => "None"
  s!"no route available for key {Text.quoted e.key} (partition {partition})"

structure Route where
  partition : Nat
  primary : Node
  -- The replica slots in order; `none` where no node can be reached.
  replicas : List (Option Node)
  -- The table that the route was taken from.
  table : Table
  deriving DecidableEq, Repr

/-- The primary, then every replica that can be reached. -/
def Route.targets (r : Route) : List Node := r.primary :: r.replicas.filterMap id

/-- The route of a key in a table. -/
def Table.route (t : Table) (key : String) : Except NoRoute Route :=
  let partition := t.partitionOf key
  match t.primary? partition with
  | some primary => .ok { partition, primary, replicas := t.replicas partition, table := t }
  | none => .error ⟨key, some partition⟩

/-- The route of a key in the table in force, if there is one. -/
def route (table : Option Table) (key : String) : Except NoRoute Route :=
  match table with
  | some t => t.route key
  | none => .error ⟨key, none⟩

end ClusterClient
