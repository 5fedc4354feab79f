import ClusterClient.Connection
import ClusterClient.Durability.Poll
import ClusterClient.Provider.Job
import ClusterClient.ReplicaRead
/-!
# Scripts and steps

A rehearsal runs a client against sources and nodes that follow scripts, on a clock that moves only
when everything waits. A script gives each request its delivery; the last entry is repeated for
ever. A rehearsal is a list of steps: instants, which take no time, and calls, which may, with
instants that happen while they are under way.
-/

namespace ClusterClient.Rehearsal

/-- The deliveries of the requests to one source or node, in order. -/
abbrev Script (α : Type) := List (Delivery α)

/-- The delivery of the next request, or `missing` if there is no script, and the script after it. -/
def Script.next {α : Type} (missing : α) : Script α → Delivery α × Script α
  | [] => (.now missing, [])
  | [last] => (last, [last])
  | d :: rest => (d, rest)

/-- What happens to a request for which there is no script. -/
def noScript : TransportError := .network "no script"

abbrev ObserveScript := Script (Except TransportError Observation)

abbrev GetScript := Script ReadResult

inductive Instant where
  | serve (source : Source) (script : Script FetchResult)
  | onObserve (node : String) (script : ObserveScript)
  | onGet (node : String) (script : GetScript)
  | topology
  | probe
  | route (key : String)
  | mark (node : String) (state : NodeState)
  | reconfigure (text : String)
  | signal (times : Nat)
  -- Subscribe to tables.
  | watch
  -- Whether there was a table since the last look.
  | changed
  | designDoc (name : String)
  | kind
  | settings
  | cancel (value : Bool)
  -- Let go of the cancel flag.
  | cancelDrop

inductive Call where
  | bootstrap
  | connect
  | advance (ticks : Nat)
  -- Wait for the refreshes that signal steps have started.
  | awaitRefresh
  | observe (key : String) (cas : UInt64)
  -- Confirm a mutation; `cancel` is the first value of a new cancel flag.
  | confirm (request : DurabilityRequest) (timeout : Option Duration) (cancel : Option Bool)
  | get (key : String)

inductive Step where
  | instant (i : Instant)
  -- A call, which may be dropped after some ticks, and instants by the ticks after which they
  -- happen.
  | call (c : Call) (dropAfter : Option Nat) (during : List (Nat × Instant))

inductive Answer where
  | none
  | flag (value : Bool)
  | flags (values : List Bool)
  | count (n : Nat)
  | table (t : Option Table)
  | probe (phase : Phase) (source : Option Source) (rev : Option Int)
  | route (r : Except NoRoute Route)
  -- A table taken over, and whether it is the one in force.
  | published (r : Except ConfigurationError (Table × Bool))
  | connected (r : Except ConfigurationError Connection)
  | rev (rev : Option Int)
  | changed (since : Bool) (rev : Option Int)
  | text (s : String)
  | kind (k : Option TableKind)
  | settings (s : Settings)
  | outcomes (r : Except NoRoute (List (String × Outcome)))
  | durable (r : Except DurabilityError Unit)
  | read (r : Except ReplicaReadError GetReply)
  -- The call was dropped.
  | dropped
  -- The call broke down.
  | crashed
  -- The step needs a connection and there is none.
  | notConnected

inductive Sent where
  | observe (node key : String) (cas : UInt64) (partition : Nat)
  | get (node key : String) (partition : Nat)
  | replicaGet (node key : String) (partition slot : Nat)

structure Record where
  answer : Answer
  -- The ticks that the call took.
  took : Nat
  -- The clock after the step.
  now : Nat
  -- Another table than before the step is in force.
  republished : Bool
  rev : Option Int
  -- Where the provider stands, if there is one.
  provider : Option (Phase × Option Source)
  -- The requests to the two sources.
  binaryFetches : Nat
  httpFetches : Nat
  -- The requests to nodes, in order.
  sent : List Sent
  -- The answers of the instants during the call.
  during : List Answer

end ClusterClient.Rehearsal
