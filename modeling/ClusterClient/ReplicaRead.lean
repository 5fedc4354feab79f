import ClusterClient.Surroundings
/-!
# Replica reads

A replica read asks the primary and every replica slot of a key's partition at once and takes the
first success. Slots without an active node are passed over. A reply that says that the node does
not own the partition means that the table is out of date.
-/

namespace ClusterClient

/-- Why no copy of a key was read. -/
inductive ReplicaReadError where
  -- No copy has an active node.
  | noReplicaAvailable (key : String)
  | allFailed (key : String) (failed : Nat)
  | timeout (key : String) (limit : Duration)
  | noRoute (e : NoRoute)
  deriving DecidableEq, Repr

/-- What a message says of a failed replica read. -/
def ReplicaReadError.message : ReplicaReadError → String
  | noReplicaAvailable key => s!"no replica get for key {Text.quoted key} could be dispatched"
  | allFailed key failed => s!"key {Text.quoted key}: no read succeeded ({failed} failed)"
  | timeout key limit => s!"key {Text.quoted key}: replica read timed out after {limit.text}"
  | noRoute e => e.message

namespace ReplicaRead

/-- The reads of a partition: the replica slots in order and then the primary, so far as their nodes
are active. -/
def targets (t : Table) (partition : Nat) : List (ReadTarget × Node) :=
  let slots := (List.range t.replicaCount).map fun slot =>
    (ReadTarget.replica slot, t.replica? partition slot)
  (slots ++ [(ReadTarget.primary, t.primary? partition)]).filterMap fun (target, node) =>
    node.map (target, ·)

/-- How a set of reads ends: the answer, the ticks that it took, and whether the table is reported
as out of date. -/
structure Settled where
  answer : Except ReplicaReadError GetReply
  elapsed : Nat
  outdated : Bool
  deriving Repr

/-- The results that are there within a window, each with its tick, in the order in which they
arrive; of several at one tick the one that was asked for first comes first. -/
def arrivals (window : Nat) (reads : List (Delivery ReadResult)) : List (Nat × ReadResult) :=
  (reads.filterMap fun d => (d.arrival? window).map (·, d.result)).mergeSort
    fun a b => a.1 ≤ b.1

/-- A reply that the node does not own the partition. -/
def ReadResult.isStale : ReadResult → Bool
  | .reply r => r.status == .notMyPartition
  | _ => false

/-- The first success among results in order, with its tick and whether a stale reply came before
it; or whether there was a stale reply at all. -/
def firstSuccess (stale : Bool) : List (Nat × ReadResult) → Option (Nat × GetReply) × Bool
  | [] => (none, stale)
  | (tick, result) :: rest =>
    match result with
    | .reply r =>
      if r.isSuccess then (some (tick, r), stale)
      else firstSuccess (stale || ReadResult.isStale result) rest
    | _ => firstSuccess stale rest

/-- How reads of a key end that were all sent at one tick. A timeout reports nothing. -/
def settle (key : String) (limit : Duration) (reads : List (Delivery ReadResult)) : Settled :=
  let window := limit.ticks
  let arrived := arrivals window reads
  match firstSuccess false arrived with
  | (some (tick, r), stale) => ⟨.ok r, tick, stale⟩
  | (none, stale) =>
    if arrived.length = reads.length then
      ⟨.error (.allFailed key reads.length), (arrived.map (·.1)).foldl max 0, stale⟩
    else ⟨.error (.timeout key limit), window, false⟩

/-- Send each read in turn, without letting time pass. -/
def dispatch {W : Type} (s : Surroundings W) (w : W) (now : Nat) (key : String) (partition : Nat) :
    List (ReadTarget × Node) → W × List (Delivery ReadResult)
  | [] => (w, [])
  | (target, node) :: rest =>
    let (w, d) := s.get w now node target key partition
    let (w, ds) := dispatch s w now key partition rest
    (w, d :: ds)

/-- Read a key from whichever copy answers successfully first. The reads are sent as soon as the
reader waits; one that may not wait at all gives up before that. There is no answer if the
caller let go of the read. -/
def run {W : Type} (s : Surroundings W) (limit : Duration) (key : String) (w : W) (now : Nat) :
    Option (Except ReplicaReadError GetReply) × W :=
  match s.table w with
  | none => (some (.error (.noRoute ⟨key, none⟩)), w)
  | some t =>
    let partition := t.partitionOf key
    match targets t partition with
    | [] => (some (.error (.noReplicaAvailable key)), w)
    | reads =>
      if limit.ticks = 0 then (some (.error (.timeout key limit)), w)
      else
        let w := s.wait w now
        if s.isDropped w then (none, w)
        else
          let (w, deliveries) := dispatch s w now key partition reads
          let settled := settle key limit deliveries
          let w := s.wait w (now + settled.elapsed)
          if s.isDropped w then (none, w)
          else (some settled.answer, if settled.outdated then s.signalOutdated w else w)

end ReplicaRead

end ClusterClient
