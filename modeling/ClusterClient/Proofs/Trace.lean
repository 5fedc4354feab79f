import ClusterClient.Proofs.Durability.Proving
/-!
# What an operation does

Surroundings can keep a trace of what an operation does to them: the requests that it sends to
nodes, its reports that the table is out of date, and how far it waits. Who was asked is read off
the trace. An observe round sends one request to each target of its route.
-/

namespace ClusterClient

variable {W : Type}

/-- A read that was sent to a node, with what comes of it. -/
structure SentRead where
  tick : Nat
  node : Node
  target : ReadTarget
  key : String
  partition : Nat
  delivery : Delivery ReadResult

/-- A request that was sent to a node, with what comes of it. -/
inductive Request where
  | observe (tick : Nat) (node : Node) (key : String) (cas : UInt64) (partition : Nat)
      (delivery : Delivery (Except TransportError Observation))
  | read (x : SentRead)

namespace Request

def node : Request → Node
  | observe _ node _ _ _ _ => node
  | read x => x.node

def read? : Request → Option SentRead
  | observe .. => none
  | read x => some x

end Request

/-- What an operation has done: the requests that it has sent, in order, how often it has reported
the table as out of date, and the tick up to which it has waited. -/
structure Trace where
  requests : List Request
  signals : Nat
  clock : Nat

namespace Trace

/-- Nothing done yet. -/
def start (now : Nat) : Trace := ⟨[], 0, now⟩

/-- The nodes that were asked, in order. -/
def asked (trace : Trace) : List Node := trace.requests.map (·.node)

/-- The reads that were sent, in order. -/
def sent (trace : Trace) : List SentRead := trace.requests.filterMap (·.read?)

theorem asked_reads (sent : List SentRead) (signals clock : Nat) :
    (Trace.mk (sent.map .read) signals clock).asked = sent.map (·.node) := by
  rw [asked, List.map_map]
  rfl

@[simp] theorem sent_reads (sent : List SentRead) (signals clock : Nat) :
    (Trace.mk (sent.map .read) signals clock).sent = sent := by
  rw [Trace.sent, List.filterMap_map]
  exact List.filterMap_some

end Trace

/-- The same surroundings, which also keep a trace of what is done to them. -/
def Surroundings.traced (s : Surroundings W) : Surroundings (W × Trace) where
  table w := s.table w.1
  observe w now node key cas partition :=
    let (v, d) := s.observe w.1 now node key cas partition
    ((v, { w.2 with requests := w.2.requests ++ [.observe now node key cas partition d] }), d)
  get w now node target key partition :=
    let (v, d) := s.get w.1 now node target key partition
    ((v, { w.2 with
      requests := w.2.requests ++ [.read ⟨now, node, target, key, partition, d⟩] }), d)
  signalOutdated w := (s.signalOutdated w.1, { w.2 with signals := w.2.signals + 1 })
  wait w tick := (s.wait w.1 tick, { w.2 with clock := tick })
  isDropped w := s.isDropped w.1

section Traced

variable (s : Surroundings W) (w : W) (trace : Trace)

@[simp] theorem Surroundings.table_traced : s.traced.table (w, trace) = s.table w := rfl

@[simp] theorem Surroundings.wait_traced (tick : Nat) :
    s.traced.wait (w, trace) tick = (s.wait w tick, { trace with clock := tick }) := rfl

@[simp] theorem Surroundings.isDropped_traced : s.traced.isDropped (w, trace) = s.isDropped w := rfl

@[simp] theorem Surroundings.signalOutdated_traced : s.traced.signalOutdated (w, trace) =
    (s.signalOutdated w, { trace with signals := trace.signals + 1 }) := rfl

end Traced

/-! ## Rounds -/

namespace Round

/-- Observes of a key at a tick, with what comes of them. -/
def observes (now : Nat) (key : String) (cas : UInt64) (partition : Nat) (nodes : List Node)
    (deliveries : List (Delivery (Except TransportError Observation))) : List Request :=
  (nodes.zip deliveries).map fun x => .observe now x.1 key cas partition x.2

/-- The requests of a round: an observe to each target of its route. -/
def requests (r : Round) (key : String) (cas : UInt64) : List Request :=
  observes r.started key cas r.route.partition r.route.targets r.deliveries

theorem broadcast_traced (s : Surroundings W) (w : W) (trace : Trace) (now : Nat) (key : String)
    (cas : UInt64) (partition : Nat) (nodes : List Node) :
    broadcast s.traced (w, trace) now key cas partition nodes =
      let result := broadcast s w now key cas partition nodes
      ((result.1, { trace with
        requests := trace.requests ++ observes now key cas partition nodes result.2 }),
        result.2) := by
  induction nodes generalizing w trace with
  | nil =>
    simp only [broadcast, observes, List.zip_nil_left, List.map_nil, List.append_nil]
  | cons node rest ih =>
    simp only [broadcast, Surroundings.traced, observes, List.zip_cons_cons, List.map_cons] at ih ⊢
    rw [ih, List.append_assoc, List.singleton_append]

-- A round that begins where the clock stands sends its requests, and waits until it has ended.
theorem run_traced (s : Surroundings W) (w : W) (requests : List Request) (signals now window : Nat)
    (key : String) (cas : UInt64) (r : Route) :
    let round := (run s w now window key cas r).2
    run s.traced (w, ⟨requests, signals, now⟩) now window key cas r =
      (((run s w now window key cas r).1,
        ⟨requests ++ round.requests key cas, signals, round.ended⟩), round) := by
  intro round
  have hbroadcast :=
    broadcast_traced s w ⟨requests, signals, now⟩ now key cas r.partition r.targets
  rcases hsent : broadcast s w now key cas r.partition r.targets with ⟨v, deliveries⟩
  rw [hsent] at hbroadcast
  simp only [round, run, hbroadcast, hsent]
  split
  · rename_i hended
    -- the clock stands at the end of a round that has ended at once
    have hclock : ended ⟨now, window, r, deliveries⟩ = now :=
      Nat.le_antisymm hended (Nat.le_add_right now _)
    rw [hclock]
    rfl
  · rfl

-- The requests of a round go to the targets of its route, in order.
theorem node_requests {r : Round} (h : r.IsComplete) (key : String) (cas : UInt64) :
    (r.requests key cas).map (·.node) = r.route.targets := by
  rw [requests, observes, List.map_map]
  exact List.map_fst_zip (Nat.le_of_eq h.symm)

theorem asked_run_traced (s : Surroundings W) (w : W) (now window : Nat) (key : String)
    (cas : UInt64) (r : Route) :
    (run s.traced (w, .start now) now window key cas r).1.2.asked = r.targets := by
  rw [Trace.start, run_traced]
  exact node_requests (isComplete_run s w now window key cas r) key cas

end Round

end ClusterClient
