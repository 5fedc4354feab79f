import ClusterClient.Proofs.ReplicaRead.Race
import ClusterClient.Proofs.Trace
/-!
# The requests of a replica read

Here it is said once in which ways a replica read goes, with its trace, and that the requests it
sends go to each copy of the key with an active node.
-/

namespace ClusterClient

variable {W : Type}

/-! ## Copies of a key -/

namespace Table

variable {t : Table} {partition : Nat} {target : ReadTarget} {node : Node}

/-- An active node holds a copy of the keys of a partition, as its primary or in a replica slot. -/
inductive HasCopy (t : Table) (partition : Nat) : ReadTarget → Node → Prop where
  | primary {p : Partition} {i : Nat} {n : Node} (hp : t.partition? partition = some p)
      (hi : p.primary = some i) (hn : t.registry.get? i = some n) (hactive : n.isActive = true) :
      HasCopy t partition .primary n
  | replica {p : Partition} {slot i : Nat} {n : Node} (hp : t.partition? partition = some p)
      (hslot : slot < t.replicaCount) (hi : p.replicas[slot]? = some (some i))
      (hn : t.registry.get? i = some n) (hactive : n.isActive = true) :
      HasCopy t partition (.replica slot) n

theorem active?_eq_some_iff {i : Nat} :
    t.registry.active? i = some node ↔ t.registry.get? i = some node ∧ node.isActive = true :=
  Option.filter_eq_some_iff

theorem primary?_eq_some_iff : t.primary? partition = some node ↔
    t.HasCopy partition .primary node := by
  rw [primary?, Option.bind_eq_some_iff]
  constructor
  · rintro ⟨i, hprimary, hactive⟩
    obtain ⟨p, hp, hi⟩ := Option.bind_eq_some_iff.mp hprimary
    obtain ⟨hn, hactive⟩ := active?_eq_some_iff.mp hactive
    exact .primary hp hi hn hactive
  · intro h
    cases h with
    | primary hp hi hn hactive =>
      exact ⟨_, Option.bind_eq_some_iff.mpr ⟨_, hp, hi⟩, active?_eq_some_iff.mpr ⟨hn, hactive⟩⟩

theorem replica?_eq_some_iff {slot : Nat} :
    slot < t.replicaCount ∧ t.replica? partition slot = some node ↔
      t.HasCopy partition (.replica slot) node := by
  rw [replica?, Option.bind_eq_some_iff]
  constructor
  · rintro ⟨hslot, i, hreplica, hactive⟩
    obtain ⟨p, hp, hi⟩ := Option.bind_eq_some_iff.mp (Option.join_eq_some_iff.mp hreplica)
    obtain ⟨hn, hactive⟩ := active?_eq_some_iff.mp hactive
    exact .replica hp hslot hi hn hactive
  · intro h
    cases h with
    | replica hp hslot hi hn hactive =>
      exact ⟨hslot, _, Option.join_eq_some_iff.mpr (Option.bind_eq_some_iff.mpr ⟨_, hp, hi⟩),
        active?_eq_some_iff.mpr ⟨hn, hactive⟩⟩

end Table

namespace ReplicaRead

variable {t : Table} {partition : Nat} {target : ReadTarget} {node : Node}

theorem mem_targets_iff :
    (target, node) ∈ targets t partition ↔ t.HasCopy partition target node := by
  rw [targets, List.mem_filterMap]
  constructor
  · rintro ⟨⟨target', node'⟩, hmem, hnode⟩
    obtain ⟨n, rfl, heq⟩ := Option.map_eq_some_iff.mp hnode
    cases heq
    rcases List.mem_append.mp hmem with hmem | hmem
    · obtain ⟨slot, hslot, heq⟩ := List.mem_map.mp hmem
      obtain ⟨rfl, hreplica⟩ := Prod.mk.inj heq
      exact Table.replica?_eq_some_iff.mp ⟨List.mem_range.mp hslot, hreplica⟩
    · obtain ⟨rfl, hprimary⟩ := Prod.mk.inj (List.mem_singleton.mp hmem)
      exact Table.primary?_eq_some_iff.mp hprimary.symm
  · intro hcopy
    refine ⟨(target, some node), ?_, rfl⟩
    rw [List.mem_append, List.mem_map, List.mem_singleton]
    cases target with
    | primary => exact .inr (Prod.mk.injEq .. ▸ ⟨rfl, (Table.primary?_eq_some_iff.mpr hcopy).symm⟩)
    | replica slot =>
      obtain ⟨hslot, hreplica⟩ := Table.replica?_eq_some_iff.mpr hcopy
      exact .inl ⟨slot, List.mem_range.mpr hslot, by rw [hreplica]⟩

/-- Reads of a key are sent at a tick to the copies that a table has of it: one to each that has an
active node, and no others. -/
structure AsksEachCopy (t : Table) (key : String) (now : Nat) (sent : List SentRead) : Prop where
  once : (sent.map (·.target)).Nodup
  copies : ∀ target node, (∃ x ∈ sent, x.target = target ∧ x.node = node) ↔
    t.HasCopy (t.partitionOf key) target node
  alike : ∀ x ∈ sent, x.tick = now ∧ x.key = key ∧ x.partition = t.partitionOf key

/-! ## Sending the reads -/

/-- Reads with what comes of them. -/
def sentReads (now : Nat) (key : String) (partition : Nat) (reads : List (ReadTarget × Node))
    (deliveries : List (Delivery ReadResult)) : List SentRead :=
  (reads.zip deliveries).map fun x => ⟨now, x.1.2, x.1.1, key, partition, x.2⟩

theorem length_dispatch (s : Surroundings W) (w : W) (now : Nat) (key : String) (partition : Nat)
    (reads : List (ReadTarget × Node)) :
    (dispatch s w now key partition reads).2.length = reads.length := by
  induction reads generalizing w with
  | nil => rfl
  | cons read rest ih => exact congrArg (· + 1) (ih _)

theorem dispatch_traced (s : Surroundings W) (w : W) (trace : Trace) (now : Nat) (key : String)
    (partition : Nat) (reads : List (ReadTarget × Node)) :
    dispatch s.traced (w, trace) now key partition reads =
      let result := dispatch s w now key partition reads
      ((result.1, { trace with
        requests := trace.requests ++ (sentReads now key partition reads result.2).map .read }),
        result.2) := by
  induction reads generalizing w trace with
  | nil =>
    simp only [dispatch, sentReads, List.zip_nil_left, List.map_nil, List.append_nil]
  | cons read rest ih =>
    obtain ⟨target, node⟩ := read
    simp only [dispatch, Surroundings.traced, sentReads, List.zip_cons_cons, List.map_cons] at ih ⊢
    rw [ih, List.append_assoc, List.singleton_append]

variable {now : Nat} {key : String} {reads : List (ReadTarget × Node)}
  {deliveries : List (Delivery ReadResult)}

theorem deliveries_sentReads (h : deliveries.length = reads.length) :
    (sentReads now key partition reads deliveries).map (·.delivery) = deliveries := by
  rw [sentReads, List.map_map]
  exact List.map_snd_zip (Nat.le_of_eq h)

theorem node_sentReads (h : deliveries.length = reads.length) :
    (sentReads now key partition reads deliveries).map (·.node) = reads.map (·.2) := by
  have hreads := congrArg (List.map Prod.snd) (List.map_fst_zip (Nat.le_of_eq h.symm))
  rw [List.map_map] at hreads
  rw [sentReads, List.map_map]
  exact hreads

/-- The reads that a call for a key sends at a tick, and the world that they leave. -/
def dispatched (s : Surroundings W) (w : W) (now : Nat) (t : Table) (key : String) :
    W × List SentRead :=
  let reads := targets t (t.partitionOf key)
  let (v, deliveries) := dispatch s (s.wait w now) now key (t.partitionOf key) reads
  (v, sentReads now key (t.partitionOf key) reads deliveries)

/-- The ways in which a read of a key goes that starts with a table: its answer, the world that it
leaves, and what it has done. -/
inductive Course (s : Surroundings W) (limit : Duration) (key : String) (w : W) (now : Nat)
    (t : Table) : Option (Except ReplicaReadError GetReply) → W → Trace → Prop where
  | noCopy (hreads : targets t (t.partitionOf key) = []) :
      Course s limit key w now t (some (.error (.noReplicaAvailable key))) w (.start now)
  | noTime (hreads : targets t (t.partitionOf key) ≠ []) (hlimit : limit.ticks = 0) :
      Course s limit key w now t (some (.error (.timeout key limit))) w (.start now)
  | droppedBefore (hreads : targets t (t.partitionOf key) ≠ []) (hlimit : limit.ticks ≠ 0)
      (hdropped : s.isDropped (s.wait w now) = true) :
      Course s limit key w now t none (s.wait w now) (.start now)
  | droppedAfter {v : W} {sent : List SentRead} {settled : Settled}
      (hreads : targets t (t.partitionOf key) ≠ []) (hlimit : limit.ticks ≠ 0)
      (hsent : dispatched s w now t key = (v, sent))
      (hsettled : settle key limit (sent.map (·.delivery)) = settled)
      (hdropped : s.isDropped (s.wait v (now + settled.elapsed)) = true) :
      Course s limit key w now t none (s.wait v (now + settled.elapsed))
        ⟨sent.map .read, 0, now + settled.elapsed⟩
  | settled {v : W} {sent : List SentRead} {settled : Settled}
      (hreads : targets t (t.partitionOf key) ≠ []) (hlimit : limit.ticks ≠ 0)
      (hsent : dispatched s w now t key = (v, sent))
      (hsettled : settle key limit (sent.map (·.delivery)) = settled)
      (hkept : s.isDropped (s.wait v (now + settled.elapsed)) = false) :
      Course s limit key w now t (some settled.answer)
        (if settled.outdated then s.signalOutdated (s.wait v (now + settled.elapsed))
          else s.wait v (now + settled.elapsed))
        ⟨sent.map .read, if settled.outdated then 1 else 0, now + settled.elapsed⟩

theorem node_of_dispatched {s : Surroundings W} {w v : W} {sent : List SentRead}
    (h : dispatched s w now t key = (v, sent)) :
    sent.map (·.node) = (targets t (t.partitionOf key)).map (·.2) := by
  obtain rfl : (dispatched s w now t key).2 = sent := congrArg Prod.snd h
  exact node_sentReads (length_dispatch ..)

-- A read asks the targets of the partition, each once, or it asks nobody.
theorem Course.asked {s : Surroundings W} {limit : Duration} {w v : W} {trace : Trace}
    {answer : Option (Except ReplicaReadError GetReply)}
    (h : Course s limit key w now t answer v trace) :
    trace.asked = [] ∨ trace.asked = (targets t (t.partitionOf key)).map (·.2) := by
  cases h with
  | noCopy => exact .inl rfl
  | noTime => exact .inl rfl
  | droppedBefore => exact .inl rfl
  | droppedAfter _ _ hsent => exact .inr ((Trace.asked_reads ..).trans (node_of_dispatched hsent))
  | settled _ _ hsent => exact .inr ((Trace.asked_reads ..).trans (node_of_dispatched hsent))

theorem dispatched_traced (s : Surroundings W) (w : W) (now : Nat) (t : Table) (key : String) :
    dispatched s.traced (w, .start now) now t key =
      (((dispatched s w now t key).1, ⟨(dispatched s w now t key).2.map .read, 0, now⟩),
        (dispatched s w now t key).2) := by
  simp only [dispatched, Surroundings.wait_traced, dispatch_traced, Trace.start, List.nil_append]

theorem run_of_targets (s : Surroundings W) {limit : Duration} {w : W} (now : Nat)
    (ht : s.table w = some t) (hreads : targets t (t.partitionOf key) ≠ [])
    (hlimit : limit.ticks ≠ 0) :
    run s limit key w now =
      if s.isDropped (s.wait w now) then (none, s.wait w now)
      else
        let sent := dispatched s w now t key
        let settled := settle key limit (sent.2.map (·.delivery))
        let v := s.wait sent.1 (now + settled.elapsed)
        if s.isDropped v then (none, v)
        else (some settled.answer, if settled.outdated then s.signalOutdated v else v) := by
  simp only [run, ht, if_neg hlimit, dispatched, deliveries_sentReads (length_dispatch ..)]

-- Keeping a trace changes nothing in how a read goes, and shows what it has done.
theorem run_traced (s : Surroundings W) (limit : Duration) (key : String) (w : W) (now : Nat)
    (ht : s.table w = some t) : ∃ answer v trace,
      run s.traced limit key (w, .start now) now = (answer, v, trace) ∧
        run s limit key w now = (answer, v) ∧ Course s limit key w now t answer v trace := by
  by_cases hreads : targets t (t.partitionOf key) = []
  · refine ⟨_, _, _, ?_, ?_, .noCopy hreads⟩
    · simp only [run, Surroundings.table_traced, ht, hreads]
    · simp only [run, ht, hreads]
  by_cases hlimit : limit.ticks = 0
  · refine ⟨_, _, _, ?_, ?_, .noTime hreads hlimit⟩
    · simp only [run, Surroundings.table_traced, ht, if_pos hlimit]
    · simp only [run, ht, if_pos hlimit]
  have htraced := run_of_targets s.traced now (w := (w, .start now)) ht hreads hlimit
  have hrun := run_of_targets s now ht hreads hlimit
  simp only [dispatched_traced, Surroundings.wait_traced, Surroundings.isDropped_traced,
    Surroundings.signalOutdated_traced] at htraced hrun
  cases hbefore : s.isDropped (s.wait w now) with
  | true =>
    rw [hbefore, if_pos rfl] at htraced hrun
    exact ⟨_, _, _, htraced, hrun, .droppedBefore hreads hlimit hbefore⟩
  | false =>
    rw [hbefore, if_neg Bool.false_ne_true] at htraced hrun
    cases hafter : s.isDropped (s.wait (dispatched s w now t key).1 (now + (settle key limit
        ((dispatched s w now t key).2.map (·.delivery))).elapsed)) with
    | true =>
      rw [hafter, if_pos rfl] at htraced hrun
      exact ⟨_, _, _, htraced, hrun, .droppedAfter hreads hlimit rfl rfl hafter⟩
    | false =>
      rw [hafter, if_neg Bool.false_ne_true] at htraced hrun
      refine ⟨_, _, _, htraced.trans ?_, hrun, .settled hreads hlimit rfl rfl hafter⟩
      split <;> rfl

end ReplicaRead

end ClusterClient
