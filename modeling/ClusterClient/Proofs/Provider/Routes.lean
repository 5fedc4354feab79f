import ClusterClient.Proofs.Provider.Published
import ClusterClient.Proofs.Topology.Targets
import Mathlib.Data.List.Perm.Subperm
/-!
# Routes of a provider's table

A key has a route unless its partition has no primary that can be asked. The route lists each node
once, and never more replicas than the active nodes could hold.
-/

namespace ClusterClient

namespace Table

variable {t : Table} {key : String} {maxReplicas : Nat}

/-- The partition of a key has no primary, or one that is not active. -/
inductive NoPrimary (t : Table) (key : String) : Prop where
  | unassigned {p : Partition} (hp : t.partition? (t.partitionOf key) = some p)
      (hnone : p.primary = none) : NoPrimary t key
  | notActive {p : Partition} {i : Nat} {n : Node}
      (hp : t.partition? (t.partitionOf key) = some p) (hi : p.primary = some i)
      (hn : t.registry.get? i = some n) (hstate : n.state ≠ .active) : NoPrimary t key

/-- A route leads to the primary of the key's partition and to the replicas that are assigned and
active, slot by slot. Its targets are active, none of them twice, and not more than the active nodes
and the replica count allow for. -/
structure Routes (t : Table) (key : String) (r : Route) : Prop where
  table : r.table = t
  partition : r.partition = t.partitionOf key
  primary : ∃ p i, t.partition? (t.partitionOf key) = some p ∧ p.primary = some i ∧
    t.registry.get? i = some r.primary ∧ r.primary.state = .active
  length_replicas : r.replicas.length = t.replicaCount
  slots : ∃ p, t.partition? (t.partitionOf key) = some p ∧ ∀ slot < t.replicaCount, ∀ n,
    r.replicas[slot]? = some (some n) ↔ ∃ i, p.replicas[slot]? = some (some i) ∧
      t.registry.get? i = some n ∧ n.state = .active
  targets : r.targets = r.primary :: r.replicas.filterMap id
  active : ∀ n ∈ r.targets, n.state = .active
  distinct : (r.targets.map (·.index)).Nodup
  bounded : r.targets.length - 1 ≤ t.availableReplicas

/-! ## Looking up -/

-- A table with a partition has one for each key, however many there are: the fifteen bits of the
-- checksum stay below every number of partitions that no word holds.
theorem partitionOf_lt_partitionCount (hpos : 0 < t.partitionCount) (key : String) :
    t.partitionOf key < t.partitionCount := by
  by_cases hcount : t.partitionCount < UInt32.size
  · exact partitionOf_lt hpos hcount key
  · have hbits : t.partitionOf key ≤ 0x7fff := by
      rw [partitionOf, UInt32.toNat_mod]
      refine (Nat.mod_le _ _).trans ?_
      rw [UInt32.toNat_and]
      exact Nat.and_le_right
    have hsize : UInt32.size = 4294967296 := rfl
    omega

theorem WellFormed.exists_partition (ht : t.WellFormed maxReplicas) (key : String) :
    ∃ p, t.partition? (t.partitionOf key) = some p :=
  ⟨_, List.getElem?_eq_getElem (partitionOf_lt_partitionCount ht.hasPartition key)⟩

theorem isActive_iff (n : Node) : n.isActive = true ↔ n.state = .active := by
  rw [Node.isActive, beq_iff_eq]

theorem active?_eq_some (r : Registry) (i : Nat) (n : Node) :
    r.active? i = some n ↔ r.get? i = some n ∧ n.state = .active := by
  rw [Registry.active?, Option.filter_eq_some_iff, isActive_iff]

theorem WellFormed.get?_of_owner (ht : t.WellFormed maxReplicas) {partition i : Nat}
    {p : Partition} (hp : t.partition? partition = some p) (hi : i ∈ p.owners) :
    ∃ n, t.registry.get? i = some n :=
  ⟨_, List.getElem?_eq_getElem (ht.owners_lt p (List.mem_of_getElem? hp) i hi)⟩

theorem WellFormed.primary?_eq_none_iff (ht : t.WellFormed maxReplicas) :
    t.primary? (t.partitionOf key) = none ↔ t.NoPrimary key := by
  obtain ⟨p, hp⟩ := ht.exists_partition key
  rw [primary?, hp, Option.bind_some]
  constructor
  · intro h
    cases hi : p.primary with
    | none => exact .unassigned hp hi
    | some i =>
      have howner : i ∈ p.owners := by
        rw [Partition.owners, hi]
        exact List.mem_append_left _ (List.mem_singleton_self i)
      obtain ⟨n, hn⟩ := ht.get?_of_owner hp howner
      refine .notActive hp hi hn fun hstate => ?_
      rw [hi, Option.bind_some, (active?_eq_some _ i n).mpr ⟨hn, hstate⟩] at h
      cases h
  · intro h
    cases h with
    | unassigned hp' hnone =>
      cases hp.symm.trans hp'
      rw [hnone, Option.bind_none]
    | @notActive _ i n hp' hi hn hstate =>
      cases hp.symm.trans hp'
      rw [hi, Option.bind_some, Option.eq_none_iff_forall_ne_some]
      intro m hm
      obtain ⟨hget, hactive⟩ := (active?_eq_some _ i m).mp hm
      cases hn.symm.trans hget
      exact hstate hactive

/-! ## Targets -/

-- The places of the nodes that can be reached are those that are assigned and active.
theorem WellFormed.map_index_reachable (ht : t.WellFormed maxReplicas) (partition : Nat) :
    (t.reachable partition).map (·.index) =
      (t.owners partition).filter fun i => (t.registry.active? i).isSome := by
  rw [reachable, List.map_filterMap, ← List.filterMap_eq_filter]
  refine List.filterMap_congr fun i _ => ?_
  cases h : t.registry.active? i with
  | none =>
    rw [Option.map_none, eq_comm, Option.guard_eq_none_iff, h]
    rfl
  | some n =>
    have hindex := ht.index_eq i n ((active?_eq_some _ i n).mp h).1
    rw [Option.map_some, hindex, eq_comm, Option.guard_eq_some_iff, h]
    exact ⟨rfl, rfl⟩

theorem WellFormed.nodup_index_reachable (ht : t.WellFormed maxReplicas) (partition : Nat) :
    ((t.reachable partition).map (·.index)).Nodup := by
  rw [ht.map_index_reachable]
  refine List.Nodup.filter _ ?_
  rw [owners]
  cases hp : t.partition? partition with
  | none => exact List.nodup_nil
  | some p => exact ht.owners_nodup p (List.mem_of_getElem? hp)

-- Each of them is a node of its own among the active ones.
theorem WellFormed.length_reachable_le (ht : t.WellFormed maxReplicas) (partition : Nat) :
    (t.reachable partition).length ≤ t.registry.activeCount := by
  have hsubset : t.reachable partition ⊆ t.registry.nodes.filter (·.isActive) := by
    intro n hn
    obtain ⟨hactive, i, -, hi⟩ := mem_reachable_iff.mp hn
    exact List.mem_filter.mpr ⟨List.mem_of_getElem? hi, hactive⟩
  have hnodup := (ht.nodup_index_reachable partition).of_map
  rw [Registry.activeCount, List.countP_eq_length_filter]
  exact (hnodup.subperm hsubset).length_le

theorem WellFormed.routes (ht : t.WellFormed maxReplicas) {r : Route}
    (hr : t.route key = .ok r) : t.Routes key r := by
  have htargets := targets_eq_reachable ht.slots hr
  obtain ⟨n, hn, rfl⟩ := route_eq_ok_iff.mp hr
  obtain ⟨p, hp⟩ := ht.exists_partition key
  have hslots := ht.slots p (List.mem_of_getElem? hp)
  have hlength : (t.replicas (t.partitionOf key)).length = t.replicaCount := by
    rw [replicas, List.length_map, List.length_range]
  refine ⟨rfl, rfl, ?_, hlength, ⟨p, hp, fun slot hslot m => ?_⟩, rfl, fun m hm => ?_, ?_, ?_⟩
  · rw [primary?, hp, Option.bind_some] at hn
    obtain ⟨i, hi, hactive⟩ := Option.bind_eq_some_iff.mp hn
    obtain ⟨hget, hstate⟩ := (active?_eq_some _ i n).mp hactive
    exact ⟨p, i, hp, hi, hget, hstate⟩
  · rw [← hslots] at hslot
    show (t.replicas (t.partitionOf key))[slot]? = some (some m) ↔ _
    rw [replicas_eq_map hp hslots, List.getElem?_map, List.getElem?_eq_getElem hslot,
      Option.map_some, Option.some.injEq, Option.bind_eq_some_iff]
    simp only [Option.some.injEq, active?_eq_some]
  · rw [htargets, mem_reachable_iff] at hm
    exact (isActive_iff m).mp hm.1
  · rw [htargets]
    exact ht.nodup_index_reachable _
  · have hactive := ht.length_reachable_le (t.partitionOf key)
    have hfilter := List.length_filterMap_le id (t.replicas (t.partitionOf key))
    rw [← htargets, Route.targets, List.length_cons] at hactive
    rw [Route.targets, List.length_cons, availableReplicas]
    refine Nat.le_min.mpr ⟨?_, ?_⟩
    · exact Nat.sub_le_sub_right hactive 1
    · rw [Nat.add_sub_cancel, ← hlength]
      exact hfilter

end Table

namespace System

/-- Whatever has happened to a provider, a key has no route exactly while no table is published or
the primary of its partition is missing or not active; otherwise it has the route that its partition
and the states of the nodes lay down. -/
theorem route_unless_no_primary (maxReplicas : Nat) (binaryReports httpReports : Source)
    (as : List Action) (key : String) :
    let table := ((start maxReplicas binaryReports httpReports).run as).provider.table
    (∀ e, route table key = .error e ↔
        (table = none ∧ e = ⟨key, none⟩) ∨
          ∃ t, table = some t ∧ t.NoPrimary key ∧ e = ⟨key, some (t.partitionOf key)⟩) ∧
      ∀ r, route table key = .ok r → ∃ t, table = some t ∧ t.Routes key r := by
  intro table
  have hserves := servesWell_run (servesWell_start maxReplicas binaryReports httpReports) as
  cases htable : table with
  | none =>
    refine ⟨fun e => ?_, fun r hr => by cases hr⟩
    rw [route]
    simp only [Except.error.injEq, true_and, reduceCtorEq, false_and, exists_false, or_false,
      eq_comm]
  | some t =>
    have ht := hserves.table t htable
    refine ⟨fun e => ?_, fun r hr => ⟨t, rfl, ht.routes hr⟩⟩
    simp only [reduceCtorEq, false_and, Option.some.injEq, exists_eq_left', false_or,
      ← ht.primary?_eq_none_iff]
    rw [route, Table.route]
    cases hn : t.primary? (t.partitionOf key) with
    | none => simp only [Except.error.injEq, true_and, eq_comm]
    | some n => simp only [reduceCtorEq, false_and]

-- The replica of the pair is suspected, so its slot stays empty and only the primary is a target.
theorem route_unless_no_primary_pair :
    (route (some pairTable) "k" = .ok ⟨0, ⟨0, "a:1", .active⟩, [none], pairTable⟩) ∧
      pairTable.Routes "k" ⟨0, ⟨0, "a:1", .active⟩, [none], pairTable⟩ := by
  have htable : ((start 3 .binary .http).run pairRun).provider.table = some pairTable := by
    decide +kernel
  have hroute : route (some pairTable) "k" = .ok ⟨0, ⟨0, "a:1", .active⟩, [none], pairTable⟩ := by
    decide +kernel
  obtain ⟨t, ht, hroutes⟩ :=
    (route_unless_no_primary 3 .binary .http pairRun "k").2 _ (by rw [htable]; exact hroute)
  cases htable.symm.trans ht
  exact ⟨hroute, hroutes⟩

end System

end ClusterClient
