import ClusterClient.Proofs.Topology.WellFormed
import ClusterClient.ReplicaRead
/-!
# Targets

A route lists nodes slot by slot, and a replica read lists them in another order. Both list the same
ones: the active nodes among those that the partition assigns.
-/

namespace ClusterClient

namespace Table

variable {t : Table} {partition : Nat}

/-- The places that a partition assigns, that of the primary first. -/
def owners (t : Table) (partition : Nat) : List Nat :=
  match t.partition? partition with
  | some p => p.owners
  | none => []

/-- The nodes that a partition assigns, that of the primary first. -/
def assigned (t : Table) (partition : Nat) : List Node :=
  (t.owners partition).filterMap t.registry.get?

/-- The active ones of the nodes that a partition assigns. -/
def reachable (t : Table) (partition : Nat) : List Node :=
  (t.owners partition).filterMap t.registry.active?

theorem reachable_eq_filter (t : Table) (partition : Nat) :
    t.reachable partition = (t.assigned partition).filter (·.isActive) := by
  rw [reachable, assigned, List.filter_filterMap]
  rfl

theorem mem_reachable_iff {n : Node} :
    n ∈ t.reachable partition ↔
      n.isActive = true ∧ ∃ i ∈ t.owners partition, t.registry.get? i = some n := by
  rw [reachable_eq_filter, List.mem_filter, assigned, List.mem_filterMap, and_comm]

/-! ## The slots of a partition -/

-- The replica slots of a partition, one for each that it has, hold the active ones of its replicas.
theorem replicas_eq_map {p : Partition} (hp : t.partition? partition = some p)
    (hslots : p.replicas.length = t.replicaCount) :
    t.replicas partition = p.replicas.map (·.bind t.registry.active?) := by
  rw [replicas, ← hslots]
  refine List.ext_getElem ?_ fun slot hslot hslot' => ?_
  · rw [List.length_map, List.length_range, List.length_map]
  · rw [List.length_map] at hslot'
    rw [List.getElem_map, List.getElem_range, List.getElem_map, replica?, hp, Option.bind_some,
      List.getElem?_eq_getElem hslot', Option.join_some]

-- What the slots of a partition hold, the primary's first, is what can be reached of it.
theorem reachable_eq (h : ∀ p ∈ t.partitions, p.replicas.length = t.replicaCount) :
    t.reachable partition =
      (t.primary? partition).toList ++ (t.replicas partition).filterMap id := by
  cases hp : t.partition? partition with
  | none =>
    have hnone : t.replica? partition = fun _ => none := by
      funext slot
      rw [replica?, hp]
      rfl
    rw [reachable, owners, primary?, replicas, hp, hnone, List.map_const',
      List.filterMap_replicate_of_none rfl]
    rfl
  | some p =>
    have hslots := h p (List.mem_of_getElem? hp)
    have hprimary : (t.primary? partition).toList =
        p.primary.toList.filterMap t.registry.active? := by
      rw [primary?, hp]
      show (p.primary.bind t.registry.active?).toList = _
      cases p.primary with
      | none => rfl
      | some i =>
        show (t.registry.active? i).toList = [i].filterMap t.registry.active?
        cases hactive : t.registry.active? i with
        | none => rw [List.filterMap_cons_none hactive]; rfl
        | some n => rw [List.filterMap_cons_some hactive]; rfl
    rw [reachable, owners, hp, hprimary, replicas_eq_map hp hslots, List.filterMap_map]
    show (p.primary.toList ++ p.replicas.filterMap id).filterMap t.registry.active? = _
    rw [List.filterMap_append, List.filterMap_filterMap]
    rfl

/-! ## Routes and reads -/

theorem route_eq_ok_iff {key : String} {r : Route} :
    t.route key = .ok r ↔ ∃ n, t.primary? (t.partitionOf key) = some n ∧
      r = ⟨t.partitionOf key, n, t.replicas (t.partitionOf key), t⟩ := by
  cases hn : t.primary? (t.partitionOf key) with
  | none => simp only [route, hn, reduceCtorEq, false_and, exists_false]
  | some n => simp only [route, hn, Except.ok.injEq, Option.some.injEq, exists_eq_left', eq_comm]

-- A route sends requests to what can be reached of the partition, the primary first.
theorem targets_eq_reachable {key : String} {r : Route}
    (h : ∀ p ∈ t.partitions, p.replicas.length = t.replicaCount) (hr : t.route key = .ok r) :
    r.targets = t.reachable (t.partitionOf key) := by
  obtain ⟨n, hn, rfl⟩ := route_eq_ok_iff.mp hr
  rw [reachable_eq h, hn]
  rfl

-- A replica read sends requests there as well, the primary last.
theorem readTargets_perm (h : ∀ p ∈ t.partitions, p.replicas.length = t.replicaCount) :
    ((ReplicaRead.targets t partition).map (·.2)).Perm (t.reachable partition) := by
  have htargets : (ReplicaRead.targets t partition).map (·.2) =
      (t.replicas partition).filterMap id ++ (t.primary? partition).toList := by
    have hsnd : ∀ (read : ReadTarget × Option Node → Option (ReadTarget × Node))
        (_ : ∀ slot, read slot = slot.2.map (slot.1, ·)) (slots : List (ReadTarget × Option Node)),
        (slots.filterMap read).map (·.2) = (slots.map (·.2)).filterMap id := by
      intro read hread slots
      rw [List.map_filterMap, List.filterMap_map]
      refine List.filterMap_congr fun slot _ => ?_
      rw [hread]
      exact (Option.map_map _ _ _).trans Option.map_id'
    rw [ReplicaRead.targets, hsnd _ fun _ => rfl, List.map_append, List.map_map,
      List.filterMap_append]
    rfl
  rw [htargets, reachable_eq h]
  exact List.perm_append_comm

end Table

end ClusterClient
