import ClusterClient.Proofs.Topology.Targets
/-!
# Addresses of a partition

A partition names places in the list of nodes, and requests go to addresses. No row names one place
twice, but the list may hold one address at two places. Whether a route lists an address twice is
decided by the addresses that its partition assigns.
-/

namespace ClusterClient

namespace Table

variable {t u : Table} {partition : Nat}

/-- A table that servers and a partition map give, or a text. -/
inductive Accepted (t : Table) : Prop where
  | partitioned {name : String} {rev : Int} {servers : List String} {replicaCount : Nat}
      {map : List (List Int)} {maxReplicas : Nat}
      (h : partitioned name rev servers replicaCount map maxReplicas = .ok t) : Accepted t
  | parsed {text : String} {maxReplicas : Nat} (h : parse text maxReplicas = .ok t) : Accepted t

/-! ## New tables -/

theorem Accepted.wellFormed (h : t.Accepted) : ∃ maxReplicas, t.WellFormed maxReplicas := by
  cases h with
  | partitioned h => exact ⟨_, wellFormed_of_partitioned h⟩
  | parsed h => exact ⟨_, wellFormed_of_parse h⟩

theorem Accepted.slots (h : t.Accepted) :
    ∀ p ∈ t.partitions, p.replicas.length = t.replicaCount := by
  obtain ⟨maxReplicas, hwell⟩ := h.wellFormed
  exact hwell.slots

theorem registry_of_partitioned {name : String} {rev : Int} {servers : List String}
    {replicaCount maxReplicas : Nat} {map : List (List Int)}
    (h : partitioned name rev servers replicaCount map maxReplicas = .ok t) :
    t.registry = .ofAddresses servers := by
  unfold partitioned at h
  obtain ⟨⟨⟩, -, h⟩ := (Checked.bind_eq_ok_iff _ _ _).mp h
  obtain ⟨partitions, -, h⟩ := (Checked.bind_eq_ok_iff _ _ _).mp h
  cases h
  rfl

theorem registry_of_simple {name : String} {rev : Int} {servers : List String}
    (h : simple name rev servers = .ok t) : t.registry = .ofAddresses servers := by
  unfold simple at h
  obtain ⟨⟨⟩, -, h⟩ := (Checked.bind_eq_ok_iff _ _ _).mp h
  cases h
  rfl

-- All nodes of a new table are active.
theorem Accepted.isActive (h : t.Accepted) {i : Nat} {n : Node}
    (hn : t.registry.get? i = some n) : n.isActive = true := by
  have hregistry : ∃ servers, t.registry = .ofAddresses servers := by
    cases h with
    | partitioned h => exact ⟨_, registry_of_partitioned h⟩
    | parsed h =>
      rcases parse_cases h with ⟨_, _, _, _, _, h⟩ | ⟨_, _, _, h⟩
      · exact ⟨_, registry_of_partitioned h⟩
      · exact ⟨_, registry_of_simple h⟩
  obtain ⟨servers, hservers⟩ := hregistry
  rw [hservers] at hn
  rw [Node.isActive, (Registry.get?_ofAddresses hn).2.2]
  rfl

/-! ## Tables of one layout -/

theorem SameLayout.owners (h : t.SameLayout u) (partition : Nat) :
    u.owners partition = t.owners partition := by
  rw [Table.owners, Table.owners, partition?, partition?, h.partitions]

theorem SameLayout.partitionOf (h : t.SameLayout u) (key : String) :
    u.partitionOf key = t.partitionOf key := by
  rw [Table.partitionOf, Table.partitionOf, partitionCount, partitionCount, h.partitions]

theorem SameLayout.slots (h : t.SameLayout u)
    (ht : ∀ p ∈ t.partitions, p.replicas.length = t.replicaCount) :
    ∀ p ∈ u.partitions, p.replicas.length = u.replicaCount := by
  rw [h.partitions, h.replicaCount]
  exact ht

theorem map_address_assigned (t : Table) (partition : Nat) :
    (t.assigned partition).map (·.address) =
      (t.owners partition).filterMap fun i => (t.registry.nodes.map (·.address))[i]? := by
  rw [assigned, List.map_filterMap]
  refine List.filterMap_congr fun i _ => ?_
  rw [Registry.get?, List.getElem?_map]

/-- A partition does not assign two nodes of one address. -/
def Apart (t : Table) (partition : Nat) : Prop :=
  ((t.assigned partition).map (·.address)).Nodup

-- Marks neither bring addresses together nor tell them apart.
theorem SameLayout.apart_iff (h : t.SameLayout u) (partition : Nat) :
    u.Apart partition ↔ t.Apart partition := by
  rw [Apart, Apart, map_address_assigned, map_address_assigned, h.owners, h.addresses]

/-! ## Routes -/

/-- The partition of a key, provided that the key has a route, does not assign two nodes of one
address. -/
def AddressesApart (t : Table) (key : String) : Prop :=
  ∀ r, t.route key = .ok r → t.Apart (t.partitionOf key)

theorem Apart.targets_nodup {key : String} {r : Route}
    (ht : ∀ p ∈ t.partitions, p.replicas.length = t.replicaCount) (hr : t.route key = .ok r)
    (h : t.Apart (t.partitionOf key)) : (r.targets.map (·.address)).Nodup := by
  rw [targets_eq_reachable ht hr, reachable_eq_filter]
  exact h.sublist (List.filter_sublist.map _)

-- A new table reaches all that it assigns, so a route of it lists an address twice if its partition
-- assigns it twice.
theorem Accepted.apart_of_targets_nodup (ht : t.Accepted) {key : String} {r : Route}
    (hr : t.route key = .ok r) (h : (r.targets.map (·.address)).Nodup) :
    t.Apart (t.partitionOf key) := by
  have hall : (t.assigned (t.partitionOf key)).filter (·.isActive) =
      t.assigned (t.partitionOf key) := by
    rw [List.filter_eq_self]
    intro n hn
    obtain ⟨i, -, hi⟩ := List.mem_filterMap.mp hn
    exact ht.isActive hi
  rw [targets_eq_reachable ht.slots hr, reachable_eq_filter, hall] at h
  exact h

-- Marks give no key a route that has none in the new table.
theorem Accepted.route_of_sameLayout (ht : t.Accepted) (h : t.SameLayout u) {key : String}
    {r : Route} (hr : u.route key = .ok r) : ∃ r, t.route key = .ok r := by
  obtain ⟨n, hn, -⟩ := route_eq_ok_iff.mp hr
  rw [primary?, partition?, h.partitions, h.partitionOf] at hn
  obtain ⟨i, hi, hactive⟩ := Option.bind_eq_some_iff.mp hn
  obtain ⟨hget, -⟩ := Option.filter_eq_some_iff.mp hactive
  -- the place of the primary is one of the new table as well
  obtain ⟨m, hm, -⟩ := Registry.exists_get?_of_addresses h.addresses hget
  have hprimary : t.primary? (t.partitionOf key) = some m := by
    rw [primary?, partition?, hi, Option.bind_some]
    exact Option.filter_eq_some_iff.mpr ⟨hm, ht.isActive hm⟩
  exact ⟨_, route_eq_ok_iff.mpr ⟨m, hprimary, rfl⟩⟩

theorem AddressesApart.targets_nodup (ht : t.Accepted) {key : String} (h : t.AddressesApart key)
    (hu : t.SameLayout u) {r : Route} (hr : u.route key = .ok r) :
    (r.targets.map (·.address)).Nodup := by
  obtain ⟨r', hr'⟩ := ht.route_of_sameLayout hu hr
  refine Apart.targets_nodup (hu.slots ht.slots) hr ?_
  rw [hu.partitionOf, hu.apart_iff]
  exact h r' hr'

end Table

end ClusterClient
