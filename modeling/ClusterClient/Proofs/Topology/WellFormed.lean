import ClusterClient.Proofs.Address
import ClusterClient.Proofs.Checked
import ClusterClient.Proofs.Topology.NodeStates
import ClusterClient.Topology.Descriptor
import Mathlib.Data.List.Nodup
/-!
# Well-formed tables

What a table promises to those who look things up in it. Both ways of building a table establish it,
and so does every descriptor that is read; a copy with another node state keeps it.
-/

namespace ClusterClient

/-- The places of the nodes that a partition assigns, that of the primary first. -/
def Partition.owners (p : Partition) : List Nat := p.primary.toList ++ p.replicas.filterMap id

namespace Table

/-- A table of at most `maxReplicas` replicas in which every lookup finds what it is sent to. -/
structure WellFormed (maxReplicas : Nat) (t : Table) : Prop where
  hasPartition : 0 < t.partitionCount
  powerOfTwo : t.kind = .partitioned → t.partitionCount.isPowerOfTwo
  onePerNode : t.kind = .simple → t.partitionCount = t.registry.size
  slots : ∀ p ∈ t.partitions, p.replicas.length = t.replicaCount
  replicaCount_le : t.replicaCount ≤ maxReplicas
  owners_lt : ∀ p ∈ t.partitions, ∀ i ∈ p.owners, i < t.registry.size
  -- No partition assigns one node twice.
  owners_nodup : ∀ p ∈ t.partitions, p.owners.Nodup
  index_eq : ∀ i n, t.registry.get? i = some n → n.index = i
  address : ∀ n ∈ t.registry.nodes,
    ∃ host port, Address.Spells n.address host port ∧ host ≠ [] ∧ port < UInt16.size

/-! ## The checks -/

theorem checkServers_eq_ok_iff (servers : List String) :
    checkServers servers = .ok () ↔ servers ≠ [] ∧ ∀ a ∈ servers, Address.isValid a = true := by
  unfold checkServers
  split
  · rename_i he
    simp only [reduceCtorEq, false_iff, not_and, List.isEmpty_iff.mp he, ne_eq, not_true_eq_false,
      false_implies]
  · rename_i he
    have hne : servers ≠ [] := fun h => he (List.isEmpty_iff.mpr h)
    split
    · rename_i a hfind
      have ha := List.mem_of_find?_eq_some hfind
      have hinvalid := List.find?_some hfind
      simp only [reduceCtorEq, false_iff, not_and]
      intro _ hall
      rw [hall a ha] at hinvalid
      cases hinvalid
    · rename_i hfind
      rw [List.find?_eq_none] at hfind
      simp only [true_iff]
      refine ⟨hne, fun a ha => ?_⟩
      have hv := hfind a ha
      simpa using hv

theorem isPowerOfTwo_iff (n : Nat) : isPowerOfTwo n = true ↔ n.isPowerOfTwo := by
  unfold isPowerOfTwo
  rw [Bool.and_eq_true, bne_iff_ne, beq_iff_eq, Nat.one_shiftLeft]
  constructor
  · rintro ⟨-, h⟩
    exact ⟨n.log2, h.symm⟩
  · intro h
    refine ⟨Nat.ne_of_gt (Nat.pos_of_isPowerOfTwo h), ?_⟩
    obtain ⟨k, rfl⟩ := h
    rw [Nat.log2_two_pow]

theorem checkMap_eq_ok_iff (servers : List String) (replicaCount : Nat) (map : List (List Int))
    (maxReplicas : Nat) :
    checkMap servers replicaCount map maxReplicas = .ok () ↔
      checkServers servers = .ok () ∧ replicaCount ≤ maxReplicas ∧ map.length.isPowerOfTwo := by
  rw [checkMap, Checked.bind_eq_ok_iff, ← isPowerOfTwo_iff]
  constructor
  · rintro ⟨⟨⟩, hservers, h⟩
    split at h
    · cases h
    · rename_i hcount
      split at h
      · cases h
      · rename_i hpower
        rw [Bool.not_eq_true', Bool.not_eq_false] at hpower
        exact ⟨hservers, Nat.not_lt.mp hcount, hpower⟩
  · rintro ⟨hservers, hcount, hpower⟩
    refine ⟨(), hservers, ?_⟩
    rw [if_neg (Nat.not_lt.mpr hcount), hpower]
    rfl

theorem readEntry_lt {nodes partition : Nat} {entry : Int} {o : Option Nat}
    (h : readEntry nodes partition entry = .ok o) : ∀ i ∈ o, i < nodes := by
  unfold readEntry at h
  split at h
  · cases h
    intro i hi
    cases hi
  · split at h
    · rename_i hrange
      cases h
      intro i hi
      cases hi
      omega
    · cases h

theorem repeated?_eq_none_iff (owners : List Nat) : repeated? owners = none ↔ owners.Nodup := by
  unfold repeated?
  rw [List.min?_eq_none_iff, List.filter_eq_nil_iff, List.nodup_iff_count_le_one]
  constructor
  · intro h a
    by_cases ha : a ∈ owners
    · have := h a ha
      simp only [decide_eq_true_eq] at this
      omega
    · rw [List.count_eq_zero_of_not_mem ha]
      omega
  · intro h a _
    have := h a
    simp only [decide_eq_true_eq]
    omega

/-! ## Rows -/

-- The owners of a row are its entries that name a node.
theorem owners_of_entries {owners : List (Option Nat)} (h : owners ≠ []) (k : Nat) :
    Partition.owners ⟨owners.head?.join, owners.tail ++ List.replicate k none⟩ =
      owners.filterMap id := by
  cases owners with
  | nil => exact absurd rfl h
  | cons o rest =>
    have hk : (List.replicate k (none : Option Nat)).filterMap id = [] := by
      rw [List.filterMap_replicate_of_none rfl]
    simp only [Partition.owners, List.head?_cons, Option.join_some, List.tail_cons,
      List.filterMap_append, hk, List.append_nil]
    cases o <;> rfl

-- A row that is read fills every slot of its partition, names nodes of the list only and none of
-- them twice.
theorem readRow_spec {nodes replicaCount partition : Nat} {row : List Int} {p : Partition}
    (h : readRow nodes replicaCount partition row = .ok p) :
    p.replicas.length = replicaCount ∧ (∀ i ∈ p.owners, i < nodes) ∧ p.owners.Nodup := by
  unfold readRow at h
  obtain ⟨owners, howners, h⟩ := (Checked.bind_eq_ok_iff _ _ _).mp h
  cases h
  unfold readOwners at howners
  split at howners
  · cases howners
  · rename_i hwidth
    simp only [Bool.or_eq_true, List.isEmpty_iff, decide_eq_true_eq, not_or, Nat.not_lt] at hwidth
    obtain ⟨entries, hentries, howners⟩ := (Checked.bind_eq_ok_iff _ _ _).mp howners
    have hlength := Checked.length_of_mapM hentries
    split at howners
    · cases howners
    · rename_i hrep
      cases howners
      have hne : owners ≠ [] := by
        rintro rfl
        exact hwidth.1 (List.length_eq_zero_iff.mp hlength.symm)
      rw [owners_of_entries hne]
      refine ⟨?_, ?_, (repeated?_eq_none_iff _).mp hrep⟩
      · have hpos := List.length_pos_iff.mpr hne
        have hfits := hwidth.2.trans (rowWidth_le replicaCount)
        rw [List.length_append, List.length_tail, List.length_replicate]
        omega
      · intro i hi
        obtain ⟨o, ho, hoi⟩ := List.mem_filterMap.mp hi
        obtain ⟨entry, -, hentry⟩ := Checked.exists_of_mem_mapM hentries ho
        exact readEntry_lt hentry i hoi

end Table

/-! ## Registries -/

namespace Registry

theorem size_ofAddresses (addresses : List String) :
    (ofAddresses addresses).size = addresses.length := by
  unfold ofAddresses size
  exact List.length_mapIdx

theorem get?_ofAddresses {addresses : List String} {i : Nat} {n : Node}
    (h : (ofAddresses addresses).get? i = some n) :
    n.index = i ∧ n.address ∈ addresses ∧ n.state = .active := by
  unfold ofAddresses get? at h
  rw [List.getElem?_mapIdx, Option.map_eq_some_iff] at h
  obtain ⟨a, ha, rfl⟩ := h
  exact ⟨rfl, List.mem_of_getElem? ha, rfl⟩

end Registry

namespace Table

/-! ## Building -/

-- What the nodes of a new table promise, whatever its partitions.
theorem address_of_checkServers {servers : List String} (h : checkServers servers = .ok ()) :
    ∀ n ∈ (Registry.ofAddresses servers).nodes,
      ∃ host port, Address.Spells n.address host port ∧ host ≠ [] ∧ port < UInt16.size := by
  intro n hn
  obtain ⟨i, hi⟩ := (Registry.mem_nodes_iff _ n).mp hn
  obtain ⟨-, hmem, -⟩ := Registry.get?_ofAddresses hi
  have hvalid := ((checkServers_eq_ok_iff servers).mp h).2 _ hmem
  exact (Address.isValid_iff _).mp hvalid

theorem wellFormed_of_partitioned {name : String} {rev : Int} {servers : List String}
    {replicaCount maxReplicas : Nat} {map : List (List Int)} {t : Table}
    (h : partitioned name rev servers replicaCount map maxReplicas = .ok t) :
    t.WellFormed maxReplicas := by
  unfold partitioned at h
  obtain ⟨⟨⟩, hmap, h⟩ := (Checked.bind_eq_ok_iff _ _ _).mp h
  obtain ⟨hservers, hcount, hpower⟩ := (checkMap_eq_ok_iff _ _ _ _).mp hmap
  obtain ⟨partitions, hrows, h⟩ := (Checked.bind_eq_ok_iff _ _ _).mp h
  cases h
  have hpowerOfTwo : partitions.length.isPowerOfTwo := by
    rw [Checked.length_of_mapM hrows, List.length_zipIdx]
    exact hpower
  have hrow : ∀ p ∈ partitions, p.replicas.length = replicaCount ∧
      (∀ i ∈ p.owners, i < servers.length) ∧ p.owners.Nodup := by
    intro p hp
    obtain ⟨⟨row, partition⟩, -, hread⟩ := Checked.exists_of_mem_mapM hrows hp
    exact readRow_spec hread
  exact {
    hasPartition := Nat.pos_of_isPowerOfTwo hpowerOfTwo
    powerOfTwo := fun _ => hpowerOfTwo
    onePerNode := fun hkind => by cases hkind
    slots := fun p hp => (hrow p hp).1
    replicaCount_le := hcount
    owners_lt := fun p hp i hi => by
      rw [Registry.size_ofAddresses]
      exact (hrow p hp).2.1 i hi
    owners_nodup := fun p hp => (hrow p hp).2.2
    index_eq := fun i n hn => (Registry.get?_ofAddresses hn).1
    address := address_of_checkServers hservers }

theorem wellFormed_of_simple {name : String} {rev : Int} {servers : List String} {t : Table}
    (h : simple name rev servers = .ok t) (maxReplicas : Nat) : t.WellFormed maxReplicas := by
  unfold simple at h
  obtain ⟨⟨⟩, hservers, h⟩ := (Checked.bind_eq_ok_iff _ _ _).mp h
  cases h
  have hne := ((checkServers_eq_ok_iff servers).mp hservers).1
  have hlength : ((List.range servers.length).map fun i => (⟨some i, []⟩ : Partition)).length =
      servers.length := by rw [List.length_map, List.length_range]
  have hpartition : ∀ p ∈ (List.range servers.length).map fun i => (⟨some i, []⟩ : Partition),
      ∃ i < servers.length, p = ⟨some i, []⟩ := by
    intro p hp
    obtain ⟨i, hi, rfl⟩ := List.mem_map.mp hp
    exact ⟨i, List.mem_range.mp hi, rfl⟩
  exact {
    hasPartition := by
      rw [partitionCount, hlength]
      exact List.length_pos_iff.mpr hne
    powerOfTwo := fun hkind => by cases hkind
    onePerNode := fun _ => by rw [partitionCount, hlength, Registry.size_ofAddresses]
    slots := fun p hp => by
      obtain ⟨i, -, rfl⟩ := hpartition p hp
      rfl
    replicaCount_le := Nat.zero_le maxReplicas
    owners_lt := fun p hp j hj => by
      obtain ⟨i, hi, rfl⟩ := hpartition p hp
      rw [Registry.size_ofAddresses]
      simp only [Partition.owners, Option.toList_some, List.filterMap_nil, List.append_nil,
        List.mem_singleton] at hj
      rw [hj]
      exact hi
    owners_nodup := fun p hp => by
      obtain ⟨i, -, rfl⟩ := hpartition p hp
      exact List.nodup_singleton i
    index_eq := fun i n hn => (Registry.get?_ofAddresses hn).1
    address := address_of_checkServers hservers }

-- A text that is read gives a table of one kind or the other.
theorem parse_cases {text : String} {maxReplicas : Nat} {t : Table}
    (h : parse text maxReplicas = .ok t) :
    (∃ name rev servers replicaCount map,
        partitioned name rev servers replicaCount map maxReplicas = .ok t) ∨
      ∃ name rev servers, simple name rev servers = .ok t := by
  unfold parse at h
  split at h
  · unfold Descriptor.table at h
    split at h
    · split at h
      · exact .inl ⟨_, _, _, _, _, h⟩
      · cases h
    · split at h
      · cases h
      · exact .inr ⟨_, _, _, h⟩
  · cases h

-- Every descriptor that is read gives a well-formed table.
theorem wellFormed_of_parse {text : String} {maxReplicas : Nat} {t : Table}
    (h : parse text maxReplicas = .ok t) : t.WellFormed maxReplicas := by
  rcases parse_cases h with ⟨_, _, _, _, _, h⟩ | ⟨_, _, _, h⟩
  · exact wellFormed_of_partitioned h
  · exact wellFormed_of_simple h maxReplicas

-- A copy with another node state promises what the table promised.
theorem WellFormed.setNodeState {maxReplicas : Nat} {t t' : Table} {address : String}
    {state : NodeState} (ht : t.WellFormed maxReplicas)
    (h : t.setNodeState? address state = some t') : t'.WellFormed maxReplicas := by
  obtain ⟨r, hr, rfl⟩ := Option.map_eq_some_iff.mp h
  have hsize := Registry.size_of_setState? hr
  exact {
    hasPartition := ht.hasPartition
    powerOfTwo := ht.powerOfTwo
    onePerNode := fun hkind => (ht.onePerNode hkind).trans hsize.symm
    slots := ht.slots
    replicaCount_le := ht.replicaCount_le
    owners_lt := fun p hp i hi => by
      rw [hsize]
      exact ht.owners_lt p hp i hi
    owners_nodup := ht.owners_nodup
    index_eq := fun i n hn => by
      rw [Registry.get?_of_setState? hr] at hn
      obtain ⟨n', hn', rfl⟩ := Option.map_eq_some_iff.mp hn
      have hindex := ht.index_eq i n' hn'
      split <;> exact hindex
    address := fun n hn => by
      -- every address of the copy is one of the table's
      have hmem := List.mem_map_of_mem (f := (·.address)) hn
      rw [Registry.addresses_of_setState? hr] at hmem
      obtain ⟨n', hn', haddress⟩ := List.mem_map.mp hmem
      rw [← haddress]
      exact ht.address n' hn' }

/-! ## Looking up -/

/-- Routing a key in a table is sent to no place that does not exist: the partition of the key, each
replica slot of it and each node that it assigns are there. -/
structure Covers (t : Table) (key : String) : Prop where
  partition_lt : t.partitionOf key < t.partitionCount
  found : ∃ p, t.partition? (t.partitionOf key) = some p ∧
    (∀ slot < t.replicaCount, ∃ o, p.replicas[slot]? = some o) ∧
    ∀ i ∈ p.owners, ∃ n, t.registry.get? i = some n

theorem partitionOf_lt {t : Table} (hpos : 0 < t.partitionCount)
    (hcount : t.partitionCount < UInt32.size) (key : String) :
    t.partitionOf key < t.partitionCount := by
  unfold partitionOf
  rw [UInt32.toNat_mod, UInt32.toNat_ofNat', Nat.mod_eq_of_lt hcount]
  exact Nat.mod_lt _ hpos

theorem WellFormed.covers {maxReplicas : Nat} {t : Table} (ht : t.WellFormed maxReplicas)
    (hcount : t.partitionCount < UInt32.size) (key : String) : t.Covers key := by
  have hlt := partitionOf_lt ht.hasPartition hcount key
  refine ⟨hlt, t.partitions[t.partitionOf key], List.getElem?_eq_getElem hlt, ?_, ?_⟩
  · intro slot hslot
    rw [← ht.slots _ (List.getElem_mem hlt)] at hslot
    exact ⟨_, List.getElem?_eq_getElem hslot⟩
  · intro i hi
    have hi' := ht.owners_lt _ (List.getElem_mem hlt) i hi
    exact ⟨_, List.getElem?_eq_getElem hi'⟩

end Table

end ClusterClient
