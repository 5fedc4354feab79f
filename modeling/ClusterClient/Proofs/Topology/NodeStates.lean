import ClusterClient.Topology.Table
import Mathlib.Data.List.Basic
/-!
# Node states

A node is marked by its address. The mark changes the state of the first node of that address, and
nothing else of the table.
-/

namespace ClusterClient

namespace Registry

variable {r r' : Registry} {address : String} {state : NodeState}

/-- The place of the first node of an address. -/
def place? (r : Registry) (address : String) : Option Nat :=
  r.nodes.findIdx? (·.address == address)

theorem mem_nodes_iff (r : Registry) (n : Node) : n ∈ r.nodes ↔ ∃ i, r.get? i = some n :=
  List.mem_iff_getElem?

theorem address_of_place? {i : Nat} {n : Node} (h : r.place? address = some i)
    (hn : r.get? i = some n) : n.address = address := by
  obtain ⟨hlt, haddress, -⟩ := List.findIdx?_eq_some_iff_getElem.mp h
  have hget : r.nodes[i] = n := (List.getElem?_eq_some_iff.mp hn).2
  rw [hget] at haddress
  exact eq_of_beq haddress

-- The first node of an address is found by the addresses alone.
theorem place?_congr (h : r'.nodes.map (·.address) = r.nodes.map (·.address)) (address : String) :
    r'.place? address = r.place? address := by
  have hmap : ∀ nodes : List Node, nodes.findIdx? (·.address == address) =
      (nodes.map (·.address)).findIdx? (· == address) := by
    intro nodes
    rw [List.findIdx?_map]
    rfl
  rw [place?, place?, hmap, hmap, h]

-- With an address for each node, each is the first of its address.
theorem place?_of_nodup (h : (r.nodes.map (·.address)).Nodup) {i : Nat} {n : Node}
    (hn : r.get? i = some n) : r.place? n.address = some i := by
  obtain ⟨hlt, hget⟩ := List.getElem?_eq_some_iff.mp hn
  refine List.findIdx?_eq_some_iff_getElem.mpr ⟨hlt, ?_, fun j hj hsame => ?_⟩
  · rw [hget]
    exact beq_self_eq_true _
  · have hdiffer := List.pairwise_iff_getElem.mp (List.pairwise_map.mp h) j i (by omega) hlt hj
    apply hdiffer
    rw [hget]
    exact eq_of_beq hsame

theorem exists_get?_of_addresses (h : r'.nodes.map (·.address) = r.nodes.map (·.address)) {i : Nat}
    {n : Node} (hn : r'.get? i = some n) : ∃ m, r.get? i = some m ∧ m.address = n.address := by
  have haddress := congrArg (·[i]?) h
  simp only [List.getElem?_map] at haddress
  rw [show r'.nodes[i]? = some n from hn, Option.map_some, eq_comm,
    Option.map_eq_some_iff] at haddress
  exact haddress

-- What a change of state does: the first node of the address has the new state.
theorem get?_of_setState? (h : r.setState? address state = some r') (i : Nat) :
    r'.get? i = (r.get? i).map fun n =>
      if r.place? address = some i then { n with state } else n := by
  obtain ⟨j, hj, rfl⟩ := Option.map_eq_some_iff.mp h
  rw [get?, get?, List.getElem?_modify, place?, hj]
  simp only [Option.some.injEq]
  rfl

theorem addresses_of_setState? (h : r.setState? address state = some r') :
    r'.nodes.map (·.address) = r.nodes.map (·.address) := by
  refine List.ext_getElem? fun i => ?_
  have hi := get?_of_setState? h i
  rw [get?, get?] at hi
  rw [List.getElem?_map, List.getElem?_map, hi, Option.map_map]
  congr 1
  funext n
  rw [Function.comp_apply]
  split <;> rfl

theorem size_of_setState? (h : r.setState? address state = some r') : r'.size = r.size := by
  have hlength := congrArg List.length (addresses_of_setState? h)
  rwa [List.length_map, List.length_map] at hlength

end Registry

namespace Table

/-- The table after a mark, which does nothing if the address is unknown. -/
def withState (t : Table) (address : String) (state : NodeState) : Table :=
  (t.setNodeState? address state).getD t

/-- The table after marks, one after the other. -/
def remarked (t : Table) (changes : List (String × NodeState)) : Table :=
  changes.foldl (fun t (address, state) => t.withState address state) t

theorem withState_of_setNodeState? {t u : Table} {address : String} {state : NodeState}
    (h : t.setNodeState? address state = some u) : t.withState address state = u := by
  rw [withState, h, Option.getD_some]

/-- Two tables differ in the states of their nodes only. -/
structure SameLayout (t u : Table) : Prop where
  kind : u.kind = t.kind
  name : u.name = t.name
  rev : u.rev = t.rev
  replicaCount : u.replicaCount = t.replicaCount
  partitions : u.partitions = t.partitions
  addresses : u.registry.nodes.map (·.address) = t.registry.nodes.map (·.address)

theorem SameLayout.refl (t : Table) : t.SameLayout t := ⟨rfl, rfl, rfl, rfl, rfl, rfl⟩

theorem SameLayout.trans {t u v : Table} (h : t.SameLayout u) (h' : u.SameLayout v) :
    t.SameLayout v where
  kind := h'.kind.trans h.kind
  name := h'.name.trans h.name
  rev := h'.rev.trans h.rev
  replicaCount := h'.replicaCount.trans h.replicaCount
  partitions := h'.partitions.trans h.partitions
  addresses := h'.addresses.trans h.addresses

theorem SameLayout.place? {t u : Table} (h : t.SameLayout u) (address : String) :
    u.registry.place? address = t.registry.place? address :=
  Registry.place?_congr h.addresses address

theorem sameLayout_of_setNodeState? {t u : Table} {address : String} {state : NodeState}
    (h : t.setNodeState? address state = some u) : t.SameLayout u := by
  obtain ⟨r, hr, rfl⟩ := Option.map_eq_some_iff.mp h
  exact ⟨rfl, rfl, rfl, rfl, rfl, Registry.addresses_of_setState? hr⟩

theorem sameLayout_withState (t : Table) (address : String) (state : NodeState) :
    t.SameLayout (t.withState address state) := by
  cases h : t.setNodeState? address state with
  | none =>
    rw [withState, h, Option.getD_none]
    exact .refl t
  | some u =>
    rw [withState_of_setNodeState? h]
    exact sameLayout_of_setNodeState? h

theorem sameLayout_remarked (t : Table) (changes : List (String × NodeState)) :
    t.SameLayout (t.remarked changes) := by
  induction changes generalizing t with
  | nil => exact .refl t
  | cons change changes ih => exact (t.sameLayout_withState _ _).trans (ih _)

-- The nodes of a table after a mark.
theorem get?_withState (t : Table) (address : String) (state : NodeState) (i : Nat) :
    (t.withState address state).registry.get? i = (t.registry.get? i).map fun n =>
      if t.registry.place? address = some i then { n with state } else n := by
  cases h : t.setNodeState? address state with
  | none =>
    have hplace : t.registry.place? address = none :=
      Option.map_eq_none_iff.mp (Option.map_eq_none_iff.mp h)
    rw [withState, h, Option.getD_none, hplace]
    simp only [reduceCtorEq, if_false, Option.map_id']
  | some u =>
    rw [withState_of_setNodeState? h]
    obtain ⟨r, hr, rfl⟩ := Option.map_eq_some_iff.mp h
    exact Registry.get?_of_setState? hr i

end Table

end ClusterClient
