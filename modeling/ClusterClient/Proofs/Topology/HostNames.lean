import ClusterClient.Proofs.Topology.Defects
import ClusterClient.Proofs.Topology.Written
/-!
# Tables over host names

A descriptor that gives no server map lists the nodes by their host names. Here it is said, without
the way in which addresses are taken apart and checked, which lists give a table, what that table
is, and what is reported of the others.
-/

namespace ClusterClient

/-- The port at which a node takes requests. -/
def NodeEntry.port (n : NodeEntry) : Nat := n.direct.getD 11210

/-- What is reported of a list of nodes that gives no table: that it is empty, or the address of the
first node whose host is. -/
inductive NodesDefect (nodes : List NodeEntry) : Malformed → Prop where
  | noNodes (hnone : nodes = []) : NodesDefect nodes .noNodes
  | address {before after : List NodeEntry} {n : NodeEntry} (hnodes : nodes = before ++ n :: after)
      (hbefore : ∀ m ∈ before, ¬Address.HasHost m.hostname "")
      (hn : Address.HasHost n.hostname "") :
      NodesDefect nodes (.address (":" ++ toString n.port))

/-- A table over a list of nodes, all of them active: each is at the address of its host and its
port for requests, and is the primary of the partition of its place, without replicas. -/
structure Table.ListsNodes (name : String) (rev : Int) (nodes : List NodeEntry) (t : Table) :
    Prop where
  kind : t.kind = .simple
  name : t.name = name
  rev : t.rev = rev
  replicaCount : t.replicaCount = 0
  size : t.registry.size = nodes.length
  partitionCount : t.partitionCount = nodes.length
  node : ∀ i n, nodes[i]? = some n → ∃ host, Address.HasHost n.hostname host ∧
    ∃ node, t.registry.get? i = some node ∧ node.index = i ∧ node.state = .active ∧
      node.address = host ++ ":" ++ toString n.port ∧ node.host = host
  partition : ∀ i < nodes.length, t.partition? i = some ⟨some i, []⟩

/-! ## Ports -/

theorem IsPorts.lt {j : Json} {port : Nat} (h : IsPorts j (some port)) : port < UInt16.size := by
  have hsize : UInt16.size = 65536 := rfl
  cases h with
  | written hrecord hport =>
    cases hport with
    | value hj hport =>
      obtain ⟨_, _, _, _, _, _, hle⟩ := hport
      omega

theorem IsNode.port_lt {j : Json} {n : NodeEntry} (h : IsNode j n) : n.port < UInt16.size := by
  have hdefault : 11210 < UInt16.size := by decide
  obtain ⟨_, _, _, -, -, hports⟩ := h
  obtain ⟨hostname, direct⟩ := n
  cases direct with
  | none => exact hdefault
  | some port =>
    cases hports with
    | written hports => exact hports.lt

-- The port of every node of a descriptor that is written down fits.
theorem Descriptor.Written.port_lt {text : String} {d : Descriptor} (h : d.Written text)
    {n : NodeEntry} (hn : n ∈ d.nodes) : n.port < UInt16.size := by
  obtain ⟨_, -, _, _, _, _, _, _, -, -, -, -, hnodes, -⟩ := h
  obtain ⟨name, rev, nodeLocator, nodes, serverMap⟩ := d
  cases hnodes with
  | left => cases hn
  | written hlist =>
    obtain ⟨items, -, hitems⟩ := hlist
    obtain ⟨i, hi, rfl⟩ := List.mem_iff_getElem.mp hn
    have hlength := hitems.length_eq
    exact (hitems.get (hlength ▸ hi) hi).port_lt

/-! ## Addresses -/

theorem NodeEntry.host_address (n : NodeEntry) : Address.host n.address = Address.host n.hostname :=
  Address.host_ofHostPort _ _

-- The address of a node is refused exactly when its host is empty.
theorem isServer_address_iff {n : NodeEntry} (hport : n.port < UInt16.size) :
    IsServer n.address ↔ ¬Address.HasHost n.hostname "" := by
  rw [← Address.host_eq_iff]
  exact (Address.isValid_iff _).symm.trans (Address.isValid_ofHostPort hport _)

theorem address_of_empty_host {n : NodeEntry} (h : Address.HasHost n.hostname "") :
    n.address = ":" ++ toString n.port := by
  rw [NodeEntry.address, (Address.host_eq_iff _ _).mpr h, Address.ofHostPort, String.empty_append]
  rfl

namespace Table

variable {name : String} {rev : Int} {servers : List String} {nodes : List NodeEntry}

/-! ## Building -/

/-- The table that servers give if their addresses are valid. -/
def oneEach (name : String) (rev : Int) (servers : List String) : Table :=
  { kind := .simple, name, rev, replicaCount := 0
    partitions := (List.range servers.length).map fun index => ⟨some index, []⟩
    registry := .ofAddresses servers }

theorem simple_eq_ok_iff (t : Table) :
    simple name rev servers = .ok t ↔
      (servers ≠ [] ∧ ∀ a ∈ servers, IsServer a) ∧ t = oneEach name rev servers := by
  rw [simple, Checked.bind_eq_ok_iff, ← checkServers_eq_ok_iff_isServer]
  constructor
  · rintro ⟨⟨⟩, hservers, h⟩
    cases h
    exact ⟨hservers, rfl⟩
  · rintro ⟨hservers, rfl⟩
    exact ⟨(), hservers, rfl⟩

theorem simple_eq_error_iff (e : Malformed) :
    simple name rev servers = .error e ↔ checkServers servers = .error e := by
  rw [simple, Checked.bind_eq_error_iff]
  constructor
  · rintro (h | ⟨_, _, h⟩)
    · exact h
    · cases h
  · exact .inl

theorem listsNodes_oneEach (name : String) (rev : Int) (nodes : List NodeEntry) :
    (oneEach name rev (nodes.map (·.address))).ListsNodes name rev nodes where
  kind := rfl
  name := rfl
  rev := rfl
  replicaCount := rfl
  size := by
    rw [oneEach, Registry.size_ofAddresses, List.length_map]
  partitionCount := by
    rw [partitionCount, oneEach, List.length_map, List.length_range, List.length_map]
  node := fun i n hn => by
    refine ⟨Address.host n.hostname, (Address.host_eq_iff _ _).mp rfl, ⟨i, n.address, .active⟩, ?_,
      rfl, rfl, rfl, n.host_address⟩
    rw [oneEach, Registry.get?, Registry.ofAddresses, List.getElem?_mapIdx, List.getElem?_map, hn]
    rfl
  partition := fun i hi => by
    rw [partition?, oneEach, List.getElem?_map, List.length_map, List.getElem?_range hi]
    rfl

/-! ## Lists of nodes -/

-- The first address that is refused is that of the first node whose host is empty.
theorem nodesDefect_of_simple (hports : ∀ n ∈ nodes, n.port < UInt16.size) {e : Malformed}
    (h : simple name rev (nodes.map (·.address)) = .error e) : NodesDefect nodes e := by
  rw [simple_eq_error_iff, checkServers_eq_error_iff] at h
  obtain ⟨hnone, rfl⟩ | ⟨before, a, after, hservers, hbefore, ha, rfl⟩ := h
  · exact .noNodes (List.map_eq_nil_iff.mp hnone)
  · obtain ⟨before, rest, rfl, rfl, hrest⟩ := List.map_eq_append_iff.mp hservers
    obtain ⟨n, after, rfl, rfl, rfl⟩ := List.map_eq_cons_iff.mp hrest
    have hn : Address.HasHost n.hostname "" := by
      rwa [isServer_address_iff (hports n (by simp)), not_not] at ha
    rw [address_of_empty_host hn]
    refine .address rfl (fun m hm => ?_) hn
    rw [← isServer_address_iff (hports m (List.mem_append_left _ hm))]
    exact hbefore _ (List.mem_map_of_mem hm)

theorem simple_eq_ok_iff_hosts (hports : ∀ n ∈ nodes, n.port < UInt16.size) (t : Table) :
    simple name rev (nodes.map (·.address)) = .ok t ↔
      (nodes ≠ [] ∧ ∀ n ∈ nodes, ¬Address.HasHost n.hostname "") ∧
        t = oneEach name rev (nodes.map (·.address)) := by
  rw [simple_eq_ok_iff, ne_eq, List.map_eq_nil_iff, List.forall_mem_map]
  refine and_congr_left fun _ => and_congr_right fun _ => ?_
  exact forall₂_congr fun n hn => isServer_address_iff (hports n hn)

theorem parse_of_no_map {text : String} {d : Descriptor} (hwritten : d.Written text)
    (hmap : d.serverMap = none) (hlocator : d.nodeLocator ≠ some "vbucket") (maxReplicas : Nat) :
    parse text maxReplicas = simple d.name d.rev (d.nodes.map (·.address)) := by
  rw [parse_of_written hwritten]
  simp only [Descriptor.table, hmap, if_neg hlocator]

/-- A descriptor without a server map gives a table of its nodes, unless it lists none or the host
of one of them is empty. Then it is refused for that reason and no other, with the address of the
first node without a host. -/
theorem parse_of_host_names {text : String} {d : Descriptor} (hwritten : d.Written text)
    (hmap : d.serverMap = none) (hlocator : d.nodeLocator ≠ some "vbucket") (maxReplicas : Nat) :
    let parsed := parse text maxReplicas
    ((∃ t, parsed = .ok t) ↔ d.nodes ≠ [] ∧ ∀ n ∈ d.nodes, ¬Address.HasHost n.hostname "") ∧
      (∀ t, parsed = .ok t → t.ListsNodes d.name d.rev d.nodes) ∧
      (parsed = .error .noNodes ↔ d.nodes = []) ∧
      ((∃ a, parsed = .error (.address a)) ↔ ∃ n ∈ d.nodes, Address.HasHost n.hostname "") ∧
      ∀ e, parsed = .error e → NodesDefect d.nodes e := by
  intro parsed
  have hparsed : parsed = simple d.name d.rev (d.nodes.map (·.address)) :=
    parse_of_no_map hwritten hmap hlocator maxReplicas
  have hports : ∀ n ∈ d.nodes, n.port < UInt16.size := fun n => hwritten.port_lt
  have hok : ∀ t, parsed = .ok t ↔
      (d.nodes ≠ [] ∧ ∀ n ∈ d.nodes, ¬Address.HasHost n.hostname "") ∧
        t = oneEach d.name d.rev (d.nodes.map (·.address)) := by
    rw [hparsed]
    exact simple_eq_ok_iff_hosts hports
  have hdefect : ∀ e, parsed = .error e → NodesDefect d.nodes e := by
    rw [hparsed]
    exact fun e => nodesDefect_of_simple hports
  refine ⟨?_, fun t ht => ?_, ⟨fun h => ?_, fun hnone => ?_⟩, ⟨?_, ?_⟩, hdefect⟩
  · simp only [hok, exists_and_left, exists_eq, and_true]
  · obtain ⟨-, rfl⟩ := (hok t).mp ht
    exact listsNodes_oneEach d.name d.rev d.nodes
  · cases hdefect _ h with
    | noNodes hnone => exact hnone
  · rw [hparsed, hnone]
    rfl
  · rintro ⟨a, h⟩
    cases hdefect _ h with
    | address hnodes _ hn => exact ⟨_, by rw [hnodes]; exact List.mem_append_cons_self, hn⟩
  · -- there is a node, so what is reported is an address
    rintro ⟨n, hn, hempty⟩
    cases hresult : parsed with
    | ok t => exact absurd hempty (((hok t).mp hresult).1.2 n hn)
    | error e =>
      cases hdefect e hresult with
      | noNodes hnone =>
        rw [hnone] at hn
        cases hn
      | address => exact ⟨_, rfl⟩

-- A host with colons and the port zero, and a host name without a port as an array.
theorem parse_of_host_names_colons :
    let text := "\x7b\"rev\":3,\"nodes\":[\x7b\"hostname\":\"::1:8091\"," ++
      "\"ports\":\x7b\"direct\":0\x7d\x7d,[\"b\"]]\x7d"
    let d : Descriptor := ⟨"", 3, none, [⟨"::1:8091", some 0⟩, ⟨"b", none⟩], none⟩
    d.Written text ∧ d.serverMap = none ∧ d.nodeLocator ≠ some "vbucket" ∧
      ∃ t, parse text 3 = .ok t ∧ t.ListsNodes "" 3 d.nodes ∧
        t.registry.nodes = [⟨0, "::1:0", .active⟩, ⟨1, "b:11210", .active⟩] := by
  intro text d
  have hwritten : d.Written text :=
    (Descriptor.read?_eq_some_iff_written text d).mp (by decide +kernel)
  have hlocator : d.nodeLocator ≠ some "vbucket" := by decide
  have hparsed : parse text 3 = .ok (oneEach "" 3 ["::1:0", "b:11210"]) := by decide +kernel
  refine ⟨hwritten, rfl, hlocator, _, hparsed, ?_, rfl⟩
  exact (parse_of_host_names hwritten rfl hlocator 3).2.1 _ hparsed

-- A port alone is no host name; its node is named by the address that it would have had.
example : parse "\x7b\"nodes\":[[\"a\"],[\":8091\"],[\"\"]]\x7d" 3 =
    .error (.address ":11210") := by decide +kernel

end Table

end ClusterClient
