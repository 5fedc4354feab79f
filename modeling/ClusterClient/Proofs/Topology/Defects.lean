import ClusterClient.Proofs.Topology.WellFormed
/-!
# What is refused

Servers and a partition map give a table exactly when nothing is wrong with them. Here it is said
without the checks what can be wrong, and which of several defects is the one that is reported.
-/

namespace ClusterClient

/-! ## What is asked of servers and rows -/

/-- A text that spells a host that is not empty and a port of 16 bits, before which one plus sign
may stand. -/
def IsServer (s : String) : Prop :=
  ∃ host port, Address.Spells s host port ∧ host ≠ [] ∧ port < UInt16.size

/-- An entry of a row among so many nodes: -1, or the place of a node. -/
def IsEntry (nodes : Nat) (entry : Int) : Prop := entry = -1 ∨ 0 ≤ entry ∧ entry < nodes

/-- A row of at least one and at most so many entries that assigns no node twice. -/
structure RowFits (nodes most : Nat) (row : List Int) : Prop where
  width : 1 ≤ row.length ∧ row.length ≤ most
  entries : ∀ entry ∈ row, IsEntry nodes entry
  distinct : ∀ i : Nat, row.count (i : Int) ≤ 1

/-- Servers and a partition map with which nothing is wrong before its rows. -/
structure MapFits (servers : List String) (replicaCount : Nat) (map : List (List Int))
    (maxReplicas : Nat) : Prop where
  hasServer : servers ≠ []
  addresses : ∀ a ∈ servers, IsServer a
  replicaCount_le : replicaCount ≤ maxReplicas
  powerOfTwo : map.length.isPowerOfTwo

/-- Servers and a partition map with which nothing is wrong: each row assigns a primary and up to so
many replicas. -/
structure Fits (servers : List String) (replicaCount : Nat) (map : List (List Int))
    (maxReplicas : Nat) : Prop extends MapFits servers replicaCount map maxReplicas where
  rows : ∀ row ∈ map, RowFits servers.length (replicaCount + 1) row

/-- What is reported of the row of a partition that does not fit: its width, else its leftmost entry
that names no node, else the smallest place that it names twice. -/
inductive RowDefect (nodes most partition : Nat) (row : List Int) : Malformed → Prop where
  | width (hwidth : ¬(1 ≤ row.length ∧ row.length ≤ most)) :
      RowDefect nodes most partition row (.rowWidth partition row.length most)
  | index {before after : List Int} {entry : Int}
      (hwidth : 1 ≤ row.length ∧ row.length ≤ most)
      (hrow : row = before ++ entry :: after) (hbefore : ∀ e ∈ before, IsEntry nodes e)
      (hentry : ¬IsEntry nodes entry) :
      RowDefect nodes most partition row (.nodeIndex partition entry nodes)
  | repeated {i : Nat} (hwidth : 1 ≤ row.length ∧ row.length ≤ most)
      (hentries : ∀ e ∈ row, IsEntry nodes e) (htwice : 2 ≤ row.count (i : Int))
      (hleast : ∀ j : Nat, 2 ≤ row.count (j : Int) → i ≤ j) :
      RowDefect nodes most partition row (.repeatedNode partition i)

/-- What is reported of servers and a partition map with which something is wrong before the rows:
the first that is wrong of the servers, the number of replicas and the number of partitions. -/
inductive MapDefect (servers : List String) (replicaCount : Nat) (map : List (List Int))
    (maxReplicas : Nat) : Malformed → Prop where
  | noNodes (hnone : servers = []) : MapDefect servers replicaCount map maxReplicas .noNodes
  | address {before after : List String} {a : String} (hservers : servers = before ++ a :: after)
      (hbefore : ∀ b ∈ before, IsServer b) (ha : ¬IsServer a) :
      MapDefect servers replicaCount map maxReplicas (.address a)
  | replicaCount (hserver : servers ≠ []) (haddresses : ∀ a ∈ servers, IsServer a)
      (hcount : maxReplicas < replicaCount) :
      MapDefect servers replicaCount map maxReplicas (.replicaCount replicaCount maxReplicas)
  | partitionCount (hserver : servers ≠ []) (haddresses : ∀ a ∈ servers, IsServer a)
      (hcount : replicaCount ≤ maxReplicas) (hpower : ¬map.length.isPowerOfTwo) :
      MapDefect servers replicaCount map maxReplicas (.partitionCount map.length)

/-- What is reported of servers and a partition map that do not fit: what is wrong before the rows,
else the defect of the first row that has one. -/
inductive Defect (servers : List String) (replicaCount : Nat) (map : List (List Int))
    (maxReplicas : Nat) : Malformed → Prop where
  | map {e : Malformed} (hmap : MapDefect servers replicaCount map maxReplicas e) :
      Defect servers replicaCount map maxReplicas e
  | row {before after : List (List Int)} {row : List Int} {e : Malformed}
      (hfits : MapFits servers replicaCount map maxReplicas) (hsplit : map = before ++ row :: after)
      (hbefore : ∀ r ∈ before, RowFits servers.length (replicaCount + 1) r)
      (hrow : RowDefect servers.length (replicaCount + 1) before.length row e) :
      Defect servers replicaCount map maxReplicas e

namespace Table

/-- A table that lays the rows of a partition map out over active nodes: the first entry of a row is
the primary, the next ones are the replicas, and -1 or a missing entry is no node. -/
structure Reproduces (name : String) (rev : Int) (servers : List String) (replicaCount : Nat)
    (map : List (List Int)) (t : Table) : Prop where
  kind : t.kind = .partitioned
  name : t.name = name
  rev : t.rev = rev
  nodes : t.registry.nodes = servers.mapIdx fun index address => ⟨index, address, .active⟩
  partitionCount : t.partitionCount = map.length
  rows : ∀ partition row, map[partition]? = some row → ∃ p, t.partition? partition = some p ∧
    p.primary = row[0]?.bind Int.toNat? ∧ p.replicas.length = replicaCount ∧
    ∀ slot < replicaCount, p.replicas[slot]? = some (row[slot + 1]?.bind Int.toNat?)
  replicaCount : t.replicaCount = replicaCount

/-! ## The checks -/

theorem checkServers_eq_ok_iff_isServer (servers : List String) :
    checkServers servers = .ok () ↔ servers ≠ [] ∧ ∀ a ∈ servers, IsServer a := by
  simp only [checkServers_eq_ok_iff, Address.isValid_iff, IsServer]

theorem checkServers_eq_error_iff (servers : List String) (e : Malformed) :
    checkServers servers = .error e ↔ (servers = [] ∧ e = .noNodes) ∨
      ∃ before a after, servers = before ++ a :: after ∧ (∀ b ∈ before, IsServer b) ∧
        ¬IsServer a ∧ e = .address a := by
  unfold checkServers
  split
  · rename_i hempty
    rw [List.isEmpty_iff] at hempty
    subst hempty
    simp only [Except.error.injEq, true_and, List.append_eq_nil_iff, reduceCtorEq,
      and_false, false_and, exists_false, or_false, eq_comm]
  · rename_i hempty
    rw [List.isEmpty_iff] at hempty
    simp only [hempty, false_and, false_or]
    constructor
    · intro h
      split at h
      · rename_i a hfind
        cases h
        obtain ⟨ha, before, after, hservers, hbefore⟩ := List.find?_eq_some_iff_append.mp hfind
        refine ⟨before, a, after, hservers, fun b hb => ?_, fun hvalid => ?_, rfl⟩
        · have hb' := hbefore b hb
          rw [Bool.not_not, Address.isValid_iff] at hb'
          exact hb'
        · rw [(Address.isValid_iff a).mpr hvalid] at ha
          cases ha
      · cases h
    · rintro ⟨before, a, after, hservers, hbefore, ha, rfl⟩
      have hfind : servers.find? (!Address.isValid ·) = some a := by
        refine List.find?_eq_some_iff_append.mpr ⟨?_, before, after, hservers, fun b hb => ?_⟩
        · rw [Bool.not_eq_true', ← Bool.not_eq_true, Address.isValid_iff]
          exact ha
        · rw [Bool.not_not, Address.isValid_iff]
          exact hbefore b hb
      rw [hfind]

theorem readEntry_eq_ok_iff (nodes partition : Nat) (entry : Int) (o : Option Nat) :
    readEntry nodes partition entry = .ok o ↔ IsEntry nodes entry ∧ o = entry.toNat? := by
  unfold readEntry IsEntry
  split
  · rename_i h
    subst h
    simp only [Except.ok.injEq, true_or, true_and, eq_comm]
    rfl
  · split
    · rename_i hrange
      have hplace : entry.toNat? = some entry.toNat := by
        rw [Int.mem_toNat?]
        omega
      simp only [Except.ok.injEq, hrange, and_self, or_true, hplace, true_and, eq_comm]
    · rename_i hminus hrange
      simp only [reduceCtorEq, hminus, hrange, or_self, false_and]

theorem readEntry_eq_error_iff (nodes partition : Nat) (entry : Int) (e : Malformed) :
    readEntry nodes partition entry = .error e ↔
      ¬IsEntry nodes entry ∧ e = .nodeIndex partition entry nodes := by
  unfold readEntry IsEntry
  split
  · rename_i h
    simp only [reduceCtorEq, h, true_or, not_true_eq_false, false_and]
  · split
    · rename_i hrange
      simp only [reduceCtorEq, hrange, and_self, or_true, not_true_eq_false, false_and]
    · rename_i hminus hrange
      simp only [Except.error.injEq, hminus, hrange, or_self, not_false_eq_true, true_and, eq_comm]

theorem repeated?_eq_some_iff (owners : List Nat) (i : Nat) :
    repeated? owners = some i ↔ 2 ≤ owners.count i ∧ ∀ j, 2 ≤ owners.count j → i ≤ j := by
  have hmem : ∀ j, j ∈ owners.filter (fun i => 1 < owners.count i) ↔ 2 ≤ owners.count j := by
    intro j
    rw [List.mem_filter, decide_eq_true_eq]
    constructor
    · exact fun h => h.2
    · exact fun h => ⟨List.count_pos_iff.mp (by omega), h⟩
  unfold repeated?
  simp only [List.min?_eq_some_iff, hmem]

-- A row names a place as often as its entries are that number.
theorem count_places (row : List Int) (i : Nat) :
    ((row.map Int.toNat?).filterMap id).count i = row.count (i : Int) := by
  rw [List.filterMap_map, List.count_filterMap, List.count]
  refine List.countP_congr fun entry _ => ?_
  simp only [Function.comp_apply, id_eq, beq_iff_eq, Int.mem_toNat?]

/-! ## Rows -/

variable {nodes replicaCount partition : Nat} {row : List Int}

theorem readOwners_of_width (hwidth : 1 ≤ row.length ∧ row.length ≤ rowWidth replicaCount) :
    readOwners nodes replicaCount partition row = (do
      let owners ← row.mapM (readEntry nodes partition)
      match repeated? (owners.filterMap id) with
      | some index => .error (.repeatedNode partition index)
      | none => .ok owners) := by
  have hwide : (row.isEmpty || decide (rowWidth replicaCount < row.length)) = false := by
    rw [Bool.or_eq_false_iff, List.isEmpty_eq_false_iff, decide_eq_false_iff_not, Nat.not_lt]
    exact ⟨List.length_pos_iff.mp hwidth.1, hwidth.2⟩
  rw [readOwners, hwide]
  rfl

theorem readOwners_of_not_width
    (hwidth : ¬(1 ≤ row.length ∧ row.length ≤ rowWidth replicaCount)) :
    readOwners nodes replicaCount partition row =
      .error (.rowWidth partition row.length (rowWidth replicaCount)) := by
  have hwide : (row.isEmpty || decide (rowWidth replicaCount < row.length)) = true := by
    rw [Bool.or_eq_true, List.isEmpty_iff_length_eq_zero, decide_eq_true_eq]
    omega
  rw [readOwners, hwide]
  rfl

theorem readOwners_eq_ok_iff (owners : List (Option Nat)) :
    readOwners nodes replicaCount partition row = .ok owners ↔
      RowFits nodes (rowWidth replicaCount) row ∧ owners = row.map Int.toNat? := by
  by_cases hwidth : 1 ≤ row.length ∧ row.length ≤ rowWidth replicaCount
  · rw [readOwners_of_width hwidth, Checked.bind_eq_ok_iff]
    constructor
    · rintro ⟨read, hread, h⟩
      obtain ⟨hentries, rfl⟩ := (Checked.mapM_eq_ok_iff_of (readEntry_eq_ok_iff _ _) _ _).mp hread
      split at h
      · cases h
      · rename_i hnone
        cases h
        rw [repeated?_eq_none_iff, List.nodup_iff_count_le_one] at hnone
        refine ⟨⟨hwidth, hentries, fun i => ?_⟩, rfl⟩
        rw [← count_places]
        exact hnone i
    · rintro ⟨hfits, rfl⟩
      refine ⟨row.map Int.toNat?, ?_, ?_⟩
      · exact (Checked.mapM_eq_ok_iff_of (readEntry_eq_ok_iff _ _) _ _).mpr ⟨hfits.entries, rfl⟩
      · have hnone : repeated? ((row.map Int.toNat?).filterMap id) = none := by
          rw [repeated?_eq_none_iff, List.nodup_iff_count_le_one]
          intro i
          rw [count_places]
          exact hfits.distinct i
        rw [hnone]
  · rw [readOwners_of_not_width hwidth]
    constructor
    · intro h
      cases h
    · rintro ⟨hfits, -⟩
      exact absurd hfits.width hwidth

/-- The partition that a row gives. -/
def partitionOfRow (replicaCount : Nat) (row : List Int) : Partition :=
  ⟨(row.map Int.toNat?).head?.join,
    (row.map Int.toNat?).tail ++ List.replicate (replicaCount + 1 - row.length) none⟩

theorem readRow_eq_ok_iff (p : Partition) :
    readRow nodes replicaCount partition row = .ok p ↔
      RowFits nodes (rowWidth replicaCount) row ∧ p = partitionOfRow replicaCount row := by
  rw [readRow, Checked.bind_eq_ok_iff]
  constructor
  · rintro ⟨owners, howners, h⟩
    obtain ⟨hfits, rfl⟩ := (readOwners_eq_ok_iff owners).mp howners
    cases h
    exact ⟨hfits, rfl⟩
  · rintro ⟨hfits, rfl⟩
    exact ⟨_, (readOwners_eq_ok_iff _).mpr ⟨hfits, rfl⟩, rfl⟩

theorem readOwners_eq_error_iff (e : Malformed) :
    readOwners nodes replicaCount partition row = .error e ↔
      RowDefect nodes (rowWidth replicaCount) partition row e := by
  by_cases hwidth : 1 ≤ row.length ∧ row.length ≤ rowWidth replicaCount
  · rw [readOwners_of_width hwidth, Checked.bind_eq_error_iff]
    constructor
    · rintro (h | ⟨owners, howners, h⟩)
      · obtain ⟨before, entry, after, hrow, ⟨ys, hys⟩, hentry⟩ :=
          (Checked.mapM_eq_error_iff _ _ _).mp h
        obtain ⟨hbefore, -⟩ := (Checked.mapM_eq_ok_iff_of (readEntry_eq_ok_iff _ _) _ _).mp hys
        obtain ⟨hinvalid, rfl⟩ := (readEntry_eq_error_iff _ _ _ _).mp hentry
        exact .index hwidth hrow hbefore hinvalid
      · obtain ⟨hentries, rfl⟩ :=
          (Checked.mapM_eq_ok_iff_of (readEntry_eq_ok_iff _ _) _ _).mp howners
        split at h
        · rename_i i hrepeated
          cases h
          rw [repeated?_eq_some_iff] at hrepeated
          simp only [count_places] at hrepeated
          exact .repeated hwidth hentries hrepeated.1 hrepeated.2
        · cases h
    · intro h
      cases h with
      | width h => exact absurd hwidth h
      | @index before after entry _ hrow hbefore hentry =>
        refine .inl ((Checked.mapM_eq_error_iff _ _ _).mpr ⟨before, entry, after, hrow, ?_, ?_⟩)
        · exact ⟨_, (Checked.mapM_eq_ok_iff_of (readEntry_eq_ok_iff _ _) _ _).mpr ⟨hbefore, rfl⟩⟩
        · exact (readEntry_eq_error_iff _ _ _ _).mpr ⟨hentry, rfl⟩
      | @repeated i _ hentries htwice hleast =>
        refine .inr ⟨row.map Int.toNat?, ?_, ?_⟩
        · exact (Checked.mapM_eq_ok_iff_of (readEntry_eq_ok_iff _ _) _ _).mpr ⟨hentries, rfl⟩
        · have hsome : repeated? ((row.map Int.toNat?).filterMap id) = some i := by
            rw [repeated?_eq_some_iff]
            simp only [count_places]
            exact ⟨htwice, hleast⟩
          rw [hsome]
  · rw [readOwners_of_not_width hwidth]
    constructor
    · intro h
      cases h
      exact .width hwidth
    · intro h
      cases h with
      | width => rfl
      | index h => exact absurd h hwidth
      | repeated h => exact absurd h hwidth

-- Nothing fails of a row once its owners are read.
theorem readRow_eq_error_iff (e : Malformed) :
    readRow nodes replicaCount partition row = .error e ↔
      RowDefect nodes (rowWidth replicaCount) partition row e := by
  rw [← readOwners_eq_error_iff, readRow, Checked.bind_eq_error_iff]
  exact or_iff_left fun ⟨_, _, h⟩ => by cases h

/-! ## Partitions -/

theorem primary_partitionOfRow (row : List Int) :
    (partitionOfRow replicaCount row).primary = row[0]?.bind Int.toNat? := by
  cases row with
  | nil => rfl
  | cons entry rest => rfl

theorem length_replicas_partitionOfRow
    (hwidth : 1 ≤ row.length ∧ row.length ≤ replicaCount + 1) :
    (partitionOfRow replicaCount row).replicas.length = replicaCount := by
  rw [partitionOfRow, List.length_append, List.length_tail, List.length_map, List.length_replicate]
  omega

theorem getElem?_replicas_partitionOfRow
    (hwidth : 1 ≤ row.length ∧ row.length ≤ replicaCount + 1) {slot : Nat}
    (hslot : slot < replicaCount) :
    (partitionOfRow replicaCount row).replicas[slot]? =
      some (row[slot + 1]?.bind Int.toNat?) := by
  have htail : (row.map Int.toNat?).tail.length = row.length - 1 := by
    rw [List.length_tail, List.length_map]
  rw [partitionOfRow]
  by_cases hrow : slot + 1 < row.length
  · rw [List.getElem?_append_left (by omega), List.getElem?_tail, List.getElem?_map,
      List.getElem?_eq_getElem hrow]
    rfl
  · rw [List.getElem?_append_right (by omega), List.getElem?_replicate_of_lt (by omega),
      List.getElem?_eq_none (by omega)]
    rfl

/-! ## Tables -/

variable {name : String} {rev : Int} {servers : List String} {map : List (List Int)}
  {maxReplicas : Nat}

-- The rows are read one after the other, each under the number of its partition.
theorem readRows_eq_ok_iff (partitions : List Partition) :
    (map.zipIdx.mapM fun (row, partition) => readRow nodes replicaCount partition row) =
        .ok partitions ↔
      (∀ row ∈ map, RowFits nodes (rowWidth replicaCount) row) ∧
        partitions = map.map (partitionOfRow replicaCount) := by
  rw [Checked.mapM_eq_ok_iff_of
    (P := fun r : List Int × Nat => RowFits nodes (rowWidth replicaCount) r.1)
    (g := fun r => partitionOfRow replicaCount r.1) fun r p => readRow_eq_ok_iff p]
  have hrows : map.zipIdx.map (fun r => partitionOfRow replicaCount r.1) =
      map.map (partitionOfRow replicaCount) := by
    rw [← List.zipIdx_map_fst 0 map, List.map_map, List.zipIdx_map_fst]
    rfl
  rw [hrows]
  refine and_congr_left fun _ => ⟨fun h row hrow => ?_, fun h r hr => ?_⟩
  · rw [← List.zipIdx_map_fst 0 map] at hrow
    obtain ⟨r, hr, rfl⟩ := List.mem_map.mp hrow
    exact h r hr
  · exact h r.1 (List.fst_mem_of_mem_zipIdx hr)

theorem readRows_eq_error_iff (e : Malformed) :
    (map.zipIdx.mapM fun (row, partition) => readRow nodes replicaCount partition row) =
        .error e ↔
      ∃ before row after, map = before ++ row :: after ∧
        (∀ r ∈ before, RowFits nodes (rowWidth replicaCount) r) ∧
        RowDefect nodes (rowWidth replicaCount) before.length row e := by
  rw [Checked.mapM_eq_error_iff]
  constructor
  · rintro ⟨before, ⟨row, partition⟩, after, hsplit, ⟨ys, hys⟩, hrow⟩
    -- the rows before the one that fails are numbered from zero
    obtain ⟨before, rest, rfl, rfl, hrest⟩ := List.zipIdx_eq_append_iff.mp hsplit
    obtain ⟨row, after, rfl, hcons, rfl⟩ := List.zipIdx_eq_cons_iff.mp hrest.symm
    cases hcons
    rw [Nat.zero_add] at hrow
    exact ⟨before, row, after, rfl, ((readRows_eq_ok_iff ys).mp hys).1,
      (readRow_eq_error_iff e).mp hrow⟩
  · rintro ⟨before, row, after, rfl, hbefore, hrow⟩
    refine ⟨before.zipIdx, (row, before.length), after.zipIdx (before.length + 1), ?_, ?_, ?_⟩
    · rw [List.zipIdx_append, List.zipIdx_cons, Nat.zero_add]
    · exact ⟨_, (readRows_eq_ok_iff _).mpr ⟨hbefore, rfl⟩⟩
    · exact (readRow_eq_error_iff e).mpr hrow

theorem checkMap_eq_ok_iff_mapFits :
    checkMap servers replicaCount map maxReplicas = .ok () ↔
      MapFits servers replicaCount map maxReplicas := by
  rw [checkMap_eq_ok_iff, checkServers_eq_ok_iff_isServer]
  constructor
  · rintro ⟨⟨hserver, haddresses⟩, hcount, hpower⟩
    exact ⟨hserver, haddresses, hcount, hpower⟩
  · rintro ⟨hserver, haddresses, hcount, hpower⟩
    exact ⟨⟨hserver, haddresses⟩, hcount, hpower⟩

-- The checks follow one another, so what is reported is what the first one that fails reports.
theorem checkMap_eq_error_iff (e : Malformed) :
    checkMap servers replicaCount map maxReplicas = .error e ↔
      MapDefect servers replicaCount map maxReplicas e := by
  have hvalid := checkServers_eq_ok_iff_isServer servers
  rw [checkMap, Checked.bind_eq_error_iff]
  constructor
  · rintro (h | ⟨⟨⟩, hservers, h⟩)
    · obtain ⟨hnone, rfl⟩ | ⟨before, a, after, hsplit, hbefore, ha, rfl⟩ :=
        (checkServers_eq_error_iff servers e).mp h
      · exact .noNodes hnone
      · exact .address hsplit hbefore ha
    · obtain ⟨hserver, haddresses⟩ := hvalid.mp hservers
      split at h
      · rename_i hcount
        cases h
        exact .replicaCount hserver haddresses hcount
      · rename_i hcount
        split at h
        · rename_i hpower
          rw [Bool.not_eq_true', ← Bool.not_eq_true, isPowerOfTwo_iff] at hpower
          cases h
          exact .partitionCount hserver haddresses (Nat.not_lt.mp hcount) hpower
        · cases h
  · intro h
    cases h with
    | noNodes hnone => exact .inl ((checkServers_eq_error_iff _ _).mpr (.inl ⟨hnone, rfl⟩))
    | address hsplit hbefore ha =>
      exact .inl ((checkServers_eq_error_iff _ _).mpr
        (.inr ⟨_, _, _, hsplit, hbefore, ha, rfl⟩))
    | replicaCount hserver haddresses hcount =>
      exact .inr ⟨(), hvalid.mpr ⟨hserver, haddresses⟩, if_pos hcount⟩
    | partitionCount hserver haddresses hcount hpower =>
      refine .inr ⟨(), hvalid.mpr ⟨hserver, haddresses⟩, ?_⟩
      rw [← isPowerOfTwo_iff, Bool.not_eq_true] at hpower
      rw [if_neg (Nat.not_lt.mpr hcount), hpower]
      rfl

/-- The table that servers and a partition map give if they fit. -/
def laidOut (name : String) (rev : Int) (servers : List String) (replicaCount : Nat)
    (map : List (List Int)) : Table :=
  { kind := .partitioned, name, rev, replicaCount
    partitions := map.map (partitionOfRow replicaCount), registry := .ofAddresses servers }

section Word

-- A row's entries can be counted.
variable (hword : replicaCount + 1 < UInt64.size)

include hword

theorem partitioned_eq_ok_iff (t : Table) :
    partitioned name rev servers replicaCount map maxReplicas = .ok t ↔
      Fits servers replicaCount map maxReplicas ∧
        t = laidOut name rev servers replicaCount map := by
  rw [partitioned, Checked.bind_eq_ok_iff]
  constructor
  · rintro ⟨⟨⟩, hmap, h⟩
    obtain ⟨partitions, hrows, h⟩ := (Checked.bind_eq_ok_iff _ _ _).mp h
    obtain ⟨hfits, rfl⟩ := (readRows_eq_ok_iff partitions).mp hrows
    rw [rowWidth_of_lt hword] at hfits
    cases h
    exact ⟨⟨checkMap_eq_ok_iff_mapFits.mp hmap, hfits⟩, rfl⟩
  · rintro ⟨hfits, rfl⟩
    have hrows := hfits.rows
    rw [← rowWidth_of_lt hword] at hrows
    refine ⟨(), checkMap_eq_ok_iff_mapFits.mpr hfits.toMapFits, ?_⟩
    rw [(readRows_eq_ok_iff _).mpr ⟨hrows, rfl⟩]
    rfl

theorem partitioned_eq_error_iff (e : Malformed) :
    partitioned name rev servers replicaCount map maxReplicas = .error e ↔
      Defect servers replicaCount map maxReplicas e := by
  rw [partitioned, Checked.bind_eq_error_iff, checkMap_eq_error_iff]
  constructor
  · rintro (hmap | ⟨⟨⟩, hmap, h⟩)
    · exact .map hmap
    · rcases (Checked.bind_eq_error_iff _ _ _).mp h with h | ⟨partitions, -, h⟩
      · obtain ⟨before, row, after, hsplit, hbefore, hrow⟩ := (readRows_eq_error_iff e).mp h
        rw [rowWidth_of_lt hword] at hbefore hrow
        exact .row (checkMap_eq_ok_iff_mapFits.mp hmap) hsplit hbefore hrow
      · cases h
  · intro h
    cases h with
    | map hmap => exact .inl hmap
    | row hfits hsplit hbefore hrow =>
      rw [← rowWidth_of_lt hword] at hbefore hrow
      refine .inr ⟨(), checkMap_eq_ok_iff_mapFits.mpr hfits, ?_⟩
      rw [(readRows_eq_error_iff e).mpr ⟨_, _, _, hsplit, hbefore, hrow⟩]
      rfl

theorem comesToSlots_iff :
    comesToSlots servers replicaCount map maxReplicas = true ↔
      MapFits servers replicaCount map maxReplicas ∧
        ∃ first rest, map = first :: rest ∧ RowFits servers.length (replicaCount + 1) first := by
  rw [comesToSlots, Checked.isOk_iff]
  simp only [Checked.bind_eq_ok_iff, readOwners_eq_ok_iff, rowWidth_of_lt hword]
  constructor
  · rintro ⟨_, ⟨⟩, hmap, hrow, -⟩
    have hfits := checkMap_eq_ok_iff_mapFits.mp hmap
    cases map with
    | nil => exact absurd hrow.width.1 (by decide)
    | cons first rest => exact ⟨hfits, first, rest, rfl, hrow⟩
  · rintro ⟨hfits, first, rest, rfl, hrow⟩
    exact ⟨_, (), checkMap_eq_ok_iff_mapFits.mpr hfits, hrow, rfl⟩

end Word

theorem reproduces_laidOut (hfits : Fits servers replicaCount map maxReplicas) :
    (laidOut name rev servers replicaCount map).Reproduces name rev servers replicaCount map where
  kind := rfl
  name := rfl
  rev := rfl
  nodes := rfl
  partitionCount := List.length_map _
  rows := fun partition row hrow => by
    have hwidth := (hfits.rows row (List.mem_of_getElem? hrow)).width
    refine ⟨partitionOfRow replicaCount row, ?_, primary_partitionOfRow row,
      length_replicas_partitionOfRow hwidth,
      fun slot hslot => getElem?_replicas_partitionOfRow hwidth hslot⟩
    rw [partition?, laidOut, List.getElem?_map, hrow, Option.map_some]
  replicaCount := rfl

/-- Building a partitioned table breaks down exactly if there are too many replicas for a list of
slots and nothing is wrong before the rows, nor with the first row. Otherwise servers and a
partition map give a table exactly when they fit, and the table reproduces them; when they do not,
the error is that of the first defect. -/
theorem partitioned_reproduces_or_first_defect (name : String) (rev : Int)
    (servers : List String) (replicaCount : Nat) (map : List (List Int)) (maxReplicas : Nat)
    (hword : replicaCount + 1 < UInt64.size) :
    let built := build? name rev servers replicaCount map maxReplicas
    (built = none ↔ slotLimit ≤ replicaCount ∧ MapFits servers replicaCount map maxReplicas ∧
        ∃ first rest, map = first :: rest ∧ RowFits servers.length (replicaCount + 1) first) ∧
      (built ≠ none →
        ((∃ t, built = some (.ok t)) ↔ Fits servers replicaCount map maxReplicas) ∧
          (∀ t, built = some (.ok t) → t.Reproduces name rev servers replicaCount map) ∧
          ∀ e, built = some (.error e) ↔ Defect servers replicaCount map maxReplicas e) := by
  intro built
  have hnone : built = none ↔ slotLimit ≤ replicaCount ∧
      comesToSlots servers replicaCount map maxReplicas = true := by
    show build? .. = none ↔ _
    unfold build?
    split
    case isTrue h => exact iff_of_true rfl h
    case isFalse h => exact iff_of_false nofun h
  refine ⟨by rw [hnone, comesToSlots_iff hword], fun hsome => ?_⟩
  have hbuilt : built = some (partitioned name rev servers replicaCount map maxReplicas) :=
    if_neg (mt hnone.mpr hsome)
  simp only [hbuilt, Option.some.injEq]
  refine ⟨⟨?_, fun hfits => ?_⟩, fun t ht => ?_, partitioned_eq_error_iff hword⟩
  · rintro ⟨t, ht⟩
    exact ((partitioned_eq_ok_iff hword t).mp ht).1
  · exact ⟨_, (partitioned_eq_ok_iff hword _).mpr ⟨hfits, rfl⟩⟩
  · obtain ⟨hfits, rfl⟩ := (partitioned_eq_ok_iff hword t).mp ht
    exact reproduces_laidOut hfits

theorem partitioned_reproduces_pair :
    let built := build? "b" 4 ["a:1", "[::1]:+2"] 2 [[0, 1, -1], [1]] 3
    let t : Table :=
      { kind := .partitioned, name := "b", rev := 4, replicaCount := 2
        partitions := [⟨some 0, [some 1, none]⟩, ⟨some 1, [none, none]⟩]
        registry := ⟨[⟨0, "a:1", .active⟩, ⟨1, "[::1]:+2", .active⟩]⟩ }
    2 + 1 < UInt64.size ∧ built = some (.ok t) ∧
      t.Reproduces "b" 4 ["a:1", "[::1]:+2"] 2 [[0, 1, -1], [1]] := by
  intro built t
  have hword : 2 + 1 < UInt64.size := by decide
  have hbuilt : built = some (.ok t) := by decide +kernel
  obtain ⟨-, hreproduces⟩ := partitioned_reproduces_or_first_defect "b" 4 ["a:1", "[::1]:+2"] 2
    [[0, 1, -1], [1]] 3 hword
  have hsome : built ≠ none := by
    rw [hbuilt]
    exact nofun
  exact ⟨hword, hbuilt, (hreproduces hsome).2.1 t hbuilt⟩

-- A place that no node has is reported before a node that is named twice.
example : partitioned "b" 1 ["a:1", "a:2"] 2 [[0, 1], [1, 1, 9]] 3 =
    .error (.nodeIndex 1 9 2) := by decide +kernel

/-- A text that spells a host that is not empty and a port of 16 bits without a sign. -/
def HasPlainPort (s : String) : Prop :=
  ∃ host digits, s.toList = host ++ ':' :: digits ∧ host ≠ [] ∧ digits ≠ [] ∧
    (∀ c ∈ digits, c.isDigit) ∧ Address.decimalValue digits < UInt16.size

-- A port may have a plus sign, and servers and a map that fit do not give a table for every number
-- of replicas: the slots of a row may be too many, and the largest count leaves no row its primary.
theorem built_of_signed_port_not_of_all_slots :
    (¬ HasPlainPort "a:+1" ∧ ∃ t, build? "" 1 ["a:+1"] 0 [[0]] 0 = some (.ok t)) ∧
      HasPlainPort "a:1" ∧ (∀ count, Fits ["a:1"] count [[0]] count) ∧
        build? "" 1 ["a:1"] slotLimit [[0]] slotLimit = none ∧
        build? "" 1 ["a:1"] (UInt64.size - 1) [[0]] (UInt64.size - 1) =
          some (.error (.rowWidth 0 1 0)) := by
  have hsigned : ¬ HasPlainPort "a:+1" := by
    rintro ⟨host, digits, hs, -, -, hdigits, -⟩
    -- what stands behind the last colon begins with the sign
    have hsplit := Address.splitLast_append host digits (Address.colon_not_mem_of_digits hdigits)
    rw [← hs] at hsplit
    cases hsplit
    exact absurd (hdigits '+' (by decide)) (by decide)
  have hplain : HasPlainPort "a:1" :=
    ⟨['a'], ['1'], rfl, by decide, by decide, List.forall_mem_singleton.mpr rfl, by decide⟩
  have hserver : IsServer "a:1" :=
    ⟨['a'], 1, ⟨[], ['1'], rfl, .inl rfl, by decide, List.forall_mem_singleton.mpr rfl, rfl⟩,
      by decide, by decide⟩
  have hrow (count : Nat) : RowFits 1 (count + 1) [0] := by
    refine ⟨⟨Nat.one_pos, Nat.le_add_left 1 count⟩, fun entry hentry => ?_,
      fun i => List.count_le_length⟩
    rw [List.mem_singleton.mp hentry]
    exact .inr (by decide)
  have hfits (count : Nat) : Fits ["a:1"] count [[0]] count :=
    { hasServer := by decide
      addresses := fun a ha => List.mem_singleton.mp ha ▸ hserver
      replicaCount_le := le_rfl
      powerOfTwo := ⟨0, rfl⟩
      rows := fun row hmem => List.mem_singleton.mp hmem ▸ hrow count }
  exact ⟨⟨hsigned, _, rfl⟩, hplain, hfits, by decide +kernel, by decide +kernel⟩

end Table

end ClusterClient
