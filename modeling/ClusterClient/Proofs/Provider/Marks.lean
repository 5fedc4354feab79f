import ClusterClient.Proofs.Provider.Published
import ClusterClient.Proofs.ReplicaRead.Requests
import ClusterClient.Proofs.Topology.Apart
import ClusterClient.Proofs.Topology.Targets
/-!
# Marked nodes

A node that is marked as not active stays so until it is marked again or another descriptor takes
the table's place, and nothing is sent to it. The mark finds the first node of an address only, so
that a second node of the same address is still reached.
-/

namespace ClusterClient

namespace Table

variable {t u v : Table} {address other key : String} {state : NodeState} {partition : Nat}
  {changes : List (String × NodeState)}

/-! ## Marks on a table -/

/-- The first node of an address is not active. -/
def IsDown (t : Table) (address : String) : Prop :=
  ∀ i n, t.registry.place? address = some i → t.registry.get? i = some n → n.isActive = false

theorem isDown_withState (t : Table) (address : String) (hstate : state ≠ .active) :
    (t.withState address state).IsDown address := by
  intro i n hplace hn
  rw [(t.sameLayout_withState address state).place?] at hplace
  rw [get?_withState] at hn
  obtain ⟨m, -, rfl⟩ := Option.map_eq_some_iff.mp hn
  rw [if_pos hplace]
  exact beq_eq_false_iff_ne.mpr hstate

theorem IsDown.withState (h : t.IsDown address) (hmark : other = address → state ≠ .active) :
    (t.withState other state).IsDown address := by
  intro i n hplace hn
  rw [(t.sameLayout_withState other state).place?] at hplace
  rw [get?_withState] at hn
  obtain ⟨m, hm, rfl⟩ := Option.map_eq_some_iff.mp hn
  split
  · rename_i hother
    have haddress := Registry.address_of_place? hplace hm
    have hsame := (Registry.address_of_place? hother hm).symm.trans haddress
    exact beq_eq_false_iff_ne.mpr (hmark hsame)
  · exact h i m hplace hm

theorem IsDown.remarked (h : t.IsDown address)
    (hchanges : ∀ change ∈ changes, change.1 = address → change.2 ≠ .active) :
    (t.remarked changes).IsDown address := by
  induction changes generalizing t with
  | nil => exact h
  | cons change changes ih =>
    rw [List.forall_mem_cons] at hchanges
    exact ih (h.withState hchanges.1) hchanges.2

-- No mark finds a node that is not the first of its address.
theorem get?_remarked_of_not_first {i : Nat} {n : Node} (hn : t.registry.get? i = some n)
    (hi : t.registry.place? n.address ≠ some i) (changes : List (String × NodeState)) :
    (t.remarked changes).registry.get? i = some n := by
  induction changes generalizing t with
  | nil => exact hn
  | cons change changes ih =>
    refine ih ?_ ?_
    · have hother : t.registry.place? change.1 ≠ some i := fun hplace =>
        hi ((Registry.address_of_place? hplace hn).symm ▸ hplace)
      rw [get?_withState, hn, Option.map_some, if_neg hother]
    · rw [(t.sameLayout_withState _ _).place?]
      exact hi

/-- A partition assigns an active node of an address that is not the first one of that address. -/
def AssignsTwin (t : Table) (address : String) (partition : Nat) : Prop :=
  ∃ i ∈ t.owners partition, t.registry.place? address ≠ some i ∧
    ∃ n, t.registry.get? i = some n ∧ n.address = address ∧ n.isActive = true

-- With an address for each node, a partition assigns no second one.
theorem not_assignsTwin (h : (t.registry.nodes.map (·.address)).Nodup) (address : String)
    (partition : Nat) : ¬ t.AssignsTwin address partition := by
  rintro ⟨i, -, hplace, n, hn, rfl, -⟩
  exact hplace (Registry.place?_of_nodup h hn)

-- Once the first node of an address is down, what marks leave to be reached of that address are the
-- other nodes of it.
theorem reachable_remarked_iff (hdown : (t.remarked changes).IsDown address) :
    address ∈ ((t.remarked changes).reachable partition).map (·.address) ↔
      t.AssignsTwin address partition := by
  have hlayout := t.sameLayout_remarked changes
  rw [List.mem_map]
  constructor
  · rintro ⟨n, hn, rfl⟩
    obtain ⟨hactive, i, hi, hget⟩ := mem_reachable_iff.mp hn
    have hplace : t.registry.place? n.address ≠ some i := by
      intro hplace
      have hinactive := hdown i n (by rw [hlayout.place?, hplace]) hget
      rw [hactive] at hinactive
      cases hinactive
    -- the node is that of the table before, as no mark has found it
    obtain ⟨m, hm, haddress⟩ := Registry.exists_get?_of_addresses hlayout.addresses hget
    have hsame := get?_remarked_of_not_first hm (by rw [haddress]; exact hplace) changes
    cases hsame.symm.trans hget
    exact ⟨i, by rw [← hlayout.owners]; exact hi, hplace, n, hm, rfl, hactive⟩
  · rintro ⟨i, hi, hplace, n, hn, rfl, hactive⟩
    refine ⟨n, mem_reachable_iff.mpr ⟨hactive, i, ?_, ?_⟩, rfl⟩
    · rw [hlayout.owners]
      exact hi
    · exact get?_remarked_of_not_first hn hplace changes

/-! ## Requests -/

/-- Where a condition holds, and there only, requests for a key that start with a table go to an
address: those of its route, of a round over the route and of a replica read. -/
structure Reaches (t : Table) (key address : String) (condition : Prop) : Prop where
  route : ∀ r, t.route key = .ok r → (address ∈ r.targets.map (·.address) ↔ condition)
  round : ∀ r, t.route key = .ok r →
    ∀ {W : Type} (s : Surroundings W) (w : W) (now window : Nat) (cas : UInt64),
      let asked := (Round.run s.traced (w, .start now) now window key cas r).1.2.asked
      address ∈ asked.map (·.address) ↔ condition
  readTargets :
    address ∈ (ReplicaRead.targets t (t.partitionOf key)).map (·.2.address) ↔ condition
  -- The caller may let go of a read before it has asked anyone.
  read : ∀ {W : Type} (s : Surroundings W) (w : W) (limit : Duration) (now : Nat),
    s.table w = some t →
      let asked := (ReplicaRead.run s.traced limit key (w, .start now) now).2.2.asked
      address ∈ asked.map (·.address) → condition

theorem reaches_of_reachable {condition : Prop}
    (ht : ∀ p ∈ t.partitions, p.replicas.length = t.replicaCount)
    (h : address ∈ (t.reachable (t.partitionOf key)).map (·.address) ↔ condition) :
    t.Reaches key address condition := by
  have hroute : ∀ r, t.route key = .ok r → (address ∈ r.targets.map (·.address) ↔ condition) := by
    intro r hr
    rw [targets_eq_reachable ht hr]
    exact h
  have hreads : address ∈ (ReplicaRead.targets t (t.partitionOf key)).map (·.2.address) ↔
      condition := by
    have hperm : ((ReplicaRead.targets t (t.partitionOf key)).map (·.2)).Perm
        (t.reachable (t.partitionOf key)) := readTargets_perm ht
    have haddresses := hperm.map (·.address)
    rw [List.map_map] at haddresses
    exact haddresses.mem_iff.trans h
  refine ⟨hroute, ?_, hreads, ?_⟩
  · intro r hr W s w now window cas
    rw [Round.asked_run_traced]
    exact hroute r hr
  · intro W s w limit now htable asked hasked
    obtain ⟨answer, v, trace, htraced, -, hcourse⟩ :=
      ReplicaRead.run_traced s limit key w now htable
    have hasked' : asked = trace.asked := by
      simp only [asked, htraced]
    rw [hasked'] at hasked
    rcases hcourse.asked with hnone | htargets
    · rw [hnone] at hasked
      cases hasked
    · rw [htargets, List.map_map] at hasked
      exact hreads.mp hasked

end Table

namespace System

variable {x : System} {t : Table} {address : String}

/-! ## Runs after a mark -/

/-- An action that publishes no table from a descriptor and does not mark an address active. -/
def LeavesDown (x : System) (address : String) : Action → Prop
  | .mark other state => other = address → state ≠ .active
  | a => (x.step a).provider.publications = x.provider.publications

/-- A run of such actions. -/
def Undisturbed (address : String) (x : System) : List Action → Prop
  | [] => True
  | a :: as => x.LeavesDown address a ∧ (x.step a).Undisturbed address as

theorem table_mark (ht : x.provider.table = some t) (address : String) (state : NodeState) :
    (x.step (.mark address state)).provider.table = some (t.withState address state) := by
  cases hmark : t.setNodeState? address state with
  | none =>
    have hnone : x.provider.markNode? address state = none := by
      rw [Provider.markNode?, ht, Option.bind_some, hmark, Option.map_none]
    rw [Table.withState, hmark, Option.getD_none]
    simp only [step, hnone, ht]
  | some u =>
    have hsome : x.provider.markNode? address state = some (x.provider.setTable u) := by
      rw [Provider.markNode?, ht, Option.bind_some, hmark, Option.map_some]
    rw [Table.withState_of_setNodeState? hmark]
    simp only [step, hsome]
    rfl

-- An action that publishes nothing leaves the table in force.
theorem table_of_publications {a : Action}
    (h : (x.step a).provider.publications = x.provider.publications) :
    (x.step a).provider.table = x.provider.table := by
  cases (x.step_publishes a).1 with
  | nothing htable hnumber => exact htable
  | parsed hparse htable hnumber => omega
  | marked hold hmark htable hnumber => omega

theorem LeavesDown.table {a : Action} (h : x.LeavesDown address a)
    (ht : x.provider.table = some t) :
    ∃ changes, (x.step a).provider.table = some (t.remarked changes) ∧
      ∀ change ∈ changes, change.1 = address → change.2 ≠ .active := by
  have hkept : (x.step a).provider.publications = x.provider.publications →
      ∃ changes, (x.step a).provider.table = some (t.remarked changes) ∧
        ∀ change ∈ changes, change.1 = address → change.2 ≠ .active := fun hnumber =>
    ⟨[], (table_of_publications hnumber).trans ht, fun _ hchange => by cases hchange⟩
  cases a with
  | mark other state =>
    refine ⟨[(other, state)], table_mark ht other state, ?_⟩
    rw [List.forall_mem_singleton]
    exact h
  | bootstrap => exact hkept h
  | signal => exact hkept h
  | resume place result => exact hkept h
  | leave place => exact hkept h
  | abort place => exact hkept h
  | reconfigure text => exact hkept h

-- After a run of such actions the table in force is the one before, with marks.
theorem Undisturbed.table {as : List Action} (h : x.Undisturbed address as)
    (ht : x.provider.table = some t) :
    ∃ changes, (x.run as).provider.table = some (t.remarked changes) ∧
      ∀ change ∈ changes, change.1 = address → change.2 ≠ .active := by
  induction as generalizing x t with
  | nil => exact ⟨[], ht, fun _ hchange => by cases hchange⟩
  | cons a as ih =>
    obtain ⟨first, hfirst, hinactive⟩ := h.1.table ht
    obtain ⟨later, hlater, hinactive'⟩ := ih h.2 hfirst
    refine ⟨first ++ later, ?_, List.forall_mem_append.mpr ⟨hinactive, hinactive'⟩⟩
    rw [run_cons, hlater, Table.remarked, Table.remarked, Table.remarked, List.foldl_append]

/-- A mark that succeeds changes the states of nodes of its address only, and the rest of the table
not at all. Until a table from a descriptor is published or the address is marked active, what is
sent for a key goes to that address exactly if the key's partition assigns an active node of the
address that is not the first one, which the mark has not found. There is none where no two nodes
have one address. -/
theorem marked_reached_iff_twin (maxReplicas : Nat) (binaryReports httpReports : Source)
    (as : List Action) (address : String) (state : NodeState) (p : Provider) :
    let x := (start maxReplicas binaryReports httpReports).run as
    let y := x.step (.mark address state)
    x.provider.markNode? address state = some p → state ≠ .active →
      ∃ t u, x.provider.table = some t ∧ y.provider.table = some u ∧ t.SameLayout u ∧
        (∀ i n, t.registry.get? i = some n → n.address ≠ address →
          u.registry.get? i = some n) ∧
        ∀ bs, y.Undisturbed address bs → ∃ v, (y.run bs).provider.table = some v ∧
          ∀ key, v.Reaches key address (t.AssignsTwin address (v.partitionOf key)) ∧
            ((t.registry.nodes.map (·.address)).Nodup →
              ¬ t.AssignsTwin address (v.partitionOf key)) := by
  intro x y hmark hstate
  obtain ⟨_, hbind, _⟩ := Option.map_eq_some_iff.mp hmark
  obtain ⟨t, ht, _⟩ := Option.bind_eq_some_iff.mp hbind
  have hy : y.provider.table = some (t.withState address state) := table_mark ht address state
  refine ⟨t, _, ht, hy, t.sameLayout_withState address state, ?_, ?_⟩
  · intro i n hn hother
    have hplace : t.registry.place? address ≠ some i := fun hplace =>
      hother (Registry.address_of_place? hplace hn)
    rw [Table.get?_withState, hn, Option.map_some, if_neg hplace]
  · intro bs hbs
    obtain ⟨changes, htable, hinactive⟩ := hbs.table hy
    refine ⟨_, htable, fun key => ⟨Table.reaches_of_reachable ?_ ?_, fun haddresses =>
      Table.not_assignsTwin haddresses address _⟩⟩
    · have hwell := servesWell_run (servesWell_start maxReplicas binaryReports httpReports) as
      have hlayout := t.sameLayout_remarked ((address, state) :: changes)
      exact hlayout.slots (hwell.table t ht).slots
    · have hdown : (t.remarked ((address, state) :: changes)).IsDown address :=
        (t.isDown_withState address hstate).remarked hinactive
      exact Table.reachable_remarked_iff hdown

/-- The table after its second node was marked inactive. -/
def pairDown : Table :=
  { pairTable with registry := ⟨[⟨0, "a:1", .active⟩, ⟨1, "a:2", .inactive⟩]⟩ }

-- The replica of a key is marked inactive, and then a signal comes and the primary is marked twice.
theorem marked_unreached_pair :
    let x := (start 3 .binary .http).run pairRun
    let y := x.step (.mark "a:2" .inactive)
    let later := [.signal, .mark "a:1" .suspected, .mark "a:1" .active]
    (∃ p, x.provider.markNode? "a:2" .inactive = some p) ∧ y.Undisturbed "a:2" later ∧
      ∃ v r, (y.run later).provider.table = some v ∧ v.route "k" = .ok r ∧
        "a:2" ∉ r.targets.map (·.address) := by
  have hmarks := marked_reached_iff_twin 3 .binary .http pairRun "a:2" .inactive
  have hx : ((start 3 .binary .http).run pairRun).provider.table = some pairTable := by
    decide +kernel
  have hsignal : ∀ x : System,
      (x.step .signal).provider.publications = x.provider.publications := by
    intro x
    simp only [step, Provider.signalOutdated]
    split <;> rfl
  have hroute : pairDown.route "k" = .ok ⟨0, ⟨0, "a:1", .active⟩, [none], pairDown⟩ := by
    decide +kernel
  -- the provider before the mark is only known by its table from here on
  generalize (start 3 .binary .http).run pairRun = x at hmarks hx ⊢
  intro x y later
  have hmark : x.provider.markNode? "a:2" .inactive = some (x.provider.setTable pairDown) := by
    rw [Provider.markNode?, hx]
    rfl
  have hundisturbed : y.Undisturbed "a:2" later :=
    ⟨hsignal y, fun hsame => absurd hsame (by decide), fun hsame => absurd hsame (by decide),
      trivial⟩
  obtain ⟨t, u, ht, hu, -, -, hlater⟩ := hmarks _ hmark (by decide)
  cases hx.symm.trans ht
  obtain ⟨v, hv, hreaches⟩ := hlater later hundisturbed
  obtain ⟨hreached, hnot⟩ := hreaches "k"
  have hdown : (y.run later).provider.table = some pairDown := by
    have hsignalled := (table_of_publications (hsignal y)).trans (table_mark hx "a:2" .inactive)
    exact table_mark (table_mark hsignalled "a:1" .suspected) "a:1" .active
  cases hv.symm.trans hdown
  have hunreached := (hreached.route _ hroute).not.mpr (hnot (by decide))
  exact ⟨⟨_, hmark⟩, hundisturbed, pairDown, _, hdown, hroute, hunreached⟩

/-- A simple table on two nodes of one address. -/
def twinsTable : Table :=
  { kind := .simple, name := "", rev := 1, replicaCount := 0
    partitions := [⟨some 0, []⟩, ⟨some 1, []⟩]
    registry := .ofAddresses ["a:11210", "a:11210"] }

/-- The table is pushed, as a descriptor that leaves the ports out. -/
def twinsRun : List Action :=
  let node := "\x7b\"hostname\":\"a\"\x7d"
  [.reconfigure ("\x7b\"rev\":1,\"nodes\":[" ++ node ++ "," ++ node ++ "]\x7d")]

-- Of two nodes of one address the mark finds the first, and a key of the second is still routed to
-- that address.
theorem marked_reached_twin :
    ¬ ∀ as address state p,
      let x := (start 3 .binary .http).run as
      let y := x.step (.mark address state)
      x.provider.markNode? address state = some p → state ≠ .active →
        ∀ bs, y.Undisturbed address bs → ∀ key r,
          route (y.run bs).provider.table key = .ok r → address ∉ r.targets.map (·.address) := by
  intro h
  let x := (start 3 .binary .http).run twinsRun
  have hx : x.provider.table = some twinsTable := by decide +kernel
  let down := twinsTable.withState "a:11210" .inactive
  have hmark : x.provider.markNode? "a:11210" .inactive = some (x.provider.setTable down) := by
    rw [Provider.markNode?, hx]
    rfl
  have hroute : down.route "a" = .ok ⟨1, ⟨1, "a:11210", .active⟩, [], down⟩ := by decide +kernel
  have htable := table_mark hx "a:11210" .inactive
  have hinForce :
      route (x.step (.mark "a:11210" .inactive)).provider.table "a" = down.route "a" := by
    rw [htable]
    rfl
  have hmissed := h twinsRun "a:11210" .inactive _ hmark (by decide) [] trivial "a" _
    (hinForce.trans hroute)
  exact absurd hmissed (by decide)

end System

end ClusterClient
