import ClusterClient.Proofs.Durability.Confirmed
import ClusterClient.Proofs.Topology.Apart
import Mathlib.Data.Finset.Image
/-!
# Nodes that count

A round counts replica slots, and keeps its outcomes by address. Where no two targets of its route
have one address, so many slots are so many nodes, none of them the primary, and no outcome is lost.
-/

namespace ClusterClient

variable {α β W : Type}

-- An entry of a list stands at one place, if what is read off the entries tells them apart.
theorem place_unique {l : List (Option α)} {f : α → β} (h : ((l.filterMap id).map f).Nodup)
    {i j : Nat} {a b : α} (hi : l[i]? = some (some a)) (hj : l[j]? = some (some b))
    (hab : f a = f b) : i = j := by
  rw [List.map_filterMap, List.Nodup, List.pairwise_filterMap] at h
  obtain ⟨hilt, hi⟩ := List.getElem?_eq_some_iff.mp hi
  obtain ⟨hjlt, hj⟩ := List.getElem?_eq_some_iff.mp hj
  have hdiffer : ∀ {x y : Nat} (hx : x < l.length) (hy : y < l.length) {c d : α},
      l[x] = some c → l[y] = some d → f c = f d → ¬ x < y := by
    intro x y hx hy c d hc hd hcd hlt
    refine List.pairwise_iff_getElem.mp h x y hx hy hlt (f c) ?_ (f d) ?_ hcd
    · rw [hc]; rfl
    · rw [hd]; rfl
  have hij := hdiffer hilt hjlt hi hj hab
  have hji := hdiffer hjlt hilt hj hi hab.symm
  omega

namespace Round

/-! ## Outcomes by address -/

theorem assign_of_not_mem {address : String} {o : Outcome} {found : List (String × Outcome)}
    (h : address ∉ found.map (·.1)) : assign address o found = found ++ [(address, o)] := by
  induction found with
  | nil => rfl
  | cons entry rest ih =>
    obtain ⟨a, old⟩ := entry
    rw [List.map_cons, List.mem_cons, not_or] at h
    rw [assign, if_neg fun ha => h.1 ha.symm, ih h.2]
    rfl

theorem foldl_assign {found : List (String × Outcome)} {xs : List (Node × Outcome)}
    (h : (found.map (·.1) ++ xs.map (·.1.address)).Nodup) :
    xs.foldl (fun found (node, o) => assign node.address o found) found =
      found ++ xs.map fun x => (x.1.address, x.2) := by
  induction xs generalizing found with
  | nil => exact (List.append_nil found).symm
  | cons x xs ih =>
    rw [List.map_cons, List.append_cons] at h
    have hnew : x.1.address ∉ found.map (·.1) := by
      have hfirst := (List.nodup_append.mp h).1
      rw [List.nodup_append] at hfirst
      exact fun hmem => hfirst.2.2 _ hmem _ (List.mem_singleton_self _) rfl
    rw [List.foldl_cons]
    show xs.foldl _ (assign x.1.address x.2 found) = _
    rw [assign_of_not_mem hnew, ih, List.append_assoc]
    · rfl
    · rw [List.map_append]
      exact h

-- With an address for each target, each target has one entry, in their order.
theorem byAddress_eq {r : Round} (hcomplete : r.IsComplete)
    (h : (r.route.targets.map (·.address)).Nodup) (cas : UInt64) :
    r.byAddress cas = (r.route.targets.map (·.address)).zip (r.outcomes cas) := by
  have hlength : r.route.targets.length ≤ (r.outcomes cas).length := by
    rw [outcomes, List.length_map, hcomplete]
  have hfst : (r.route.targets.zip (r.outcomes cas)).map (·.1.address) =
      r.route.targets.map (·.address) := by
    have hmap := congrArg (List.map Node.address) (List.map_fst_zip hlength)
    rw [List.map_map] at hmap
    exact hmap
  rw [byAddress, foldl_assign (by rw [hfst]; exact h), List.nil_append, List.zip_map_left]
  rfl

/-! ## Slots and nodes -/

theorem mem_zip_of_bySlot {slots : List (Option Node)} {as : List α} {slot : Nat} {a : α}
    (h : (bySlot slots as)[slot]? = some (some a)) :
    ∃ node, slots[slot]? = some (some node) ∧ (node, a) ∈ (slots.filterMap id).zip as := by
  -- slot by slot, as the entries are put at the slots
  induction slots generalizing as slot with
  | nil => cases h
  | cons first slots ih =>
    cases first with
    | none =>
      cases slot with
      | zero => cases h
      | succ slot => exact ih h
    | some node =>
      cases as with
      | nil =>
        cases slot with
        | zero => cases h
        | succ slot =>
          obtain ⟨_, _, hmem⟩ := ih h
          rw [List.zip_nil_right] at hmem
          cases hmem
      | cons b as =>
        cases slot with
        | zero =>
          cases h
          exact ⟨node, rfl, List.mem_cons_self⟩
        | succ slot =>
          obtain ⟨node', hnode, hmem⟩ := ih h
          exact ⟨node', hnode, List.mem_cons_of_mem _ hmem⟩

/-- A replica of an address has answered in time, with a report that has a property. -/
def AddressAnswers (r : Round) (P : Observation → Prop) (address : String) : Prop :=
  ∃ node d, (node, d) ∈ (r.route.replicas.filterMap id).zip r.deliveries.tail ∧
    node.address = address ∧ ∃ o, d.Brings r.window o ∧ P o

/-- So many nodes have answered in time with a report that has a property, by their addresses, and
none of them has the primary's. -/
def NodesAnswer (r : Round) (P : Observation → Prop) (n : Nat) : Prop :=
  ∃ addresses : Finset String, n ≤ addresses.card ∧ r.route.primary.address ∉ addresses ∧
    ∀ address ∈ addresses, r.AddressAnswers P address

theorem nodesAnswer_of_slots {r : Round} (hnodup : (r.route.targets.map (·.address)).Nodup)
    {P : Observation → Prop} {n : Nat}
    (h : ∃ slots : Finset Nat, n ≤ slots.card ∧ ∀ slot ∈ slots, r.SlotAnswers P slot) :
    r.NodesAnswer P n := by
  rw [Route.targets, List.map_cons, List.nodup_cons] at hnodup
  obtain ⟨slots, hn, hslots⟩ := h
  let addressOf : Nat → String := fun slot =>
    ((r.route.replicas[slot]?).join.map (·.address)).getD ""
  have hnode : ∀ slot ∈ slots, ∃ node, r.route.replicas[slot]? = some (some node) ∧
      addressOf slot = node.address ∧ r.AddressAnswers P node.address := by
    intro slot hslot
    obtain ⟨d, hd, ho⟩ := hslots slot hslot
    obtain ⟨node, hnode, hmem⟩ := mem_zip_of_bySlot hd
    refine ⟨node, hnode, ?_, node, d, hmem, rfl, ho⟩
    simp only [addressOf, hnode, Option.join_some, Option.map_some, Option.getD_some]
  refine ⟨slots.image addressOf, ?_, ?_, ?_⟩
  · rw [Finset.card_image_of_injOn]
    · exact hn
    · intro i hi j hj hij
      obtain ⟨a, ha, haddress, -⟩ := hnode i hi
      obtain ⟨b, hb, hbddress, -⟩ := hnode j hj
      exact place_unique hnodup.2 ha hb (haddress ▸ hbddress ▸ hij)
  · rw [Finset.mem_image]
    rintro ⟨slot, hslot, haddress⟩
    obtain ⟨node, hget, hnodeAddress, -⟩ := hnode slot hslot
    refine hnodup.1 (List.mem_map.mpr ⟨node, ?_, hnodeAddress.symm.trans haddress⟩)
    exact List.mem_filterMap.mpr ⟨_, List.mem_of_getElem? hget, rfl⟩
  · intro address haddress
    obtain ⟨slot, hslot, rfl⟩ := Finset.mem_image.mp haddress
    obtain ⟨node, -, hnodeAddress, hanswers⟩ := hnode slot hslot
    rw [hnodeAddress]
    exact hanswers

end Round

namespace Poll

-- A poll that confirms a durability has broadcast a last round that proves it.
theorem last_round_of_confirmed {s : Surroundings W} {settings : PollSettings}
    {request : DurabilityRequest} {timeout : Option Duration} {cancel : Cancellation} {w : W}
    {now : Nat} (hrequest : ¬ (request.persistTo = .zero ∧ request.replicateTo = .zero))
    (h : (run s settings request timeout cancel w now).answer = some (.ok ())) :
    ∃ earlier last v, (run s settings request timeout cancel w now).rounds = earlier ++ [last] ∧
      last.Proves request ∧ BeganIn s (job settings request timeout cancel now) v last := by
  rw [run_eq s settings timeout cancel w now hrequest] at h ⊢
  obtain ⟨before, left, v, tick, r, -, hends, hrounds⟩ :=
    rounds_spec s (job settings request timeout cancel now) (settings.roundsWithin timeout) w now
  rw [hrounds] at h ⊢
  obtain ⟨last, hlast, -, hproves⟩ := hends.proves h
  refine ⟨before, last, v, congrArg (before ++ ·) hlast, hproves, ?_⟩
  rcases hends.opens with hnone | ⟨round, u, hopens, hround⟩
  · cases hnone.symm.trans hlast
  · cases hround.symm.trans hlast
    exact hopens.beganIn

end Poll

namespace Table

/-! ## Addresses of targets -/

/-- Whatever nodes of a new table are marked, the targets of each route of a key have pairwise
different addresses exactly if the key's partition does not assign two nodes of one address. Then an
observed round has one entry for each target, and a durability that is confirmed by a round over
such a route counts that many nodes, none of which is the primary. -/
theorem target_addresses_nodup_iff {t : Table} (ht : t.Accepted) (key : String) :
    ((∀ changes r, (t.remarked changes).route key = .ok r →
        (r.targets.map (·.address)).Nodup) ↔ t.AddressesApart key) ∧
      (t.AddressesApart key → ∀ {W : Type} (s : Surroundings W),
        (∀ changes r w now window cas, (t.remarked changes).route key = .ok r →
          let round := (Round.run s w now window key cas r).2
          (round.outcomes cas).length = r.targets.length ∧
            round.byAddress cas = (r.targets.map (·.address)).zip (round.outcomes cas)) ∧
        ∀ settings request timeout cancel w now, request.key = key →
          ¬ (request.persistTo = .zero ∧ request.replicateTo = .zero) →
          let report := Poll.run s settings request timeout cancel w now
          report.answer = some (.ok ()) → ∃ earlier last, report.rounds = earlier ++ [last] ∧
            ∀ changes, last.route.table = t.remarked changes →
              last.NodesAnswer (·.ShowsReached request.cas request.isDelete)
                  request.replicateTo.count ∧
                last.NodesAnswer (·.ShowsPersisted request.cas request.isDelete)
                  (request.persistTo.count - 1)) := by
  refine ⟨⟨fun h r hr => ?_, fun h changes r hr => ?_⟩, fun h W s => ⟨?_, ?_⟩⟩
  · exact ht.apart_of_targets_nodup hr (h [] r hr)
  · exact h.targets_nodup ht (t.sameLayout_remarked changes) hr
  · intro changes r w now window cas hr round
    have hnodup := h.targets_nodup ht (t.sameLayout_remarked changes) hr
    have hcomplete := Round.isComplete_run s w now window key cas r
    refine ⟨?_, Round.byAddress_eq hcomplete hnodup cas⟩
    rw [Round.outcomes, List.length_map, hcomplete]
    rfl
  · intro settings request timeout cancel w now hkey hrequest report hok
    obtain ⟨earlier, last, v, hrounds, hproves, hbegan⟩ :=
      Poll.last_round_of_confirmed hrequest hok
    refine ⟨earlier, last, hrounds, fun changes htable => ?_⟩
    have hrouted := hbegan.routed
    rw [htable] at hrouted
    subst hkey
    have hnodup := h.targets_nodup ht (t.sameLayout_remarked changes) hrouted
    exact ⟨Round.nodesAnswer_of_slots hnodup hproves.replicated,
      Round.nodesAnswer_of_slots hnodup hproves.persisted⟩

/-- One partition on two nodes. -/
def pair : Table :=
  { kind := .partitioned, name := "", rev := 1, replicaCount := 1
    partitions := [⟨some 0, [some 1]⟩]
    registry := .ofAddresses ["a:1", "a:2"] }

-- Once the primary and the replica have persisted a mutation, one node beside the primary counts.
theorem target_addresses_nodup_pair :
    let request := { Poll.pairRequest with replicateTo := .one }
    let report := Poll.run Poll.slowPair Poll.pairSettings request none .never 0 0
    pair.Accepted ∧ pair.AddressesApart "k" ∧
      (∀ r, (pair.remarked [("a:2", .suspected)]).route "k" = .ok r →
        (r.targets.map (·.address)).Nodup) ∧
      report.answer = some (.ok ()) ∧ ∃ earlier last, report.rounds = earlier ++ [last] ∧
        last.NodesAnswer (·.ShowsReached 7 false) 1 := by
  intro request report
  have haccepted : pair.Accepted :=
    .partitioned (show partitioned "" 1 ["a:1", "a:2"] 1 [[0, 1]] 3 = .ok pair by rfl)
  have hapart : pair.AddressesApart "k" := by
    intro r _
    show List.Nodup _
    decide +kernel
  have hok : report.answer = some (.ok ()) := by decide +kernel
  have htables : ∀ round ∈ report.rounds, round.route.table = pair.remarked [] := by decide +kernel
  obtain ⟨hnodup, hcounts⟩ := target_addresses_nodup_iff haccepted "k"
  obtain ⟨earlier, last, hrounds, hlast⟩ := (hcounts hapart Poll.slowPair).2 Poll.pairSettings
    request none .never 0 0 rfl (by decide) hok
  have hmem : last ∈ report.rounds := by
    rw [hrounds]
    exact List.mem_append_right _ (List.mem_singleton_self _)
  exact ⟨haccepted, hapart, hnodup.mpr hapart _, hok, earlier, last, hrounds,
    (hlast [] (htables last hmem)).1⟩

/-- One partition on two places of one address. -/
def twins : Table := { pair with registry := .ofAddresses ["a:1", "a:1"] }

-- A row that names two places of one address is accepted, and its route lists that address twice.
theorem target_addresses_twice :
    ¬ ∀ t : Table, t.Accepted → ∀ key changes r, (t.remarked changes).route key = .ok r →
      (r.targets.map (·.address)).Nodup := by
  intro h
  have haccepted : twins.Accepted :=
    .partitioned (show partitioned "" 1 ["a:1", "a:1"] 1 [[0, 1]] 3 = .ok twins by rfl)
  have hroute : twins.route "k" = .ok
      ⟨0, ⟨0, "a:1", .active⟩, [some ⟨1, "a:1", .active⟩], twins⟩ := by decide +kernel
  exact absurd (h twins haccepted "k" [] _ hroute) (by decide)

end Table

end ClusterClient
