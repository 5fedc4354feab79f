import ClusterClient.Proofs.Durability.CountedNodes
import ClusterClient.Proofs.Durability.Turns
import ClusterClient.Proofs.ReplicaRead.Race
import ClusterClient.Rehearsal.World
/-!
# What a round hears

Each target of a round has its own place in the round's outcomes, and only its own reply counts
there. The round ends as soon as all have completed, or with its window. So a node that hangs takes
nothing from what the others say.
-/

namespace ClusterClient

variable {W V : Type}

theorem Delivery.waited_le_iff {α : Type} {d : Delivery α} {window n : Nat} :
    d.waited window ≤ n ↔ window ≤ n ∨ ∃ after, d.after = some after ∧ after ≤ n := by
  obtain ⟨after, result⟩ := d
  cases after with
  | none => exact ⟨.inl, fun h => h.resolve_right nofun⟩
  | some after =>
    show ((some after).filter (· ≤ window)).getD window ≤ n ↔ _
    rw [Option.filter_some]
    by_cases hin : after ≤ window
    · rw [if_pos (decide_eq_true hin), Option.getD_some]
      refine ⟨fun h => .inr ⟨after, rfl, h⟩, ?_⟩
      rintro (hwindow | ⟨_, hafter, h⟩)
      · exact hin.trans hwindow
      · exact Option.some.inj hafter ▸ h
    · rw [if_neg (mt of_decide_eq_true hin), Option.getD_none]
      refine ⟨.inl, ?_⟩
      rintro (hwindow | ⟨_, hafter, h⟩)
      · exact hwindow
      · cases hafter
        exact (Nat.le_of_not_le hin).trans h

namespace Round

variable {nodes : List Node} {node : Node} {i : Nat} {r : Round} {cas : UInt64}

/-! ## One round -/

-- What a target delivers, it delivers where those before it have been asked.
theorem getElem?_broadcast (h : nodes[i]? = some node) (s : Surroundings W) (w : W) (now : Nat)
    (key : String) (cas : UInt64) (partition : Nat) :
    (broadcast s w now key cas partition nodes).2[i]? =
      some (s.observe (broadcast s w now key cas partition (nodes.take i)).1 now node key cas
        partition).2 := by
  induction nodes generalizing w i with
  | nil => cases h
  | cons first rest ih =>
    cases i with
    | zero =>
      cases h
      rfl
    | succ i => exact ih h _

theorem getElem?_outcomes (r : Round) (cas : UInt64) (i : Nat) :
    (r.outcomes cas)[i]? = r.deliveries[i]?.map (outcome cas r.window) := List.getElem?_map

-- A round ends when its window is over, or before if all have completed.
theorem ended_le_iff (r : Round) (tick : Nat) :
    r.ended ≤ tick ↔ r.started ≤ tick ∧ (r.started + r.window ≤ tick ∨
      ∀ d ∈ r.deliveries, ∃ after, d.after = some after ∧ r.started + after ≤ tick) := by
  have hwaits : ∀ n, (r.deliveries.map (·.waited r.window)).foldl max 0 ≤ n ↔
      r.window ≤ n ∨ ∀ d ∈ r.deliveries, ∃ after, d.after = some after ∧ after ≤ n := by
    intro n
    have hall : (r.deliveries.map (·.waited r.window)).foldl max 0 ≤ n ↔
        ∀ ticks ∈ r.deliveries.map (·.waited r.window), ticks ≤ n :=
      ⟨fun h _ hticks => (ReplicaRead.le_foldl_max hticks).trans h, ReplicaRead.foldl_max_le⟩
    rw [hall, List.forall_mem_map]
    simp only [Delivery.waited_le_iff, forall_or_left]
  constructor
  · intro h
    have hstarted := r.started_le_ended.trans h
    refine ⟨hstarted, ?_⟩
    have hwaited := (hwaits (tick - r.started)).mp (Nat.le_sub_of_add_le' h)
    exact hwaited.imp (fun h => by omega) fun h d hd =>
      (h d hd).imp fun after h => ⟨h.1, by omega⟩
  · rintro ⟨hstarted, h⟩
    have hwaited := (hwaits (tick - r.started)).mpr (h.imp (fun h => by omega) fun h d hd =>
      (h d hd).imp fun after h => ⟨h.1, by omega⟩)
    show r.started + _ ≤ tick
    omega

-- The first outcome decides what a tally says of the primary.
theorem tally_primary {o : Outcome} (h : (r.outcomes cas)[0]? = some o) (isDelete : Bool) :
    (Tally.ofOutcomes isDelete (r.marked cas)).masterModified = (o == .modified) ∧
      (Tally.ofOutcomes isDelete (r.marked cas)).masterPersisted = o.isPersisted isDelete := by
  rw [getElem?_outcomes] at h
  cases hdeliveries : r.deliveries with
  | nil =>
    rw [hdeliveries] at h
    cases h
  | cons d ds =>
    rw [hdeliveries] at h
    cases h
    rw [marked_eq hdeliveries, Tally.ofOutcomes_cons]
    exact ⟨rfl, rfl⟩

end Round

/-! ## Two rounds -/

/-- Surroundings in which nodes answer alike, except those at some addresses: states that are alike
stay so whoever is asked, and in them any other node delivers the same. -/
structure AgreeBut (changed : String → Prop) (s : Surroundings W) (s' : Surroundings V)
    (alike : W → V → Prop) : Prop where
  stays : ∀ {w v}, alike w v → ∀ now node key cas partition,
    alike (s.observe w now node key cas partition).1 (s'.observe v now node key cas partition).1
  answers : ∀ {w v}, alike w v → ∀ now node key cas partition, ¬ changed node.address →
    (s.observe w now node key cas partition).2 = (s'.observe v now node key cas partition).2

section Two

variable {s : Surroundings W} {s' : Surroundings V} {changed : String → Prop} {alike : W → V → Prop}
  {w : W} {v : V}

theorem AgreeBut.broadcast (h : AgreeBut changed s s' alike) (halike : alike w v) (now : Nat)
    (key : String) (cas : UInt64) (partition : Nat) (nodes : List Node) :
    alike (Round.broadcast s w now key cas partition nodes).1
      (Round.broadcast s' v now key cas partition nodes).1 := by
  induction nodes generalizing w v with
  | nil => exact halike
  | cons node rest ih => exact ih (h.stays halike now node key cas partition)

-- Another target's delivery is what it would be.
theorem AgreeBut.getElem?_broadcast (h : AgreeBut changed s s' alike) (halike : alike w v)
    {nodes : List Node} {node : Node} {i : Nat} (hnode : nodes[i]? = some node)
    (hchanged : ¬ changed node.address) (now : Nat) (key : String) (cas : UInt64)
    (partition : Nat) :
    (Round.broadcast s w now key cas partition nodes).2[i]? =
      (Round.broadcast s' v now key cas partition nodes).2[i]? := by
  rw [Round.getElem?_broadcast hnode, Round.getElem?_broadcast hnode]
  have hbefore := h.broadcast halike now key cas partition (nodes.take i)
  exact congrArg some (h.answers hbefore now node key cas partition hchanged)

end Two

namespace Rehearsal.World

theorem valueOf?_setEntry {α : Type} (key other : String) (value : α)
    (entries : List (String × α)) : valueOf? other (setEntry key value entries) =
      if key = other then some value else valueOf? other entries := by
  rw [valueOf?, setEntry]
  by_cases h : key = other
  · rw [if_pos h, List.find?_cons_of_pos (by simpa only [beq_iff_eq] using h)]
    rfl
  · -- an entry of the other key is never one that is replaced
    have hkept : (fun entry : String × α =>
        decide ((entry.1 != key) = true ∧ (entry.1 == other) = true)) = (·.1 == other) := by
      funext entry
      rw [Bool.eq_iff_iff, decide_eq_true_eq]
      exact and_iff_right_of_imp fun hother => bne_iff_ne.mpr fun hkey =>
        h (hkey.symm.trans (beq_iff_eq.mp hother))
    rw [if_neg h, List.find?_cons_of_neg (by simpa only [beq_iff_eq] using h), List.find?_filter,
      hkept]
    rfl

/-- Worlds in which the nodes follow the same scripts, except those at some addresses. -/
def Scripted (changed : String → Prop) (w v : World) : Prop :=
  ∀ address, ¬ changed address →
    valueOf? address w.observeScripts = valueOf? address v.observeScripts

theorem agreeBut_surroundings (changed : String → Prop) :
    AgreeBut changed surroundings surroundings (Scripted changed) where
  stays := by
    intro w v h now node key cas partition address hchanged
    show valueOf? address (setEntry node.address _ _) = valueOf? address (setEntry node.address _ _)
    rw [valueOf?_setEntry, valueOf?_setEntry, h address hchanged]
    by_cases haddress : node.address = address
    · rw [haddress, h address hchanged]
    · rw [if_neg haddress, if_neg haddress]
  answers := by
    intro w v h now node key cas partition hchanged
    show (Script.next _ ((valueOf? node.address w.observeScripts).getD [])).1 = _
    rw [h node.address hchanged]
    rfl

-- To give one node another script changes nothing for the others.
theorem scripted_onObserve (w : World) (address : String) (script : ObserveScript) :
    Scripted (· = address) w (w.happen (.onObserve address script)).1 := by
  intro other hother
  show _ = valueOf? other (setEntry address script w.observeScripts)
  rw [valueOf?_setEntry, if_neg (Ne.symm hother)]

end Rehearsal.World

namespace Round

open Rehearsal Rehearsal.World

/-- A round has one outcome for each target, in their order: what the target's own report stands for
if it is there within the window, an error otherwise. The round ends when all have completed or with
the window, whichever comes first. Where other nodes answer otherwise, or late, or not at all, a
target has the same outcome, and the tally says the same of the primary. -/
theorem outcomes_of_targets (s : Surroundings W) (w : W) (now window : Nat) (key : String)
    (cas : UInt64) (r : Route) :
    let round := (run s w now window key cas r).2
    (round.outcomes cas).length = r.targets.length ∧
      (∀ (i : Nat) (node : Node), r.targets[i]? = some node → ∃ d,
        d = (s.observe (broadcast s w now key cas r.partition (r.targets.take i)).1 now node key cas
          r.partition).2 ∧ round.deliveries[i]? = some d ∧
          (∀ o, d.Brings window o → ∃ x, (round.outcomes cas)[i]? = some x ∧
            Outcome.OfReport cas o.cas o.state x) ∧
          ((∀ o, ¬ d.Brings window o) → (round.outcomes cas)[i]? = some .error)) ∧
      (∀ tick, round.ended ≤ tick ↔ now ≤ tick ∧ (now + window ≤ tick ∨
        ∀ d ∈ round.deliveries, ∃ after, d.after = some after ∧ now + after ≤ tick)) ∧
      ∀ (V : Type) (s' : Surroundings V) (v : V) (changed : String → Prop) (alike : W → V → Prop),
        AgreeBut changed s s' alike → alike w v →
        let other := (run s' v now window key cas r).2
        (∀ (i : Nat) (node : Node), r.targets[i]? = some node → ¬ changed node.address →
            (round.outcomes cas)[i]? = (other.outcomes cas)[i]?) ∧
          (¬ changed r.primary.address → ∀ isDelete,
            let tally := Tally.ofOutcomes isDelete (round.marked cas)
            let tally' := Tally.ofOutcomes isDelete (other.marked cas)
            tally.masterModified = tally'.masterModified ∧
              tally.masterPersisted = tally'.masterPersisted) := by
  intro round
  have hplace : ∀ (i : Nat) (node : Node), r.targets[i]? = some node →
      round.deliveries[i]? = some (s.observe (broadcast s w now key cas r.partition
        (r.targets.take i)).1 now node key cas r.partition).2 :=
    fun i node hnode => getElem?_broadcast hnode s w now key cas r.partition
  refine ⟨?_, fun i node hnode => ⟨_, rfl, hplace i node hnode, ?_, ?_⟩, round.ended_le_iff, ?_⟩
  · rw [outcomes, List.length_map]
    exact length_broadcast s w now key cas r.partition r.targets
  · intro o hbrings
    rw [getElem?_outcomes, hplace i node hnode, Option.map_some]
    exact ⟨_, rfl, outcome_of_brings hbrings⟩
  · intro hnone
    rw [getElem?_outcomes, hplace i node hnode, Option.map_some]
    exact congrArg some (outcome_eq_error hnone)
  · intro V s' v changed alike hagree halike other
    have hsame : ∀ (i : Nat) (node : Node), r.targets[i]? = some node → ¬ changed node.address →
        (round.outcomes cas)[i]? = (other.outcomes cas)[i]? := by
      intro i node hnode hchanged
      rw [getElem?_outcomes, getElem?_outcomes]
      exact congrArg (·.map (outcome cas window))
        (hagree.getElem?_broadcast halike hnode hchanged now key cas r.partition)
    refine ⟨hsame, fun hchanged isDelete => ?_⟩
    -- the primary is the first target
    have hfirst : (round.outcomes cas)[0]? = some _ :=
      (getElem?_outcomes round cas 0).trans (congrArg _ (hplace 0 r.primary rfl))
    obtain ⟨hmodified, hpersisted⟩ := tally_primary hfirst isDelete
    obtain ⟨hmodified', hpersisted'⟩ :=
      tally_primary ((hsame 0 r.primary rfl hchanged).symm.trans hfirst) isDelete
    exact ⟨hmodified.trans hmodified'.symm, hpersisted.trans hpersisted'.symm⟩

-- The primary answers after one tick. Whether the replica hangs or answers as well, the primary's
-- answer is the same, and only the round takes longer.
theorem outcomes_of_targets_hung :
    let address := "a:2"
    let prompt : World :=
      { settings := {}, blank := { maxReplicas := 3 }
        observeScripts := [("a:1", [⟨some 1, .ok ⟨7, .foundPersisted⟩⟩]),
          (address, [⟨some 2, .ok ⟨7, .foundPersisted⟩⟩])] }
    let hung := (prompt.happen (.onObserve address [⟨none, .error noScript⟩])).1
    let r : Route := ⟨0, ⟨0, "a:1", .active⟩, [some ⟨1, address, .active⟩], Table.pair⟩
    let round := (run surroundings prompt 0 5 "k" 7 r).2
    let other := (run surroundings hung 0 5 "k" 7 r).2
    Scripted (· = address) prompt hung ∧
      (round.outcomes 7)[0]? = (other.outcomes 7)[0]? ∧
      round.outcomes 7 = [.foundPersisted, .foundPersisted] ∧ round.ended = 2 ∧
      other.outcomes 7 = [.foundPersisted, .error] ∧ other.ended = 5 := by
  intro address prompt hung r round other
  have hscripted : Scripted (· = address) prompt hung := scripted_onObserve prompt address _
  obtain ⟨-, -, -, htwo⟩ := outcomes_of_targets surroundings prompt 0 5 "k" 7 r
  obtain ⟨hsame, -⟩ := htwo World surroundings hung _ _ (agreeBut_surroundings _) hscripted
  refine ⟨hscripted, hsame 0 ⟨0, "a:1", .active⟩ rfl (by decide), ?_, ?_, ?_, ?_⟩
  · decide +kernel
  · decide +kernel
  · decide +kernel
  · decide +kernel

end Round

end ClusterClient
