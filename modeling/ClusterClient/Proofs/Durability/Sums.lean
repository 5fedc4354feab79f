import ClusterClient.Proofs.Durability.Counts
import Mathlib.Data.List.Perm.Subperm
/-!
# Tallies as sums

Each outcome is counted by itself, whatever was counted before it. So replies may come in in any
order and be counted in parts, and what a round has shown no further reply takes back.
-/

namespace ClusterClient.Tally

variable {isDelete : Bool} {outcomes other : List (Bool × Outcome)}

/-- Two tallies together: their counts are added, and what one of them has seen is seen. -/
instance : Add Tally where
  add s t :=
    { replicated := s.replicated + t.replicated
      replicaPersisted := s.replicaPersisted + t.replicaPersisted
      masterPersisted := s.masterPersisted || t.masterPersisted
      masterModified := s.masterModified || t.masterModified }

/-- What a tally says of outcomes: how many replicas were reached and how many have persisted, and
whether the primary has persisted or holds another version. -/
structure Counts (isDelete : Bool) (outcomes : List (Bool × Outcome)) (t : Tally) : Prop where
  replicated : t.replicated = outcomes.countP fun x => !x.1 && x.2.isReached isDelete
  replicaPersisted : t.replicaPersisted = outcomes.countP fun x => !x.1 && x.2.isPersisted isDelete
  masterPersisted : t.masterPersisted = true ↔
    ∃ o, (true, o) ∈ outcomes ∧ o.isPersisted isDelete = true
  masterModified : t.masterModified = true ↔ (true, .modified) ∈ outcomes

/-- Another tally counts no less, and has seen all that this one has. -/
structure Below (s t : Tally) : Prop where
  replicated : s.replicated ≤ t.replicated
  replicaPersisted : s.replicaPersisted ≤ t.replicaPersisted
  masterPersisted : s.masterPersisted = true → t.masterPersisted = true
  masterModified : s.masterModified = true → t.masterModified = true

/-! ## What is counted -/

theorem any_primary_iff (p : Outcome → Bool) :
    (outcomes.any fun x => x.1 && p x.2) = true ↔ ∃ o, (true, o) ∈ outcomes ∧ p o = true := by
  rw [List.any_eq_true]
  constructor
  · rintro ⟨⟨isMaster, o⟩, hmem, hx⟩
    rw [Bool.and_eq_true] at hx
    obtain ⟨rfl, hp⟩ := hx
    exact ⟨o, hmem, hp⟩
  · rintro ⟨o, hmem, hp⟩
    exact ⟨(true, o), hmem, hp⟩

theorem counts_ofOutcomes (isDelete : Bool) (outcomes : List (Bool × Outcome)) :
    (ofOutcomes isDelete outcomes).Counts isDelete outcomes := by
  rw [ofOutcomes_eq]
  refine ⟨rfl, rfl, any_primary_iff (·.isPersisted isDelete), ?_⟩
  refine (any_primary_iff (· == .modified)).trans ?_
  simp only [beq_iff_eq, exists_eq_right]

-- Who has persisted a mutation has been reached by it.
theorem isReached_of_isPersisted {o : Outcome} (h : o.isPersisted isDelete = true) :
    o.isReached isDelete = true := by
  cases o with
  | foundPersisted => exact h
  | notFoundPersisted => exact h
  | _ => cases h

theorem replicaPersisted_le_replicated (isDelete : Bool) (outcomes : List (Bool × Outcome)) :
    (ofOutcomes isDelete outcomes).replicaPersisted ≤
      (ofOutcomes isDelete outcomes).replicated := by
  rw [ofOutcomes_eq]
  refine List.countP_mono_left fun x _ hx => ?_
  rw [Bool.and_eq_true] at hx ⊢
  exact hx.imp_right isReached_of_isPersisted

theorem replicated_le_replicas (isDelete : Bool) (outcomes : List (Bool × Outcome)) :
    (ofOutcomes isDelete outcomes).replicated ≤ outcomes.countP fun x => !x.1 := by
  rw [ofOutcomes_eq]
  refine List.countP_mono_left fun x _ hx => ?_
  rw [Bool.and_eq_true] at hx
  exact hx.1

/-! ## Order and parts -/

theorem ofOutcomes_perm (h : other.Perm outcomes) :
    ofOutcomes isDelete other = ofOutcomes isDelete outcomes := by
  simp only [ofOutcomes_eq, h.countP_eq, h.any_eq]

theorem ofOutcomes_append (isDelete : Bool) (outcomes more : List (Bool × Outcome)) :
    ofOutcomes isDelete (outcomes ++ more) =
      ofOutcomes isDelete outcomes + ofOutcomes isDelete more := by
  simp only [ofOutcomes_eq, List.countP_append, List.any_append]
  rfl

/-! ## Further replies -/

-- Entries that come in between others take nothing away from what those have shown.
theorem below_of_subperm (h : outcomes.Subperm other) :
    (ofOutcomes isDelete outcomes).Below (ofOutcomes isDelete other) := by
  have hany : ∀ p : Bool × Outcome → Bool, outcomes.any p = true → other.any p = true := by
    intro p hp
    rw [List.any_eq_true] at hp ⊢
    obtain ⟨x, hmem, hx⟩ := hp
    exact ⟨x, h.subset hmem, hx⟩
  rw [ofOutcomes_eq, ofOutcomes_eq]
  exact ⟨h.countP_le _, h.countP_le _, hany _, hany _⟩

theorem Below.satisfies {s t : Tally} (h : s.Below t) {persistTo : PersistTo}
    {replicateTo : ReplicateTo} (hs : s.satisfies persistTo replicateTo = true) :
    t.satisfies persistTo replicateTo = true := by
  simp only [Tally.satisfies, Bool.and_eq_true, Bool.or_eq_true, decide_eq_true_eq] at hs ⊢
  obtain ⟨⟨hreplicated, hpersisted⟩, hmaster⟩ := hs
  exact ⟨⟨hreplicated.trans h.replicated, hpersisted.trans h.replicaPersisted⟩,
    hmaster.imp_right h.masterPersisted⟩

/-! ## Primary and replicas -/

-- What is seen of the primary is seen in the entries of the primary.
theorem flags_of_primary (h : other.filter (·.1) = outcomes.filter (·.1)) :
    (ofOutcomes isDelete other).masterPersisted = (ofOutcomes isDelete outcomes).masterPersisted ∧
      (ofOutcomes isDelete other).masterModified =
        (ofOutcomes isDelete outcomes).masterModified := by
  simp only [ofOutcomes_eq, ← List.any_filter, h, and_self]

-- What is counted are entries of replicas.
theorem counts_of_replicas (h : other.filter (!·.1) = outcomes.filter (!·.1)) :
    (ofOutcomes isDelete other).replicated = (ofOutcomes isDelete outcomes).replicated ∧
      (ofOutcomes isDelete other).replicaPersisted =
        (ofOutcomes isDelete outcomes).replicaPersisted := by
  have hcount : ∀ (p : Outcome → Bool) (entries : List (Bool × Outcome)),
      (entries.countP fun x => !x.1 && p x.2) = (entries.filter (!·.1)).countP fun x => p x.2 := by
    intro p entries
    rw [List.countP_filter]
    exact List.countP_congr fun x _ => by rw [Bool.and_comm]
  simp only [ofOutcomes_eq, hcount, h, and_self]

/-- A tally counts its entries whatever their order is, and the tallies of parts add up to that of
the whole. It counts no more replicas that have persisted than were reached, and no more of those
than there are entries of replicas. Further entries leave every requirement satisfied that was. What
it says of the primary depends on the primary's entries only, and its counts on the replicas'. -/
theorem ofOutcomes_of_any_order (isDelete : Bool) (outcomes : List (Bool × Outcome)) :
    let tally := ofOutcomes isDelete outcomes
    tally.Counts isDelete outcomes ∧
      (∀ other, other.Perm outcomes → ofOutcomes isDelete other = tally) ∧
      (∀ more, ofOutcomes isDelete (outcomes ++ more) = tally + ofOutcomes isDelete more) ∧
      (tally.replicaPersisted ≤ tally.replicated ∧
        tally.replicated ≤ outcomes.countP fun x => !x.1) ∧
      (∀ all, outcomes.Subperm all → ∀ persistTo replicateTo,
        tally.satisfies persistTo replicateTo = true →
          (ofOutcomes isDelete all).satisfies persistTo replicateTo = true) ∧
      (∀ other, other.filter (·.1) = outcomes.filter (·.1) →
        (ofOutcomes isDelete other).masterPersisted = tally.masterPersisted ∧
          (ofOutcomes isDelete other).masterModified = tally.masterModified) ∧
      ∀ other, other.filter (!·.1) = outcomes.filter (!·.1) →
        (ofOutcomes isDelete other).replicated = tally.replicated ∧
          (ofOutcomes isDelete other).replicaPersisted = tally.replicaPersisted := by
  intro tally
  refine ⟨counts_ofOutcomes isDelete outcomes, fun other => ofOutcomes_perm,
    ofOutcomes_append isDelete outcomes, ?_, ?_, fun other => flags_of_primary,
    fun other => counts_of_replicas⟩
  · exact ⟨replicaPersisted_le_replicated isDelete outcomes,
      replicated_le_replicas isDelete outcomes⟩
  · intro all hall persistTo replicateTo hsatisfied
    exact (below_of_subperm hall).satisfies hsatisfied

-- After a delete: replies in another order, then two more, of which one is another one of the
-- primary, and the entries of the primary and of the replicas apart.
theorem ofOutcomes_of_any_order_delete :
    let outcomes : List (Bool × Outcome) :=
      [(true, .notFoundPersisted), (false, .notFoundNotPersisted), (false, .notFoundPersisted)]
    let all := (false, .foundPersisted) :: (true, .modified) :: outcomes.reverse
    outcomes.reverse.Perm outcomes ∧ outcomes.Subperm all ∧
      ofOutcomes true outcomes.reverse = ⟨2, 1, true, false⟩ ∧
      (ofOutcomes true outcomes).satisfies .two .two = true ∧
      (ofOutcomes true all).satisfies .two .two = true ∧
      (ofOutcomes true (outcomes.take 1)).masterPersisted = true ∧
      (ofOutcomes true (outcomes.drop 1)).replicated = 2 := by
  intro outcomes all
  have hperm : outcomes.reverse.Perm outcomes := List.reverse_perm outcomes
  have hsub : outcomes.Subperm all :=
    hperm.symm.subperm.trans (List.suffix_append [_, _] outcomes.reverse).sublist.subperm
  have hsatisfied : (ofOutcomes true outcomes).satisfies .two .two = true := by decide
  obtain ⟨-, hsame, -, -, hmore, hprimary, hreplicas⟩ := ofOutcomes_of_any_order true outcomes
  exact ⟨hperm, hsub, (hsame _ hperm).trans (by decide), hsatisfied,
    hmore all hsub .two .two hsatisfied, (hprimary (outcomes.take 1) rfl).1.trans (by decide),
    (hreplicas (outcomes.drop 1) rfl).1.trans (by decide)⟩

end ClusterClient.Tally
