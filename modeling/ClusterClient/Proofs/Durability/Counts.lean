import ClusterClient.Durability.Tally
import Mathlib.Data.Finset.Card
import Mathlib.Data.Finset.Range
/-!
# Counts

A tally is a fold over outcomes. Here it is said what it counts: each of its fields by itself, as a
number of outcomes or as the presence of one.
-/

namespace ClusterClient

variable {α : Type}

namespace Outcome

/-- The mutation has reached the node: the key is there after a mutation and gone after a delete,
persisted or not. -/
def isReached (isDelete : Bool) : Outcome → Bool
  | foundNotPersisted => !isDelete
  | foundPersisted => !isDelete
  | notFoundNotPersisted => isDelete
  | notFoundPersisted => isDelete
  | modified => false
  | error => false

/-- The node has persisted the mutation. -/
def isPersisted (isDelete : Bool) : Outcome → Bool
  | foundPersisted => !isDelete
  | notFoundPersisted => isDelete
  | _ => false

end Outcome

namespace Tally

-- One outcome adds to one field at most, unless it is that of a replica that has persisted.
theorem add_eq (isDelete : Bool) (t : Tally) (isMaster : Bool) (o : Outcome) :
    t.add isDelete isMaster o =
      { replicated := t.replicated + if !isMaster && o.isReached isDelete then 1 else 0
        replicaPersisted :=
          t.replicaPersisted + if !isMaster && o.isPersisted isDelete then 1 else 0
        masterPersisted := t.masterPersisted || (isMaster && o.isPersisted isDelete)
        masterModified := t.masterModified || (isMaster && o == .modified) } := by
  obtain ⟨replicated, replicaPersisted, masterPersisted, masterModified⟩ := t
  cases isMaster with
  | false =>
    simp only [Bool.false_and, Bool.or_false]
    cases isDelete <;> cases o <;> rfl
  | true =>
    simp only [Bool.true_and]
    cases isDelete <;> cases o <;> cases masterPersisted <;> cases masterModified <;> rfl

theorem foldl_add (isDelete : Bool) (t : Tally) (outcomes : List (Bool × Outcome)) :
    outcomes.foldl (fun t (isMaster, o) => t.add isDelete isMaster o) t =
      { replicated := t.replicated + outcomes.countP fun x => !x.1 && x.2.isReached isDelete
        replicaPersisted :=
          t.replicaPersisted + outcomes.countP fun x => !x.1 && x.2.isPersisted isDelete
        masterPersisted :=
          t.masterPersisted || outcomes.any fun x => x.1 && x.2.isPersisted isDelete
        masterModified := t.masterModified || outcomes.any fun x => x.1 && x.2 == .modified } := by
  induction outcomes generalizing t with
  | nil =>
    simp only [List.foldl_nil, List.countP_nil, List.any_nil, Nat.add_zero, Bool.or_false]
  | cons x outcomes ih =>
    obtain ⟨isMaster, o⟩ := x
    rw [List.foldl_cons, ih]
    show Tally.mk ((t.add isDelete isMaster o).replicated + _)
      ((t.add isDelete isMaster o).replicaPersisted + _)
      ((t.add isDelete isMaster o).masterPersisted || _)
      ((t.add isDelete isMaster o).masterModified || _) = _
    rw [add_eq]
    simp only [List.countP_cons, List.any_cons, Bool.or_assoc, ← Nat.add_assoc, Nat.add_right_comm]

-- What a tally counts.
theorem ofOutcomes_eq (isDelete : Bool) (outcomes : List (Bool × Outcome)) :
    ofOutcomes isDelete outcomes =
      { replicated := outcomes.countP fun x => !x.1 && x.2.isReached isDelete
        replicaPersisted := outcomes.countP fun x => !x.1 && x.2.isPersisted isDelete
        masterPersisted := outcomes.any fun x => x.1 && x.2.isPersisted isDelete
        masterModified := outcomes.any fun x => x.1 && x.2 == .modified } := by
  rw [ofOutcomes, foldl_add]
  simp only [Nat.zero_add, Bool.false_or]

-- The tally of a primary's outcome and those of the others.
theorem ofOutcomes_cons (isDelete : Bool) (primary : Outcome) (others : List Outcome) :
    ofOutcomes isDelete ((true, primary) :: others.map (false, ·)) =
      { replicated := others.countP (·.isReached isDelete)
        replicaPersisted := others.countP (·.isPersisted isDelete)
        masterPersisted := primary.isPersisted isDelete
        masterModified := primary == .modified } := by
  have hcount : ∀ p : Outcome → Bool,
      ((true, primary) :: others.map (false, ·)).countP (fun x => !x.1 && p x.2) =
        others.countP p := by
    intro p
    rw [List.countP_cons_of_neg Bool.false_ne_true, List.countP_map]
    exact List.countP_congr fun o _ => by
      rw [Function.comp_apply, Bool.not_false, Bool.true_and]
  have hany : ∀ p : Outcome → Bool,
      ((true, primary) :: others.map (false, ·)).any (fun x => x.1 && p x.2) = p primary := by
    intro p
    have hothers : (others.map (false, ·)).any (fun x => x.1 && p x.2) = false := by
      rw [List.any_map, List.any_eq_false]
      exact fun o _ => Bool.false_ne_true
    rw [List.any_cons, hothers, Bool.or_false, Bool.true_and]
  rw [ofOutcomes_eq, hcount, hcount, hany, hany (· == .modified)]

end Tally

-- The places in a list whose entries have a property, counted.
theorem card_places (l : List α) (p : α → Bool) :
    ((Finset.range l.length).filter fun i => l[i]?.any p = true).card = l.countP p := by
  induction l using List.reverseRecOn with
  | nil => rfl
  | append_singleton l a ih =>
    have hbefore : ((Finset.range l.length).filter fun i => (l ++ [a])[i]?.any p = true) =
        (Finset.range l.length).filter fun i => l[i]?.any p = true :=
      Finset.filter_congr fun i hi => by
        rw [List.getElem?_append_left (Finset.mem_range.mp hi)]
    rw [List.length_append, List.length_singleton, Finset.range_add_one, Finset.filter_insert,
      List.getElem?_concat_length, List.countP_append, List.countP_singleton, ← ih, hbefore]
    show (if p a = true then _ else _ : Finset Nat).card = _
    split
    · rw [Finset.card_insert_of_notMem]
      rw [Finset.mem_filter, Finset.mem_range]
      exact fun h => Nat.lt_irrefl _ h.1
    · rfl

-- So many entries have a property as there are different places where one has it.
theorem exists_places_iff (l : List α) (p : α → Bool) (n : Nat) :
    (∃ places : Finset Nat, n ≤ places.card ∧ ∀ i ∈ places, ∃ a, l[i]? = some a ∧ p a = true) ↔
      n ≤ l.countP p := by
  rw [← card_places]
  constructor
  · rintro ⟨places, hn, hplaces⟩
    refine hn.trans (Finset.card_le_card fun i hi => ?_)
    obtain ⟨a, ha, hp⟩ := hplaces i hi
    rw [Finset.mem_filter, Finset.mem_range, ha]
    exact ⟨(List.getElem?_eq_some_iff.mp ha).1, hp⟩
  · intro hn
    refine ⟨_, hn, fun i hi => ?_⟩
    exact (Option.any_eq_true _ _).mp (Finset.mem_filter.mp hi).2

end ClusterClient
