import ClusterClient.ReplicaRead
/-!
# The order of arrival

Results arrive one after the other: by their ticks, and at one tick in the order in which the reads
were sent. Here each of them keeps the place of its read, so that the order can be said of places.
-/

namespace ClusterClient

variable {α : Type}

-- A merge sort is stable: what stands in some order and compares alike keeps that order.
theorem pairwise_mergeSort_of_pairwise {le : α → α → Bool} {r : α → α → Prop} {l : List α}
    (htrans : ∀ a b c, le a b = true → le b c = true → le a c = true)
    (htotal : ∀ a b, (le a b || le b a) = true) (h : l.Pairwise r) :
    (l.mergeSort le).Pairwise fun a b => le a b = true ∧ (le b a = true → r a b) := by
  rw [← List.mergeSort_zipIdx, List.pairwise_map]
  have hsorted := List.pairwise_mergeSort (List.zipIdxLE_trans htrans)
    (List.zipIdxLE_total htotal) l.zipIdx
  have hperm := List.mergeSort_perm l.zipIdx (List.zipIdxLE le)
  -- no two entries have one place, before the sort or after it
  have hplaces : (l.zipIdx.mergeSort (List.zipIdxLE le)).Pairwise fun a b => a.2 ≠ b.2 := by
    rw [← List.pairwise_map (f := Prod.snd) (R := (· ≠ ·))]
    apply (hperm.map Prod.snd).nodup_iff.mpr
    rw [List.zipIdx_map_snd]
    exact List.nodup_range'
  refine (hsorted.and hplaces).imp_of_mem fun {a b} ha hb hab => ?_
  obtain ⟨hle, hne⟩ := hab
  have hla := List.mem_zipIdx_iff_getElem?.mp (hperm.mem_iff.mp ha)
  have hlb := List.mem_zipIdx_iff_getElem?.mp (hperm.mem_iff.mp hb)
  obtain ⟨hlta, hgeta⟩ := List.getElem?_eq_some_iff.mp hla
  obtain ⟨hltb, hgetb⟩ := List.getElem?_eq_some_iff.mp hlb
  rw [List.zipIdxLE] at hle
  by_cases hab : le a.1 b.1 = true
  · refine ⟨hab, fun hba => ?_⟩
    rw [if_pos hab, if_pos hba, decide_eq_true_eq] at hle
    rw [← hgeta, ← hgetb]
    exact List.pairwise_iff_getElem.mp h a.2 b.2 hlta hltb (Nat.lt_of_le_of_ne hle hne)
  · rw [if_neg hab] at hle
    cases hle

theorem Delivery.arrival?_eq_some_iff {d : Delivery α} {window tick : Nat} :
    d.arrival? window = some tick ↔ d.after = some tick ∧ tick ≤ window := by
  rw [arrival?, Option.filter_eq_some_iff, decide_eq_true_eq]

namespace ReplicaRead

/-- A result that is there in time: its tick, the place of its read among those that were sent, and
what it is. -/
structure Arrival where
  tick : Nat
  place : Nat
  result : ReadResult

/-- One result arrives before another. -/
def Arrival.Before (a b : Arrival) : Prop := a.tick < b.tick ∨ a.tick = b.tick ∧ a.place < b.place

variable {window : Nat} {reads : List (Delivery ReadResult)}

/-- The results that are there within a window, in the order of the reads. -/
def byPlace (window : Nat) (reads : List (Delivery ReadResult)) : List Arrival :=
  reads.zipIdx.filterMap fun (d, place) => (d.arrival? window).map (⟨·, place, d.result⟩)

/-- The results that are there within a window, in the order in which they arrive. -/
def inOrder (window : Nat) (reads : List (Delivery ReadResult)) : List Arrival :=
  (byPlace window reads).mergeSort fun a b => a.tick ≤ b.tick

theorem mem_inOrder_iff {a : Arrival} :
    a ∈ inOrder window reads ↔
      reads[a.place]? = some ⟨some a.tick, a.result⟩ ∧ a.tick ≤ window := by
  rw [inOrder, List.mem_mergeSort, byPlace, List.mem_filterMap]
  constructor
  · rintro ⟨⟨d, place⟩, hd, h⟩
    obtain ⟨tick, harrival, rfl⟩ := Option.map_eq_some_iff.mp h
    obtain ⟨hafter, htick⟩ := Delivery.arrival?_eq_some_iff.mp harrival
    refine ⟨?_, htick⟩
    rw [← hafter]
    exact List.mem_zipIdx_iff_getElem?.mp hd
  · rintro ⟨hd, htick⟩
    have harrival : (⟨some a.tick, a.result⟩ : Delivery ReadResult).arrival? window = some a.tick :=
      Delivery.arrival?_eq_some_iff.mpr ⟨rfl, htick⟩
    exact ⟨(_, a.place), List.mem_zipIdx_iff_getElem?.mpr hd, Option.map_eq_some_iff.mpr
      ⟨a.tick, harrival, rfl⟩⟩

-- Of two results in the order of arrival the one in front arrives before the other.
theorem pairwise_inOrder (window : Nat) (reads : List (Delivery ReadResult)) :
    (inOrder window reads).Pairwise Arrival.Before := by
  have hplaces : (byPlace window reads).Pairwise fun a b => a.place < b.place := by
    rw [byPlace, List.pairwise_filterMap]
    have hzip : reads.zipIdx.Pairwise fun x y => x.2 < y.2 := by
      rw [← List.pairwise_map (f := Prod.snd) (R := (· < ·)), List.zipIdx_map_snd]
      exact List.pairwise_lt_range'
    refine hzip.imp fun {x y} hxy a ha b hb => ?_
    obtain ⟨_, -, rfl⟩ := Option.map_eq_some_iff.mp ha
    obtain ⟨_, -, rfl⟩ := Option.map_eq_some_iff.mp hb
    exact hxy
  refine (pairwise_mergeSort_of_pairwise ?_ ?_ hplaces).imp fun {a b} hab => ?_
  · intro a b c
    simp only [decide_eq_true_eq]
    exact Nat.le_trans
  · intro a b
    simp only [Bool.or_eq_true, decide_eq_true_eq]
    exact Nat.le_total a.tick b.tick
  · simp only [decide_eq_true_eq] at hab
    rw [Arrival.Before]
    omega

theorem arrivals_eq (window : Nat) (reads : List (Delivery ReadResult)) :
    arrivals window reads = (inOrder window reads).map fun a => (a.tick, a.result) := by
  have hforget : (byPlace window reads).map (fun a => (a.tick, a.result)) =
      (reads.zipIdx.map (·.1)).filterMap fun d => (d.arrival? window).map (·, d.result) := by
    rw [byPlace, List.map_filterMap, List.filterMap_map]
    congr 1
    funext x
    exact Option.map_map ..
  rw [List.zipIdx_map_fst] at hforget
  rw [arrivals, ← hforget, inOrder]
  exact (List.map_mergeSort (f := fun a : Arrival => (a.tick, a.result)) fun _ _ _ _ => rfl).symm

-- All results are there exactly if none of them is late.
theorem length_arrivals_iff :
    (arrivals window reads).length = reads.length ↔
      ∀ d ∈ reads, ∃ tick, d.after = some tick ∧ tick ≤ window := by
  rw [arrivals, List.length_mergeSort, List.filterMap_length_eq_length]
  refine forall₂_congr fun d _ => ?_
  rw [Option.isSome_map, Option.isSome_iff_exists]
  exact exists_congr fun tick => Delivery.arrival?_eq_some_iff

end ReplicaRead

end ClusterClient
