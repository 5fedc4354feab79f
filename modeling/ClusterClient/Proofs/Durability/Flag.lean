import ClusterClient.Durability.Cancellation
import Mathlib.Data.List.TakeWhile
/-!
# Cancel flags over time

When a cancel flag is seen to be set within a pause, and what its history is once its holder has let
go of it.
-/

namespace ClusterClient.Cancellation

variable {c : Cancellation} {start stop tick drop : Nat}

@[simp] theorem wasSet_never : never.wasSet tick = false := rfl

@[simp] theorem firstSet?_never : never.firstSet? start stop = none := by
  unfold firstSet?
  split <;> rfl

-- What is found in a pause lies in it, and the flag is set there.
theorem firstSet?_spec (h : c.firstSet? start stop = some tick) :
    start ≤ tick ∧ tick < stop ∧ c.isSet tick = true := by
  unfold firstSet? at h
  split at h
  · rename_i hpause
    have hset := List.find?_some h
    rcases List.mem_cons.mp (List.mem_of_find?_eq_some h) with rfl | hmem
    · exact ⟨Nat.le_refl _, hpause, hset⟩
    · have hwithin := (List.mem_filter.mp hmem).2
      rw [Bool.and_eq_true, decide_eq_true_eq, decide_eq_true_eq] at hwithin
      exact ⟨Nat.le_of_lt hwithin.1, hwithin.2, hset⟩
  · cases h

theorem wasSet_cons_of_lt {first : Nat} (h : first < tick) (initially value : Bool)
    (later : List (Nat × Bool)) :
    wasSet ⟨initially, (first, value) :: later⟩ tick = wasSet ⟨value, later⟩ tick := by
  simp only [wasSet, List.takeWhile_cons, decide_eq_true h, if_true, List.foldl_cons]

theorem wasSet_cons_of_le {first : Nat} (h : tick ≤ first) (initially value : Bool)
    (later : List (Nat × Bool)) :
    wasSet ⟨initially, (first, value) :: later⟩ tick = initially := by
  have hnot : decide (first < tick) = false := decide_eq_false (Nat.not_lt.mpr h)
  simp only [wasSet, List.takeWhile_cons, hnot, Bool.false_eq_true, if_false, List.foldl_nil]

-- A flag that is set at a tick and was not set before it changes at that tick.
theorem changes_of_set (hset : c.isSet tick = true) (hbefore : c.wasSet tick = false) :
    ∃ earlier value later, c.changes = earlier ++ (tick, value) :: later ∧
      ∀ change ∈ earlier, change.1 < tick := by
  obtain ⟨initially, changes⟩ := c
  -- on the changes; each that is before the tick gives the rest of the history its first value
  induction changes generalizing initially with
  | nil => cases hset.symm.trans hbefore
  | cons change rest ih =>
    obtain ⟨first, value⟩ := change
    rw [isSet] at hset
    rcases Nat.lt_trichotomy first tick with hlt | rfl | hgt
    · rw [wasSet_cons_of_lt (Nat.lt_succ_of_lt hlt)] at hset
      rw [wasSet_cons_of_lt hlt] at hbefore
      obtain ⟨earlier, value', later, hrest, hearlier⟩ := ih value hset hbefore
      exact ⟨(first, value) :: earlier, value', later, congrArg ((first, value) :: ·) hrest,
        List.forall_mem_cons.mpr ⟨hlt, hearlier⟩⟩
    · exact ⟨[], value, rest, rfl, nofun⟩
    · rw [wasSet_cons_of_le hgt] at hset
      rw [wasSet_cons_of_le (Nat.le_of_lt hgt)] at hbefore
      cases hset.symm.trans hbefore

/-- A pause finds the first of its ticks at which the flag is set. -/
theorem firstSet?_eq_some (hstart : start ≤ tick) (hstop : tick < stop)
    (hset : c.isSet tick = true) (hbefore : ∀ n, start ≤ n → n < tick → c.isSet n = false) :
    c.firstSet? start stop = some tick := by
  rw [firstSet?, if_pos (Nat.lt_of_le_of_lt hstart hstop)]
  by_cases heq : start = tick
  · rw [heq, List.find?_cons_of_pos hset]
  · have hlt : start < tick := Nat.lt_of_le_of_ne hstart heq
    have hfirst := hbefore start (Nat.le_refl start) hlt
    have hwas : c.wasSet tick = false := by
      have hpred := hbefore (tick - 1) (by omega) (by omega)
      rwa [isSet, Nat.sub_add_cancel (by omega)] at hpred
    obtain ⟨earlier, value, later, hchanges, hearlier⟩ := changes_of_set hset hwas
    have hnone : ((earlier.map (·.1)).filter fun n => start < n && n < stop).find? c.isSet =
        none := by
      rw [List.find?_eq_none]
      intro n hn
      obtain ⟨hmem, hwithin⟩ := List.mem_filter.mp hn
      obtain ⟨change, hchange, rfl⟩ := List.mem_map.mp hmem
      rw [Bool.and_eq_true, decide_eq_true_eq] at hwithin
      rw [hbefore _ (Nat.le_of_lt hwithin.1) (hearlier change hchange)]
      exact Bool.false_ne_true
    have hwithin : (decide (start < tick) && decide (tick < stop)) = true := by
      rw [decide_eq_true hlt, decide_eq_true hstop, Bool.and_self]
    rw [List.find?_cons_of_neg (by rw [hfirst]; exact Bool.false_ne_true), hchanges,
      List.map_append, List.filter_append, List.find?_append, hnone, Option.none_or, List.map_cons,
      List.filter_cons_of_pos (by exact hwithin), List.find?_cons_of_pos hset]

/-- The history of a flag whose holder lets go of it at a tick: it changes no more. -/
def letGo (c : Cancellation) (drop : Nat) : Cancellation :=
  { c with changes := c.changes.takeWhile (·.1 < drop) }

theorem wasSet_letGo : (c.letGo drop).wasSet tick = c.wasSet (min tick drop) := by
  have hboth : ∀ changes : List (Nat × Bool),
      (changes.takeWhile (·.1 < drop)).takeWhile (·.1 < tick) =
        changes.takeWhile (·.1 < min tick drop) := by
    intro changes
    rw [List.takeWhile_takeWhile]
    congr 1
    funext change
    simp only [decide_eq_true_eq, Nat.lt_min]
  rw [letGo, wasSet, hboth]
  rfl

-- Nobody finds a flag set at or after the tick at which its holder has let go of it unset.
theorem lt_of_wasSet_letGo (hdrop : c.wasSet drop = false)
    (h : (c.letGo drop).wasSet tick = true) : tick < drop := by
  rw [wasSet_letGo] at h
  apply Nat.lt_of_not_le
  intro hle
  rw [Nat.min_eq_right hle, hdrop] at h
  cases h

end ClusterClient.Cancellation
