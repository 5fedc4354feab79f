import Mathlib.Data.List.Basic
/-!
# The cycle of refreshes

A small machine for the life of refreshes on one provider, with what can be seen of each of its
moves. A signal starts a refresh or is remembered; a pass asks one source and perhaps the other; a
pass during which a signal came is followed by another one. A refresh that breaks off leaves the
machine where no signal starts one any more.
-/

namespace ClusterClient

/-- What can be seen of refreshes. -/
inductive Note where
  -- A signal came; `starts` tells whether it started a refresh.
  | signal (starts : Bool)
  -- A pass began, with its first fetch.
  | began
  -- A pass ended.
  | ended
  -- A refresh is over.
  | finished
  -- A refresh broke off.
  | broken
  deriving DecidableEq, Repr

/-- Where refreshes stand; `pending` tells whether a signal is remembered. -/
inductive Stage where
  -- No refresh is under way.
  | rest
  -- A refresh has been started and has not run yet.
  | queued (pending : Bool)
  -- A pass waits for a source, with so many left to ask after it.
  | passing (left : Nat) (pending : Bool)
  -- A refresh broke off, and nobody knows.
  | lost (pending : Bool)
  deriving DecidableEq, Repr

namespace Stage

def isLive : Stage → Bool
  | queued _ => true
  | passing _ _ => true
  | rest => false
  | lost _ => false

def isLost : Stage → Bool
  | lost _ => true
  | _ => false

theorem eq_rest_iff {s : Stage} : s = rest ↔ s.isLive = false ∧ s.isLost = false := by
  cases s with
  | rest => decide
  | queued p => exact iff_of_false nofun fun h => Bool.noConfusion h.1
  | passing n p => exact iff_of_false nofun fun h => Bool.noConfusion h.1
  | lost p => exact iff_of_false nofun fun h => Bool.noConfusion h.2

theorem isLive_of_isLost {s : Stage} (h : s.isLost = true) : s.isLive = false := by
  cases s with
  | lost p => rfl
  | _ => cases h

/-- A move, with whether a refresh went on in it and what can be seen of it. -/
inductive Move : Stage → Bool → List Note → Stage → Prop where
  | idle (s : Stage) : Move s false [] s
  | starts : Move rest false [.signal true] (queued false)
  | joinsQueued (p : Bool) : Move (queued p) false [.signal false] (queued true)
  | joinsPass (n : Nat) (p : Bool) : Move (passing n p) false [.signal false] (passing n true)
  | unheard (p : Bool) : Move (lost p) false [.signal false] (lost true)
  | begins (p : Bool) : Move (queued p) true [.began] (passing 1 false)
  | asks (n : Nat) (p : Bool) : Move (passing (n + 1) p) true [] (passing n p)
  | again (n : Nat) : Move (passing n true) true [.ended, .began] (passing 1 false)
  | finishes (n : Nat) : Move (passing n false) true [.ended, .finished] rest
  | breaksQueued (turn p : Bool) : Move (queued p) turn [.broken] (lost p)
  | breaksPass (turn : Bool) (n : Nat) (p : Bool) : Move (passing n p) turn [.broken] (lost p)

/-- Moves one after the other, with how often a refresh went on and what can be seen of them. -/
inductive Moves : Stage → Nat → List Note → Stage → Prop where
  | nil (s : Stage) : Moves s 0 [] s
  | cons {s u v : Stage} {turn : Bool} {turns : Nat} {first later : List Note}
      (head : Move s turn first u) (tail : Moves u turns later v) :
      Moves s (turn.toNat + turns) (first ++ later) v

variable {s u : Stage} {turn : Bool} {turns : Nat} {notes : List Note}

/-! ## Breaking off -/

theorem Move.isLost_iff (h : Move s turn notes u) :
    u.isLost = true ↔ s.isLost = true ∨ .broken ∈ notes := by
  cases h <;> simp [isLost]

-- A refresh has broken off exactly when that was seen, at any time before.
theorem Moves.isLost_iff (h : Moves s turns notes u) :
    u.isLost = true ↔ s.isLost = true ∨ .broken ∈ notes := by
  induction h with
  | nil s => simp only [List.not_mem_nil, or_false]
  | cons head tail ih => rw [ih, head.isLost_iff, List.mem_append, or_assoc]

theorem Moves.isLost_iff_of_rest (h : Moves rest turns notes u) :
    u.isLost = true ↔ .broken ∈ notes := by
  rw [h.isLost_iff]
  exact or_iff_right Bool.false_ne_true

-- A refresh that is over leaves the provider at rest.
theorem Move.eq_rest (h : Move s turn notes u) (hfinished : .finished ∈ notes) : u = .rest := by
  cases h with
  | finishes n => rfl
  | _ => simp only [List.mem_cons, List.not_mem_nil, reduceCtorEq, or_self] at hfinished

/-! ## Passes that are owed -/

/-- No more than one source is left to ask. -/
def IsBrief : Stage → Prop
  | passing n _ => n ≤ 1
  | _ => True

theorem Move.isBrief (h : Move s turn notes u) (hs : s.IsBrief) : u.IsBrief := by
  cases h with
  | idle => exact hs
  | joinsPass n p => exact hs
  | asks n p => exact Nat.le_of_succ_le hs
  | begins p => exact Nat.le_refl 1
  | again n => exact Nat.le_refl 1
  | starts => trivial
  | joinsQueued p => trivial
  | unheard p => trivial
  | finishes n => trivial
  | breaksQueued turn p => trivial
  | breaksPass turn n p => trivial

theorem Moves.isBrief (h : Moves s turns notes u) (hs : s.IsBrief) : u.IsBrief := by
  induction h with
  | nil s => exact hs
  | cons head _ ih => exact ih (head.isBrief hs)

-- A pass that waits will have ended once it has gone on as often as there are sources to it.
theorem Moves.ended_of_passing {n : Nat} {p : Bool} (h : Moves (passing n p) turns notes u)
    (hcalm : .broken ∉ notes) : .ended ∈ notes ∨ (u.isLive = true ∧ turns ≤ n) := by
  generalize hs : passing n p = s at h
  induction h generalizing n p with
  | nil s => subst hs; exact .inr ⟨rfl, Nat.zero_le n⟩
  | @cons s v u turn turns first later head tail ih =>
    subst hs
    rw [List.mem_append, not_or] at hcalm
    have hgoesOn : ∀ m q, passing m q = v → m + turn.toNat ≤ n →
        .ended ∈ first ++ later ∨ (u.isLive = true ∧ turn.toNat + turns ≤ n) := by
      intro m q hv hm
      rcases ih hcalm.2 hv with hended | ⟨hlive, hturns⟩
      · exact .inl (List.mem_append_right _ hended)
      · exact .inr ⟨hlive, by omega⟩
    cases head with
    | idle => exact hgoesOn n p rfl (Nat.le_refl n)
    | joinsPass n p => exact hgoesOn n true rfl (Nat.le_refl n)
    | asks n p => exact hgoesOn n p rfl (Nat.le_refl (n + 1))
    | again n => exact .inl (List.mem_append_left _ (by decide))
    | finishes n => exact .inl (List.mem_append_left _ (by decide))
    | breaksPass turn n p => exact absurd (by decide) hcalm.1

/-- So often a refresh has to go on until a whole pass is over that has yet to begin; nothing where
none has to begin. -/
def owed : Stage → Option Nat
  | queued _ => some 3
  | passing n true => some (n + 3)
  | _ => none

-- After a signal a pass is owed, unless refreshes have broken off.
theorem Move.owes {starts : Bool} (h : Move s turn [.signal starts] u) (hs : s.isLost = false)
    (hbrief : s.IsBrief) : ∃ k, u.owed = some k ∧ k ≤ 4 := by
  cases h with
  | starts => exact ⟨3, rfl, by decide⟩
  | joinsQueued p => exact ⟨3, rfl, by decide⟩
  | joinsPass n p => exact ⟨n + 3, rfl, Nat.add_le_add_right hbrief 3⟩
  | unheard p => cases hs

theorem owed_pos {k : Nat} (h : s.owed = some k) : 0 < k ∧ s.isLive = true := by
  cases s with
  | rest => cases h
  | lost p => cases h
  | queued p => cases h; exact ⟨by decide, rfl⟩
  | passing n p =>
    cases p with
    | false => cases h
    | true => cases h; exact ⟨Nat.succ_pos _, rfl⟩

-- A pass that is owed is over before the refresh has gone on as often as is owed.
theorem Moves.pass_of_owed {k : Nat} (h : Moves s turns notes u) (howed : s.owed = some k)
    (hcalm : .broken ∉ notes) :
    [.began, .ended].Sublist notes ∨ (u.isLive = true ∧ turns < k) := by
  induction h generalizing k with
  | nil s => exact .inr (owed_pos howed).symm
  | @cons s v u turn turns first later head tail ih =>
    rw [List.mem_append, not_or] at hcalm
    have hgoesOn : ∀ j, v.owed = some j → j + turn.toNat ≤ k →
        [.began, .ended].Sublist (first ++ later) ∨
          (u.isLive = true ∧ turn.toNat + turns < k) := by
      intro j hj hk
      rcases ih hj hcalm.2 with hpass | ⟨hlive, hturns⟩
      · exact .inl (hpass.trans (List.sublist_append_right _ _))
      · exact .inr ⟨hlive, by omega⟩
    -- of a pass that begins here only the end is still to come
    have hbegins : v = passing 1 false → [Note.began].Sublist first → 2 + turn.toNat ≤ k →
        [.began, .ended].Sublist (first ++ later) ∨
          (u.isLive = true ∧ turn.toNat + turns < k) := by
      rintro rfl hfirst hk
      rcases tail.ended_of_passing hcalm.2 with hended | ⟨hlive, hturns⟩
      · exact .inl (hfirst.append (List.singleton_sublist.mpr hended))
      · exact .inr ⟨hlive, by omega⟩
    cases head with
    | idle => exact hgoesOn k howed (Nat.le_refl k)
    | joinsQueued p => exact hgoesOn k howed (Nat.le_refl k)
    | joinsPass n p =>
      cases p with
      | false => cases howed
      | true => exact hgoesOn k howed (Nat.le_refl k)
    | begins p =>
      cases howed
      exact hbegins rfl (List.Sublist.refl _) (Nat.le_refl 3)
    | asks n p =>
      cases p with
      | false => cases howed
      | true =>
        cases howed
        have hk : n + 3 + 1 ≤ n + 1 + 3 := by omega
        exact hgoesOn (n + 3) rfl hk
    | again n =>
      cases howed
      have hk : 2 + 1 ≤ n + 3 := by omega
      exact hbegins rfl (List.sublist_cons_self _ _) hk
    | starts => cases howed
    | unheard p => cases howed
    | finishes n => cases howed
    | breaksQueued turn p => exact absurd (by decide) hcalm.1
    | breaksPass turn n p => exact absurd (by decide) hcalm.1

end Stage

/-! ## Passes of a refresh -/

/-- A refresh as it was seen: for each of its passes, the latest first, how many signals came during
it. -/
structure Task where
  passes : List Nat
  deriving DecidableEq, Repr

namespace Task

def begin (t : Task) : Task := ⟨0 :: t.passes⟩

/-- A signal comes; before the first pass it is during none. -/
def signal (t : Task) : Task :=
  match t.passes with
  | [] => t
  | n :: rest => ⟨(n + 1) :: rest⟩

/-- During every pass but the last a signal came, and none during the last. -/
def IsCoalesced (t : Task) : Prop := ∃ busy, t.passes = 0 :: busy ∧ ∀ n ∈ busy, 0 < n

-- There is one pass, and one more for each during which a signal came.
theorem IsCoalesced.length_passes {t : Task} (h : t.IsCoalesced) :
    t.passes.length = 1 + t.passes.countP (0 < ·) := by
  obtain ⟨busy, hpasses, hbusy⟩ := h
  have hall : busy.countP (0 < ·) = busy.length := by
    rw [List.countP_eq_length]
    intro n hn
    rw [decide_eq_true_eq]
    exact hbusy n hn
  rw [hpasses, List.countP_cons_of_neg (by decide), hall, List.length_cons, Nat.add_comm]

end Task

/-- The refreshes that were seen: those that are over, and the one that is under way. -/
structure Chronicle where
  past : List Task := []
  live : Option Task := none
  deriving DecidableEq, Repr

namespace Chronicle

def note (c : Chronicle) : Note → Chronicle
  | .signal true => { c with live := some ⟨[]⟩ }
  | .signal false => { c with live := c.live.map (·.signal) }
  | .began => { c with live := c.live.map (·.begin) }
  | .ended => c
  | .finished => { past := c.past ++ c.live.toList, live := none }
  | .broken => { c with live := none }

/-- The refreshes that were seen from the first note on. -/
def ofNotes (notes : List Note) : Chronicle := notes.foldl note {}

/-- What is recorded agrees with where refreshes stand: a signal is remembered exactly if one came
during the pass that is under way. -/
def Tracks (c : Chronicle) (s : Stage) : Prop :=
  (∀ t ∈ c.past, t.IsCoalesced) ∧
    match s with
    | .rest => c.live = none
    | .lost _ => c.live = none
    | .queued _ => c.live = some ⟨[]⟩
    | .passing _ p => ∃ n busy, c.live = some ⟨n :: busy⟩ ∧ (p = true ↔ 0 < n) ∧ ∀ k ∈ busy, 0 < k

theorem Tracks.move {c : Chronicle} {s u : Stage} {turn : Bool} {notes : List Note}
    (hc : c.Tracks s) (h : Stage.Move s turn notes u) : (notes.foldl note c).Tracks u := by
  obtain ⟨hpast, hlive⟩ := hc
  cases h with
  | idle => exact ⟨hpast, hlive⟩
  | starts => exact ⟨hpast, rfl⟩
  | joinsQueued p =>
    refine ⟨hpast, ?_⟩
    simp only [List.foldl_cons, List.foldl_nil, note, hlive, Option.map_some, Task.signal]
  | joinsPass n p =>
    obtain ⟨k, busy, hk, -, hbusy⟩ := hlive
    refine ⟨hpast, k + 1, busy, ?_, by simp only [Nat.succ_pos], hbusy⟩
    simp only [List.foldl_cons, List.foldl_nil, note, hk, Option.map_some, Task.signal]
  | unheard p =>
    refine ⟨hpast, ?_⟩
    simp only [List.foldl_cons, List.foldl_nil, note, hlive, Option.map_none]
  | begins p =>
    refine ⟨hpast, 0, [], ?_, by decide, fun _ hk => by cases hk⟩
    simp only [List.foldl_cons, List.foldl_nil, note, hlive, Option.map_some, Task.begin]
  | asks n p => exact ⟨hpast, hlive⟩
  | again n =>
    obtain ⟨k, busy, hk, hpending, hbusy⟩ := hlive
    refine ⟨hpast, 0, k :: busy, ?_, by decide, ?_⟩
    · simp only [List.foldl_cons, List.foldl_nil, note, hk, Option.map_some, Task.begin]
    · intro m hm
      rcases List.mem_cons.mp hm with rfl | hm
      · exact hpending.mp rfl
      · exact hbusy m hm
  | finishes n =>
    obtain ⟨k, busy, hk, hpending, hbusy⟩ := hlive
    have hzero : k = 0 := Nat.eq_zero_of_not_pos fun hpos => absurd (hpending.mpr hpos) (by decide)
    subst hzero
    refine ⟨fun t ht => ?_, rfl⟩
    simp only [List.foldl_cons, List.foldl_nil, note, hk, Option.toList_some, List.mem_append,
      List.mem_singleton] at ht
    rcases ht with ht | rfl
    · exact hpast t ht
    · exact ⟨busy, rfl, hbusy⟩
  | breaksQueued turn p => exact ⟨hpast, rfl⟩
  | breaksPass turn n p => exact ⟨hpast, rfl⟩

theorem Tracks.moves {c : Chronicle} {s u : Stage} {turns : Nat} {notes : List Note}
    (hc : c.Tracks s) (h : Stage.Moves s turns notes u) : (notes.foldl note c).Tracks u := by
  induction h generalizing c with
  | nil s => exact hc
  | cons head tail ih =>
    rw [List.foldl_append]
    exact ih (hc.move head)

-- Every refresh that is over, of those seen from rest on, made one pass more than it was signalled
-- in.
theorem isCoalesced_of_mem_past {u : Stage} {turns : Nat} {notes : List Note}
    (h : Stage.Moves .rest turns notes u) : ∀ t ∈ (ofNotes notes).past, t.IsCoalesced := by
  have hstart : ({} : Chronicle).Tracks .rest := ⟨fun t ht => (by cases ht), rfl⟩
  exact (hstart.moves h).1

end Chronicle

end ClusterClient
