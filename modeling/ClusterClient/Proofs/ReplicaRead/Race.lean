import ClusterClient.Proofs.ReplicaRead.Arrivals
import Mathlib.Logic.Basic
/-!
# The race of the reads

How reads end that were all sent at one tick, said of the reads themselves and not of an order in
which their results are looked at: the first success wins, and without one either all have failed in
time or the time is over.
-/

namespace ClusterClient

namespace Delivery

/-- A read succeeds with a reply, so many ticks after it was sent. -/
def Succeeds (d : Delivery ReadResult) (tick : Nat) (r : GetReply) : Prop :=
  d = ⟨some tick, .reply r⟩ ∧ r.status = .success

/-- A read is told, so many ticks after it was sent, that the node does not own the partition. -/
def IsStale (d : Delivery ReadResult) (tick : Nat) : Prop :=
  ∃ r, d = ⟨some tick, .reply r⟩ ∧ r.status = .notMyPartition

end Delivery

/-- A reply with the value that was asked for. -/
def ReadResult.isSuccess : ReadResult → Bool
  | .reply r => r.isSuccess
  | _ => false

theorem GetReply.isSuccess_iff {r : GetReply} : r.isSuccess = true ↔ r.status = .success :=
  beq_iff_eq

namespace ReplicaRead

variable {key : String} {limit : Duration} {reads : List (Delivery ReadResult)}
  {elapsed elapsed' : Nat} {answer answer' : Except ReplicaReadError GetReply}

/-- No read succeeds within a window. -/
def NoSuccess (window : Nat) (reads : List (Delivery ReadResult)) : Prop :=
  ∀ d ∈ reads, ∀ tick r, d.Succeeds tick r → window < tick

/-- How a race of reads ends that were sent at one tick: the ticks that it takes and its answer. -/
inductive Race (key : String) (limit : Duration) (reads : List (Delivery ReadResult)) :
    Nat → Except ReplicaReadError GetReply → Prop where
  -- No other success is earlier; of several at one tick the one wins that was asked for first.
  | won {place tick : Nat} {d : Delivery ReadResult} {r : GetReply} (hd : reads[place]? = some d)
      (hsuccess : d.Succeeds tick r) (htick : tick ≤ limit.ticks)
      (hfirst : ∀ place' d' tick' r', reads[place']? = some d' → d'.Succeeds tick' r' →
        tick < tick' ∨ tick = tick' ∧ place ≤ place') :
      Race key limit reads tick (.ok r)
  | allFailed {last : Nat} (hnone : NoSuccess limit.ticks reads)
      (hdone : ∀ d ∈ reads, ∃ tick, d.after = some tick ∧ tick ≤ last) (hlast : last ≤ limit.ticks)
      (hreached : ∃ d ∈ reads, d.after = some last) :
      Race key limit reads last (.error (.allFailed key reads.length))
  | timedOut {d : Delivery ReadResult} (hnone : NoSuccess limit.ticks reads) (hd : d ∈ reads)
      (hlate : ∀ tick, d.after = some tick → limit.ticks < tick) :
      Race key limit reads limit.ticks (.error (.timeout key limit))

theorem NoSuccess.not_won {place tick : Nat} {d : Delivery ReadResult} {r : GetReply}
    (h : NoSuccess limit.ticks reads) (hd : reads[place]? = some d) (hsuccess : d.Succeeds tick r)
    (htick : tick ≤ limit.ticks) : False :=
  Nat.not_lt.mpr htick (h d (List.mem_of_getElem? hd) tick r hsuccess)

-- A race ends in one way only.
theorem Race.unique (h : Race key limit reads elapsed answer)
    (h' : Race key limit reads elapsed' answer') : elapsed = elapsed' ∧ answer = answer' := by
  cases h with
  | won hd hsuccess htick hfirst =>
    cases h' with
    | won hd' hsuccess' htick' hfirst' =>
      have hle := hfirst _ _ _ _ hd' hsuccess'
      have hge := hfirst' _ _ _ _ hd hsuccess
      obtain rfl : elapsed = elapsed' := by omega
      obtain ⟨rfl, -⟩ := hsuccess
      obtain ⟨rfl, -⟩ := hsuccess'
      -- neither stands before the other, so both are the read of one place
      have hplace := Nat.le_antisymm (hle.resolve_left (Nat.lt_irrefl _)).2
        (hge.resolve_left (Nat.lt_irrefl _)).2
      rw [hplace] at hd
      cases hd.symm.trans hd'
      exact ⟨rfl, rfl⟩
    | allFailed hnone => exact (hnone.not_won hd hsuccess htick).elim
    | timedOut hnone => exact (hnone.not_won hd hsuccess htick).elim
  | allFailed hnone hdone hlast hreached =>
    cases h' with
    | won hd hsuccess htick => exact (hnone.not_won hd hsuccess htick).elim
    | allFailed _ hdone' _ hreached' =>
      refine ⟨?_, rfl⟩
      obtain ⟨d, hd, hafter⟩ := hreached
      obtain ⟨d', hd', hafter'⟩ := hreached'
      obtain ⟨tick, htick, hle⟩ := hdone d' hd'
      obtain ⟨tick', htick', hle'⟩ := hdone' d hd
      cases htick.symm.trans hafter'
      cases htick'.symm.trans hafter
      exact Nat.le_antisymm hle' hle
    | timedOut _ hd hlate =>
      obtain ⟨tick, hafter, hle⟩ := hdone _ hd
      exact absurd (hlate tick hafter) (Nat.not_lt.mpr (Nat.le_trans hle hlast))
  | timedOut hnone hd hlate =>
    cases h' with
    | won hd' hsuccess htick => exact (hnone.not_won hd' hsuccess htick).elim
    | allFailed _ hdone hlast =>
      obtain ⟨tick, hafter, hle⟩ := hdone _ hd
      exact absurd (hlate tick hafter) (Nat.not_lt.mpr (Nat.le_trans hle hlast))
    | timedOut => exact ⟨rfl, rfl⟩

/-! ## Looking at the results in the order of arrival -/

theorem firstSuccess_append {before rest : List (Nat × ReadResult)} (stale : Bool)
    (h : ∀ x ∈ before, x.2.isSuccess = false) :
    firstSuccess stale (before ++ rest) =
      firstSuccess (stale || before.any (ReadResult.isStale ·.2)) rest := by
  induction before generalizing stale with
  | nil => rw [List.any_nil, Bool.or_false, List.nil_append]
  | cons x before ih =>
    obtain ⟨tick, result⟩ := x
    rw [List.forall_mem_cons] at h
    rw [List.any_cons, ← Bool.or_assoc, ← ih _ h.2]
    cases result with
    | reply r =>
      have hr : r.isSuccess = false := h.1
      rw [List.cons_append, firstSuccess, hr]
      rfl
    | failed e => exact congrArg (firstSuccess · _) (Bool.or_false stale).symm
    | crashed => exact congrArg (firstSuccess · _) (Bool.or_false stale).symm

/-- The ways in which reads are settled, by what arrives in which order. -/
inductive Settles (key : String) (limit : Duration) (reads : List (Delivery ReadResult)) :
    Settled → Prop where
  | won {before after : List Arrival} {a : Arrival} {r : GetReply}
      (horder : inOrder limit.ticks reads = before ++ a :: after) (ha : a.result = .reply r)
      (hr : r.isSuccess = true) (hbefore : ∀ b ∈ before, b.result.isSuccess = false) :
      Settles key limit reads ⟨.ok r, a.tick, before.any (ReadResult.isStale ·.result)⟩
  | allFailed (hnone : ∀ a ∈ inOrder limit.ticks reads, a.result.isSuccess = false)
      (hall : ∀ d ∈ reads, ∃ tick, d.after = some tick ∧ tick ≤ limit.ticks) :
      Settles key limit reads ⟨.error (.allFailed key reads.length),
        ((inOrder limit.ticks reads).map (·.tick)).foldl max 0,
        (inOrder limit.ticks reads).any (ReadResult.isStale ·.result)⟩
  | timedOut (hnone : ∀ a ∈ inOrder limit.ticks reads, a.result.isSuccess = false)
      (hlate : ¬ ∀ d ∈ reads, ∃ tick, d.after = some tick ∧ tick ≤ limit.ticks) :
      Settles key limit reads ⟨.error (.timeout key limit), limit.ticks, false⟩

theorem settles_settle (key : String) (limit : Duration) (reads : List (Delivery ReadResult)) :
    Settles key limit reads (settle key limit reads) := by
  have harrivals := arrivals_eq limit.ticks reads
  cases hfind : (inOrder limit.ticks reads).find? (·.result.isSuccess) with
  | none =>
    have hnone : ∀ a ∈ inOrder limit.ticks reads, a.result.isSuccess = false := fun a ha =>
      Bool.eq_false_iff.mpr (List.find?_eq_none.mp hfind a ha)
    have hfirst : firstSuccess false (arrivals limit.ticks reads) =
        (none, (inOrder limit.ticks reads).any (ReadResult.isStale ·.result)) := by
      rw [harrivals, ← List.append_nil (List.map _ _), firstSuccess_append, Bool.false_or,
        List.any_map]
      · rfl
      · rw [List.forall_mem_map]
        exact hnone
    by_cases hall : ∀ d ∈ reads, ∃ tick, d.after = some tick ∧ tick ≤ limit.ticks
    · simp only [settle, hfirst, if_pos (length_arrivals_iff.mpr hall)]
      rw [harrivals, List.map_map]
      exact .allFailed hnone hall
    · simp only [settle, hfirst, if_neg (mt length_arrivals_iff.mp hall)]
      exact .timedOut hnone hall
  | some a =>
    obtain ⟨hsuccess, before, after, horder, hbefore⟩ := List.find?_eq_some_iff_append.mp hfind
    have hbefore : ∀ b ∈ before, b.result.isSuccess = false := fun b hb =>
      (Bool.not_eq_eq_eq_not ..).mp (hbefore b hb)
    cases hresult : a.result with
    | reply r =>
      have hr : r.isSuccess = true := by rw [hresult] at hsuccess; exact hsuccess
      have hfirst : firstSuccess false (arrivals limit.ticks reads) =
          (some (a.tick, r), before.any (ReadResult.isStale ·.result)) := by
        rw [harrivals, horder, List.map_append, firstSuccess_append, Bool.false_or, List.any_map,
          List.map_cons, hresult, firstSuccess, if_pos hr]
        · rfl
        · rw [List.forall_mem_map]
          exact hbefore
      simp only [settle, hfirst]
      exact .won horder hresult hr hbefore
    | failed e => rw [hresult] at hsuccess; cases hsuccess
    | crashed => rw [hresult] at hsuccess; cases hsuccess

/-! ## The race that is settled -/

-- A success in time is one of the results that arrive.
theorem mem_inOrder_of_succeeds {window place tick : Nat} {d : Delivery ReadResult} {r : GetReply}
    (hd : reads[place]? = some d) (h : d.Succeeds tick r) (htick : tick ≤ window) :
    (⟨tick, place, .reply r⟩ : Arrival) ∈ inOrder window reads := by
  rw [h.1] at hd
  exact mem_inOrder_iff.mpr ⟨hd, htick⟩

theorem noSuccess_of_inOrder
    (h : ∀ a ∈ inOrder limit.ticks reads, a.result.isSuccess = false) :
    NoSuccess limit.ticks reads := by
  intro d hd tick r hsuccess
  obtain ⟨place, hplace⟩ := List.mem_iff_getElem?.mp hd
  refine Nat.not_le.mp fun hle => ?_
  have hfalse := h _ (mem_inOrder_of_succeeds hplace hsuccess hle)
  have htrue : r.isSuccess = true := GetReply.isSuccess_iff.mpr hsuccess.2
  exact Bool.false_ne_true (hfalse.symm.trans htrue)

-- Where the first success stands in the order of arrival, nothing that succeeds is before it.
theorem first_of_inOrder {before after : List Arrival} {a : Arrival}
    (horder : inOrder limit.ticks reads = before ++ a :: after)
    (hbefore : ∀ b ∈ before, b.result.isSuccess = false) {place tick : Nat}
    {d : Delivery ReadResult} {r : GetReply} (hd : reads[place]? = some d)
    (hsuccess : d.Succeeds tick r) : a.tick < tick ∨ a.tick = tick ∧ a.place ≤ place := by
  have ha : a ∈ inOrder limit.ticks reads := by
    rw [horder]
    exact List.mem_append_right _ List.mem_cons_self
  by_cases htick : tick ≤ limit.ticks
  · have hmem := mem_inOrder_of_succeeds hd hsuccess htick
    have hpairs := pairwise_inOrder limit.ticks reads
    rw [horder] at hmem hpairs
    rcases List.mem_append.mp hmem with hmem | hmem
    · have hfalse := hbefore _ hmem
      have htrue : r.isSuccess = true := GetReply.isSuccess_iff.mpr hsuccess.2
      exact absurd (hfalse.symm.trans htrue) Bool.false_ne_true
    · rcases List.mem_cons.mp hmem with rfl | hmem
      · exact .inr ⟨rfl, Nat.le_refl _⟩
      · have hlater := (List.pairwise_cons.mp (List.pairwise_append.mp hpairs).2.1).1 _ hmem
        exact hlater.imp_right fun h => ⟨h.1, Nat.le_of_lt h.2⟩
  · have hle := (mem_inOrder_iff.mp ha).2
    omega

-- The largest of some numbers is one of them.
theorem foldl_max_mem {l : List Nat} (h : l ≠ []) : l.foldl max 0 ∈ l := by
  rw [List.foldl_max]
  obtain ⟨m, hm⟩ := Option.isSome_iff_exists.mp (List.isSome_max?_of_ne_nil h)
  rw [hm, Option.getD_some, Nat.zero_max]
  exact List.max?_mem hm

theorem le_foldl_max {l : List Nat} {n : Nat} (h : n ∈ l) : n ≤ l.foldl max 0 := by
  rw [List.foldl_max]
  obtain ⟨m, hm⟩ := Option.isSome_iff_exists.mp (List.isSome_max?_of_mem h)
  rw [hm, Option.getD_some, Nat.zero_max]
  exact (List.max?_eq_some_iff.mp hm).2 n h

theorem foldl_max_le {l : List Nat} {n : Nat} (h : ∀ a ∈ l, a ≤ n) : l.foldl max 0 ≤ n := by
  cases l with
  | nil => exact Nat.zero_le n
  | cons a l => exact h _ (foldl_max_mem (List.cons_ne_nil a l))

/-- A reply that its node does not own the partition was received before the reads ended: no later
than they took, and in front of the success that ended them, if one did. -/
def StaleReceived (reads : List (Delivery ReadResult)) (elapsed : Nat) : Prop :=
  ∃ (place : Nat) (d : Delivery ReadResult) (tick : Nat), reads[place]? = some d ∧
    d.IsStale tick ∧ tick ≤ elapsed ∧
      ∀ (place' : Nat) (d' : Delivery ReadResult) (r : GetReply), reads[place']? = some d' →
        d'.Succeeds elapsed r → tick = elapsed → place < place'

theorem isStale_iff {result : ReadResult} :
    ReadResult.isStale result = true ↔ ∃ r, result = .reply r ∧ r.status = .notMyPartition := by
  cases result with
  | reply r => simp only [ReadResult.isStale, beq_iff_eq, ReadResult.reply.injEq, exists_eq_left']
  | failed e => simp only [ReadResult.isStale, Bool.false_eq_true, reduceCtorEq, false_and,
      exists_false]
  | crashed => simp only [ReadResult.isStale, Bool.false_eq_true, reduceCtorEq, false_and,
      exists_false]

-- In front of the success that ends the reads stand the stale replies that were received.
theorem any_stale_before_iff {before after : List Arrival} {a : Arrival} {r : GetReply}
    (horder : inOrder limit.ticks reads = before ++ a :: after) (ha : a.result = .reply r)
    (hr : r.status = .success) (hbefore : ∀ b ∈ before, b.result.isSuccess = false) :
    before.any (ReadResult.isStale ·.result) = true ↔ StaleReceived reads a.tick := by
  have hpairs := pairwise_inOrder limit.ticks reads
  have hmem : ∀ b ∈ before ++ a :: after, reads[b.place]? = some ⟨some b.tick, b.result⟩ ∧
      b.tick ≤ limit.ticks := by
    intro b hb
    rw [← horder] at hb
    exact mem_inOrder_iff.mp hb
  rw [horder, List.pairwise_append, List.pairwise_cons] at hpairs
  rw [List.any_eq_true]
  constructor
  · rintro ⟨b, hb, hstale⟩
    obtain ⟨r', hresult, hstatus⟩ := isStale_iff.mp hstale
    obtain ⟨hd, -⟩ := hmem b (List.mem_append_left _ hb)
    have hfront : b.Before a := hpairs.2.2 b hb a List.mem_cons_self
    rw [Arrival.Before] at hfront
    refine ⟨b.place, _, b.tick, hd, ⟨r', by rw [hresult], hstatus⟩, by omega, ?_⟩
    intro place' d' r'' hd' hsuccess htick
    have hfirst := first_of_inOrder horder hbefore hd' hsuccess
    omega
  · rintro ⟨place, d, tick, hd, ⟨r', rfl, hstatus⟩, hle, hfront⟩
    obtain ⟨hda, htick⟩ := hmem a (List.mem_append_right _ List.mem_cons_self)
    have hb : (⟨tick, place, .reply r'⟩ : Arrival) ∈ before ++ a :: after := by
      rw [← horder]
      exact mem_inOrder_iff.mpr ⟨hd, Nat.le_trans hle htick⟩
    -- a stale reply is not the winner, and none behind the winner was received before the end
    rcases List.mem_append.mp hb with hb | hb
    · exact ⟨_, hb, isStale_iff.mpr ⟨r', rfl, hstatus⟩⟩
    · rcases List.mem_cons.mp hb with rfl | hb
      · cases ha
        cases hstatus.symm.trans hr
      · have hbehind : a.tick < tick ∨ a.tick = tick ∧ a.place < place := hpairs.2.1.1 _ hb
        rw [ha] at hda
        have hplace := hfront a.place _ r hda ⟨rfl, hr⟩
        omega

-- Without a success in time all stale replies in time were received.
theorem any_stale_iff {elapsed : Nat} (hnone : NoSuccess limit.ticks reads)
    (hlast : ∀ a ∈ inOrder limit.ticks reads, a.tick ≤ elapsed) (hlimit : elapsed ≤ limit.ticks) :
    (inOrder limit.ticks reads).any (ReadResult.isStale ·.result) = true ↔
      StaleReceived reads elapsed := by
  rw [List.any_eq_true]
  constructor
  · rintro ⟨b, hb, hstale⟩
    obtain ⟨r, hresult, hstatus⟩ := isStale_iff.mp hstale
    obtain ⟨hd, -⟩ := mem_inOrder_iff.mp hb
    refine ⟨b.place, _, b.tick, hd, ⟨r, by rw [hresult], hstatus⟩, hlast b hb, ?_⟩
    intro place' d' r' hd' hsuccess _
    exact (hnone.not_won hd' hsuccess hlimit).elim
  · rintro ⟨place, d, tick, hd, ⟨r, rfl, hstatus⟩, hle, -⟩
    exact ⟨⟨tick, place, .reply r⟩, mem_inOrder_iff.mpr ⟨hd, Nat.le_trans hle hlimit⟩,
      isStale_iff.mpr ⟨r, rfl, hstatus⟩⟩

/-- The reads report the table as out of date exactly if they have received a stale reply and do not
end with their time. -/
theorem outdated_settle_iff (key : String) (limit : Duration) (reads : List (Delivery ReadResult)) :
    (settle key limit reads).outdated = true ↔
      StaleReceived reads (settle key limit reads).elapsed ∧
        (settle key limit reads).answer ≠ .error (.timeout key limit) := by
  have hsettles := settles_settle key limit reads
  revert hsettles
  generalize settle key limit reads = settled
  intro hsettles
  cases hsettles with
  | won horder ha hr hbefore =>
    have hstale := any_stale_before_iff horder ha (GetReply.isSuccess_iff.mp hr) hbefore
    exact ⟨fun h => ⟨hstale.mp h, nofun⟩, fun h => hstale.mpr h.1⟩
  | allFailed hnone hall =>
    have hstale := any_stale_iff (noSuccess_of_inOrder hnone)
      (fun a ha => le_foldl_max (List.mem_map_of_mem ha))
      (foldl_max_le fun tick htick => by
        obtain ⟨a, ha, rfl⟩ := List.mem_map.mp htick
        exact (mem_inOrder_iff.mp ha).2)
    exact ⟨fun h => ⟨hstale.mp h, nofun⟩, fun h => hstale.mpr h.1⟩
  | timedOut hnone hlate =>
    exact ⟨nofun, fun h => absurd rfl h.2⟩

end ReplicaRead

end ClusterClient
