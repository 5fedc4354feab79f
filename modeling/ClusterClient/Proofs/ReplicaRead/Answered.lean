import ClusterClient.Proofs.ReplicaRead.Requests
import Mathlib.Data.List.Basic
/-!
# Answers of replica reads

A replica read asks each copy of a key that has an active node, and its answer is that of the race
of its reads. One that may not wait at all asks nobody. A stale reply that was received before the
answer is reported, unless the answer is that the time is over.
-/

namespace ClusterClient.ReplicaRead

variable {W : Type} {t : Table} {key : String} {now : Nat} {sent : List SentRead}

-- Where some copy can be asked, a call that asks each copy asks someone.
theorem AsksEachCopy.ne_nil (h : AsksEachCopy t key now sent)
    (hreads : targets t (t.partitionOf key) ≠ []) : sent ≠ [] := by
  obtain ⟨⟨target, node⟩, hread⟩ := List.exists_mem_of_ne_nil _ hreads
  obtain ⟨x, hx, -⟩ := (h.copies target node).mpr (mem_targets_iff.mp hread)
  exact List.ne_nil_of_mem hx

-- Failing and hanging reads do not keep a success in time from being the answer.
theorem Race.isOk {limit : Duration} {reads : List (Delivery ReadResult)} {elapsed tick : Nat}
    {answer : Except ReplicaReadError GetReply} {d : Delivery ReadResult} {r : GetReply}
    (h : Race key limit reads elapsed answer) (hd : d ∈ reads) (hsuccess : d.Succeeds tick r)
    (htick : tick ≤ limit.ticks) : ∃ reply, answer = .ok reply := by
  cases h with
  | won => exact ⟨_, rfl⟩
  | allFailed hnone => exact absurd (hnone d hd tick r hsuccess) (Nat.not_lt.mpr htick)
  | timedOut hnone => exact absurd (hnone d hd tick r hsuccess) (Nat.not_lt.mpr htick)

/-- One partition on two nodes. -/
def twoCopies : Table :=
  { kind := .partitioned, name := "", rev := 1, replicaCount := 1
    partitions := [⟨some 0, [some 1]⟩]
    registry := .ofAddresses ["a:1", "a:2"] }

/-- A world without a state, where the primary and the replica each have one way to answer. -/
def copies (primary replica : Delivery ReadResult) : Surroundings Unit where
  table _ := some twoCopies
  observe w _ _ _ _ _ := (w, ⟨none, .error .noResponse⟩)
  get w _ _ target _ _ := match target with
    | .primary => (w, primary)
    | .replica _ => (w, replica)
  signalOutdated w := w
  wait w _ := w
  isDropped _ := false

def hanging : Delivery ReadResult := ⟨none, .crashed⟩

def found (address : String) : GetReply := ⟨address, .success, 7, none⟩

theorem not_staleReceived_nil (elapsed : Nat) : ¬ StaleReceived [] elapsed := by
  rintro ⟨_, _, _, hd, _⟩
  cases hd

/-- A call that comes to an answer reports the table as out of date exactly if it has received a
stale reply before its answer, and its answer is not that the time is over; and then it reports it
once. -/
theorem signals_iff_stale_in_time (s : Surroundings W) (limit : Duration) (key : String) (w : W)
    (now : Nat) :
    let call := run s.traced limit key (w, .start now) now
    let trace := call.2.2
    ∀ answer, call.1 = some answer →
      (0 < trace.signals ↔
        StaleReceived (trace.sent.map (·.delivery)) (trace.clock - now) ∧
          answer ≠ .error (.timeout key limit)) ∧
      trace.signals ≤ 1 := by
  have hsilent : ∀ {elapsed : Nat} {p : Prop},
      (0 < 0 ↔ StaleReceived [] elapsed ∧ p) ∧ 0 ≤ 1 := fun {elapsed p} =>
    ⟨iff_of_false (Nat.lt_irrefl 0) fun h => not_staleReceived_nil elapsed h.1, Nat.zero_le 1⟩
  cases ht : s.table w with
  | none =>
    have ht' : s.traced.table (w, .start now) = none := ht
    simp only [run, ht']
    exact fun _ _ => hsilent
  | some t =>
    obtain ⟨answer, v, trace, htraced, -, hcourse⟩ := run_traced s limit key w now ht
    rw [htraced]
    intro call trace answer hanswer
    cases hcourse with
    | noCopy => exact hsilent
    | noTime => exact hsilent
    | droppedBefore => cases hanswer
    | droppedAfter => cases hanswer
    | @settled v sent settled hreads hlimit hsent hsettled hkept =>
      cases hanswer
      have houtdated := outdated_settle_iff key limit (sent.map (·.delivery))
      rw [hsettled] at houtdated
      simp only [trace, call, Trace.sent_reads]
      show (0 < (if settled.outdated = true then 1 else 0) ↔
        StaleReceived (sent.map (·.delivery)) (now + settled.elapsed - now) ∧ _) ∧
          (if settled.outdated = true then 1 else 0) ≤ 1
      rw [Nat.add_sub_cancel_left, ← houtdated]
      by_cases hsignalled : settled.outdated = true
      · rw [if_pos hsignalled]
        exact ⟨iff_of_true Nat.one_pos hsignalled, Nat.le_refl 1⟩
      · rw [if_neg hsignalled]
        exact ⟨iff_of_false (Nat.lt_irrefl 0) hsignalled, Nat.zero_le 1⟩

def moved (address : String) : GetReply := ⟨address, .notMyPartition, 0, none⟩

-- How a call goes whose replica has a stale reply before the primary has the value.
theorem run_stale_before_found :
    let s := copies ⟨some 3, .reply (found "a:1")⟩ ⟨some 1, .reply (moved "a:2")⟩
    let call := run s.traced (.ofMillis 10) "k" ((), .start 0) 0
    call.1 = some (.ok (found "a:1")) ∧ call.2.2.clock = 3 ∧
      call.2.2.sent.map (·.delivery) =
        [⟨some 1, .reply (moved "a:2")⟩, ⟨some 3, .reply (found "a:1")⟩] := by
  intro s
  have hsettle : settle "k" (.ofMillis 10)
      [⟨some 1, .reply (moved "a:2")⟩, ⟨some 3, .reply (found "a:1")⟩] =
        ⟨.ok (found "a:1"), 3, true⟩ := by
    -- the replies are asked for in the order in which they arrive
    have hsorted : [(1, ReadResult.reply (moved "a:2")), (3, .reply (found "a:1"))].Pairwise
        fun a b => (decide (a.1 ≤ b.1)) = true := by decide
    have harrivals : arrivals 10
        [⟨some 1, .reply (moved "a:2")⟩, ⟨some 3, .reply (found "a:1")⟩] = _ :=
      List.mergeSort_of_pairwise hsorted
    rw [settle, Duration.ticks_ofMillis, harrivals]
    rfl
  have hsent : (dispatched s () 0 twoCopies "k").2.map (·.delivery) =
      [⟨some 1, .reply (moved "a:2")⟩, ⟨some 3, .reply (found "a:1")⟩] := by decide +kernel
  obtain ⟨answer, v, trace, htraced, -, hcourse⟩ := run_traced s (.ofMillis 10) "k" () 0 rfl
  rw [htraced]
  cases hcourse with
  | noCopy hreads => exact absurd hreads (by decide +kernel)
  | noTime _ hlimit => cases hlimit
  | droppedBefore _ _ hdropped => cases hdropped
  | droppedAfter _ _ _ _ hdropped => cases hdropped
  | settled _ _ hdispatched hsettled =>
    rw [hdispatched] at hsent
    rw [hsent, hsettle] at hsettled
    rw [← hsettled]
    refine ⟨rfl, rfl, ?_⟩
    rw [Trace.sent_reads]
    exact hsent

-- A call that has the value after a stale reply reports the table once.
theorem stale_reported_with_success :
    let s := copies ⟨some 3, .reply (found "a:1")⟩ ⟨some 1, .reply (moved "a:2")⟩
    let call := run s.traced (.ofMillis 10) "k" ((), .start 0) 0
    call.1 = some (.ok (found "a:1")) ∧
      StaleReceived (call.2.2.sent.map (·.delivery)) (call.2.2.clock - 0) ∧
      call.2.2.signals = 1 := by
  intro s call
  obtain ⟨hanswer, hclock, hsent⟩ := run_stale_before_found
  have hstale : StaleReceived (call.2.2.sent.map (·.delivery)) (call.2.2.clock - 0) := by
    rw [hsent, hclock]
    refine ⟨0, _, 1, rfl, ⟨moved "a:2", rfl, rfl⟩, by decide, ?_⟩
    intro place' d' r hd' hsuccess htick
    cases htick
  obtain ⟨hiff, hle⟩ := signals_iff_stale_in_time s (.ofMillis 10) "k" () 0 _ hanswer
  have hpos := hiff.mpr ⟨hstale, nofun⟩
  exact ⟨hanswer, hstale, Nat.le_antisymm hle hpos⟩

-- The replica's reply is stale and the primary hangs: the call times out and reports nothing.
theorem stale_unheard_at_timeout :
    ¬ ∀ (s : Surroundings Unit) (limit : Duration) (key : String)
        (answer : Except ReplicaReadError GetReply),
      let call := run s.traced limit key ((), .start 0) 0
      call.1 = some answer →
        StaleReceived (call.2.2.sent.map (·.delivery)) (call.2.2.clock - 0) →
          0 < call.2.2.signals := by
  intro h
  let s := copies hanging ⟨some 1, .reply (moved "a:2")⟩
  have hanswer : (run s.traced (.ofMillis 10) "k" ((), .start 0) 0).1 =
      some (.error (.timeout "k" (.ofMillis 10))) := by decide +kernel
  have hsignals : (run s.traced (.ofMillis 10) "k" ((), .start 0) 0).2.2.signals = 0 := by
    decide +kernel
  have hsent : (run s.traced (.ofMillis 10) "k" ((), .start 0) 0).2.2.sent.map (·.delivery) =
      [⟨some 1, .reply (moved "a:2")⟩, hanging] := by decide +kernel
  have hreports := h s (.ofMillis 10) "k" _ hanswer
  rw [hsignals, hsent] at hreports
  refine Nat.lt_irrefl 0 (hreports ⟨0, _, 1, rfl, ⟨moved "a:2", rfl, rfl⟩, ?_, ?_⟩)
  · decide +kernel
  · rintro place' d' r hd' ⟨rfl, hsuccess⟩
    rcases List.mem_pair.mp (List.mem_of_getElem? hd') with hmoved | hhanging
    · cases (Delivery.mk.inj hmoved).2
      cases hsuccess
    · cases (Delivery.mk.inj hhanging).1

end ClusterClient.ReplicaRead
