import ClusterClient.Proofs.Durability.Broadcasts
import ClusterClient.Proofs.Durability.Deadline
/-!
# When rounds begin

The first round of a poll begins with it, and each later one at the end of the pause before it. A
pause that would go on beyond the caller's time ends with that time, and a round may follow all the
same. Such a round has no time for replies, and it is the last one.
-/

namespace ClusterClient.Poll

variable {W : Type} {s : Surroundings W} {t : Job} {left last : Nat} {w v u : W}
  {now next tick deadline : Nat} {round : Round} {earlier later : List Round}

/-! ## After a pause -/

-- No pause is skipped that takes time: an undecided round ends before the caller's time does.
theorem Turn.next_eq (h : Turn s t left w now round v next) : next = t.wake round.ended := by
  cases h with
  | paused => rfl
  | atOnce hopens _ hverdict hwake =>
    have hundecided := (verdict_eq_none_iff hopens.beganIn.isComplete).mp hverdict
    refine Nat.le_antisymm (le_cap_iff.mpr ⟨Nat.le_add_right _ _, ?_⟩) hwake
    exact fun deadline hdeadline => Nat.le_of_lt (hundecided.lt_deadline hdeadline)

-- Where turns come to, the pause after the last of them ends.
theorem Reaches.tick_eq (h : Reaches s t left w now (earlier ++ [round]) last u tick) :
    tick = t.wake round.ended := by
  generalize hrounds : earlier ++ [round] = rounds at h
  induction h generalizing earlier with
  | here => exact absurd hrounds (List.append_ne_nil_of_right_ne_nil _ (List.cons_ne_nil _ _))
  | turn head tail ih =>
    cases earlier with
    | nil =>
      obtain ⟨rfl, rfl⟩ := List.cons.inj hrounds
      cases tail with
      | here => exact head.next_eq
    | cons first earlier => exact ih (List.cons.inj hrounds).2

-- A round begins with the caller's time not over, or just over; and this only after a pause.
theorem Reaches.tick_eq_deadline_iff (h : Reaches s t left w now earlier last u tick)
    (hdeadline : t.deadline = some deadline) (hnow : now < deadline) :
    tick ≤ deadline ∧ (tick = deadline ↔ ∃ before final, earlier = before ++ [final] ∧
      deadline ≤ final.ended + t.settings.interval.ticks) := by
  cases earlier using List.reverseRecOn with
  | nil =>
    cases h with
    | here =>
      refine ⟨Nat.le_of_lt hnow, fun heq => absurd heq (Nat.ne_of_lt hnow), ?_⟩
      rintro ⟨before, final, hnil, -⟩
      exact absurd hnil.symm (List.append_ne_nil_of_right_ne_nil _ (List.cons_ne_nil _ _))
  | append_singleton before final =>
    have hwake : tick = min (final.ended + t.settings.interval.ticks) deadline := by
      rw [h.tick_eq, Job.wake, hdeadline]
      rfl
    rw [hwake, min_eq_right_iff]
    refine ⟨Nat.min_le_right _ _, fun hle => ⟨before, final, rfl, hle⟩, ?_⟩
    rintro ⟨before', final', hsplit, hle⟩
    cases (List.append_inj' hsplit rfl).2
    exact hle

/-! ## A round at the end of the caller's time -/

theorem BeganIn.window_eq (h : BeganIn s t v round) (hdeadline : t.deadline = some deadline) :
    round.window = min t.settings.roundTimeout.ticks (deadline - round.started) := by
  rw [h.window, Job.window, hdeadline]
  show min _ deadline - round.started = _
  omega

-- A round that begins when the caller's time is over ends at once, and the poll with it.
theorem ends_at_deadline (h : (rounds s t left w now).rounds = earlier ++ round :: later)
    (hstarted : t.deadline = some round.started) :
    later = [] ∧ round.ended = round.started ∧
      (rounds s t left w now).finished = round.started := by
  have hin : t.InTime round.started := fun deadline hdeadline =>
    Nat.le_of_eq (Option.some.inj (hstarted.symm.trans hdeadline))
  have hended : ∀ {v u : W}, Opens s t v round.started round u → round.ended = round.started :=
    fun hopens =>
      Nat.le_antisymm ((hopens.ended_le hin).2 _ hstarted) round.started_le_ended
  obtain ⟨left', v, -, ⟨u, next, hturn⟩ | ⟨rfl, r, hends, hr, hreport⟩⟩ := turn_or_end h
  · -- an undecided round ends before the caller's time does
    obtain ⟨_, hopens, hverdict⟩ := hturn.opens
    have hundecided := (verdict_eq_none_iff hopens.beganIn.isComplete).mp hverdict
    exact absurd (hended hopens) (Nat.ne_of_lt (hundecided.lt_deadline hstarted))
  · refine ⟨rfl, ?_, ?_⟩
    · rcases hends.opens with hnone | ⟨round', u, hopens, hround⟩
      · cases hnone.symm.trans hr
      · cases hround.symm.trans hr
        exact hended hopens
    · rw [hreport]
      exact Nat.le_antisymm ((hends.finished_le hin).2 _ hstarted) hends.le_finished

/-- With a time of the caller's, a round begins before that time is over, or just when it is. The
latter is so exactly of a round before whose beginning the poll has paused up to the end of that
time: the pause is cut short, but the round after it is not. It has no time for replies, and the
poll ends with it. -/
theorem round_started_at_deadline_iff (s : Surroundings W) (settings : PollSettings)
    (request : DurabilityRequest) (d : Duration) (cancel : Cancellation) (w : W) (now : Nat)
    (hd : 0 < d.nanos) :
    let report := run s settings request (some d) cancel w now
    let deadline := now + d.ticks
    ∀ earlier round later, report.rounds = earlier ++ round :: later →
      round.started ≤ deadline ∧
        (round.started = deadline ↔ ∃ before final, earlier = before ++ [final] ∧
          deadline ≤ final.ended + settings.interval.ticks) ∧
        round.window = min settings.roundTimeout.ticks (deadline - round.started) ∧
        (round.started = deadline →
          later = [] ∧ round.ended = deadline ∧ report.finished = deadline) := by
  intro report deadline earlier round later hsplit
  by_cases htrivial : request.persistTo = .zero ∧ request.replicateTo = .zero
  · have hreport : report = .answered (.ok ()) w now :=
      run_of_trivial s settings (some d) cancel w now htrivial
    rw [hreport] at hsplit
    exact absurd hsplit (List.append_ne_nil_of_right_ne_nil _ (List.cons_ne_nil _ _)).symm
  · let t := job settings request (some d) cancel now
    have hreport : report = rounds s t t.limit w now :=
      run_eq s settings (some d) cancel w now htrivial
    have hnow : now < deadline := by
      have hcovers := d.nanos_le_ticks
      omega
    rw [hreport] at hsplit ⊢
    obtain ⟨left, v, hreaches, hbegan⟩ := reaches_of_split hsplit
    obtain ⟨hle, hiff⟩ := hreaches.tick_eq_deadline_iff rfl hnow
    refine ⟨hle, hiff, hbegan.window_eq rfl, fun hstarted => ?_⟩
    obtain ⟨hlater, hended, hfinished⟩ := ends_at_deadline hsplit (congrArg some hstarted.symm)
    exact ⟨hlater, hended.trans hstarted, hfinished.trans hstarted⟩

-- The rounds of this poll begin at the ticks 0 and 11, and the last one when the time is over.
theorem round_started_at_deadline_cut :
    let request := { pairRequest with isDelete := true }
    let d : Duration := .ofMillis 21
    let report := run slowPair pairSettings request (some d) .never 0 0
    0 < d.nanos ∧ ∃ first second third, report.rounds = [first, second, third] ∧
      [first, second, third].map (·.started) = [0, 11, 21] ∧
      21 ≤ second.ended + pairSettings.interval.ticks ∧
      third.window = 0 ∧ third.ended = 21 ∧ report.finished = 21 := by
  intro request d report
  have hd : 0 < d.nanos := by decide
  have hdeadline : 0 + d.ticks = 21 := (Nat.zero_add _).trans (Duration.ticks_ofMillis 21)
  have hstarts : report.rounds.map (·.started) = [0, 11, 21] := by decide +kernel
  obtain ⟨first, second, third, hrounds⟩ : ∃ first second third,
      report.rounds = [first, second, third] := by
    apply List.length_eq_three.mp
    rw [← List.length_map, hstarts]
    rfl
  rw [hrounds] at hstarts
  have hthird : third.started = 21 := (List.cons.inj (List.cons.inj (List.cons.inj hstarts).2).2).1
  obtain ⟨-, hpaused, hwindow, hlast⟩ := round_started_at_deadline_iff slowPair pairSettings request
    d .never 0 0 hd [first, second] third [] hrounds
  rw [hdeadline] at hpaused hwindow hlast
  obtain ⟨before, final, hsplit, hpause⟩ := hpaused.mp hthird
  obtain ⟨-, hended, hfinished⟩ := hlast hthird
  cases (List.append_inj' (show [first] ++ [second] = _ from hsplit) rfl).2
  refine ⟨hd, first, second, third, hrounds, hstarts, hpause, ?_, hended, hfinished⟩
  rw [hwindow, hthird, Nat.sub_self, Nat.min_zero]

-- That poll broadcasts a round when the caller's time is over.
theorem round_started_at_deadline :
    ¬ ∀ (W : Type) (s : Surroundings W) (settings : PollSettings) (request : DurabilityRequest)
        (d : Duration) (cancel : Cancellation) (w : W) (now : Nat), 0 < d.nanos →
      ∀ round ∈ (run s settings request (some d) cancel w now).rounds,
        round.started < now + d.ticks := by
  intro h
  have hall := h Nat slowPair pairSettings { pairRequest with isDelete := true } (.ofMillis 21)
    .never 0 0 (by decide)
  exact absurd hall (by decide +kernel)

end ClusterClient.Poll
