import ClusterClient.Proofs.Durability.Turns
import Mathlib.Algebra.Order.Floor.Div
/-!
# What a poll that gives up has used

A poll has a number of rounds and perhaps a time of the caller's. One that reports that no round
proved the durability in time has made all its rounds, with a pause after each, or has used up the
caller's time. The rounds that fit into the caller's time are counted so that both come to the same.
-/

namespace ClusterClient.Poll

variable {W : Type} {s : Surroundings W} {t : Job} {left last : Nat} {w v u : W}
  {now next tick : Nat} {round : Round} {earlier : List Round} {r : Report W}
  {settings : PollSettings} {request : DurabilityRequest} {attempts : Nat} {elapsed : Duration}

/-! ## Rounds that are allowed -/

-- The pauses of the rounds that a caller's time allows fill it, unless the settings allow no more.
theorem covers_of_roundsWithin (hinterval : 0 < settings.interval.nanos) (d : Duration) :
    settings.maxRounds ≤ settings.roundsWithin (some d) ∨
      d.nanos ≤ settings.roundsWithin (some d) * settings.interval.nanos := by
  have hwithin : settings.roundsWithin (some d) =
      max (min (d.nanos ⌈/⌉ settings.interval.nanos) settings.maxRounds) 1 := by
    rw [PollSettings.roundsWithin, Nat.max_eq_left hinterval, Nat.ceilDiv_eq_add_pred_div]
  rw [hwithin]
  rcases Nat.le_total settings.maxRounds (d.nanos ⌈/⌉ settings.interval.nanos) with hmax | hfits
  · rw [Nat.min_eq_right hmax]
    exact .inl (Nat.le_max_left _ _)
  · rw [Nat.min_eq_left hfits, Nat.mul_comm]
    have hcovers : d.nanos ≤ settings.interval.nanos * (d.nanos ⌈/⌉ settings.interval.nanos) :=
      le_smul_ceilDiv hinterval
    exact .inr (hcovers.trans (Nat.mul_le_mul_left _ (Nat.le_max_left _ _)))

-- Where the settings allow no round at all, a caller's time still allows one.
theorem roundsWithin_of_zero {timeout : Option Duration}
    (h : settings.maxRounds = 0 ∧ timeout ≠ none) : settings.roundsWithin timeout = 1 := by
  obtain ⟨d, rfl⟩ := Option.ne_none_iff_exists'.mp h.2
  rw [PollSettings.roundsWithin, h.1, Nat.min_zero]
  rfl

theorem roundsWithin_le {timeout : Option Duration}
    (h : ¬ (settings.maxRounds = 0 ∧ timeout ≠ none)) :
    settings.roundsWithin timeout ≤ settings.maxRounds := by
  cases timeout with
  | none => exact Nat.le_refl _
  | some d =>
    have hpos : 1 ≤ settings.maxRounds := Nat.one_le_iff_ne_zero.mpr fun hzero => h ⟨hzero, nofun⟩
    exact Nat.max_le.mpr ⟨Nat.min_le_right _ _, hpos⟩

/-! ## Turns -/

-- A pause is as long as the settings say, or up to the end of the caller's time.
theorem Job.wake_cases (t : Job) (ended : Nat) :
    t.wake ended = ended + t.settings.interval.ticks ∨ t.deadline = some (t.wake ended) := by
  rw [Job.wake]
  cases t.deadline with
  | none => exact .inl rfl
  | some d =>
    rcases Nat.le_total (ended + t.settings.interval.ticks) d with hle | hle
    · exact .inl (Nat.min_eq_left hle)
    · exact .inr (congrArg some (Nat.min_eq_right hle).symm)

theorem Turn.wake_le_next (h : Turn s t left w now round v next) : t.wake round.ended ≤ next := by
  cases h with
  | atOnce _ _ _ hwake => exact hwake
  | paused => exact Nat.le_refl _

-- A turn has made its whole pause when the next one begins, or the caller's time is over.
theorem Turn.paused_or_over (h : Turn s t left w now round v next) :
    now + t.settings.interval.ticks ≤ next ∨ isOver t.deadline next = true := by
  obtain ⟨hended, -⟩ := h.le_next
  have hwake := h.wake_le_next
  rcases t.wake_cases round.ended with hpause | hdeadline
  · rw [hpause] at hwake
    exact .inl ((Nat.add_le_add_right hended _).trans hwake)
  · exact .inr (isOver_iff.mpr ⟨_, hdeadline, hwake⟩)

theorem isOver_mono {deadline : Option Nat} (h : isOver deadline now = true) (hle : now ≤ tick) :
    isOver deadline tick = true := by
  obtain ⟨d, hd, hover⟩ := isOver_iff.mp h
  exact isOver_iff.mpr ⟨d, hd, hover.trans hle⟩

/-! ## Runs of turns -/

-- Each turn makes one round.
theorem Reaches.length_add (h : Reaches s t left w now earlier last u tick) :
    earlier.length + last = left := by
  induction h with
  | here => exact Nat.zero_add _
  | turn head tail ih => rw [List.length_cons, Nat.add_right_comm, ih]

theorem Reaches.le_tick (h : Reaches s t left w now earlier last u tick) : now ≤ tick := by
  induction h with
  | here => exact Nat.le_refl _
  | turn head tail ih => exact (head.le_next.1.trans head.le_next.2).trans ih

/-- Undecided turns have made their whole pauses, or the caller's time is over. -/
theorem Reaches.paused_or_over (h : Reaches s t left w now earlier last u tick) :
    now + earlier.length * t.settings.interval.ticks ≤ tick ∨ isOver t.deadline tick = true := by
  induction h with
  | here left w now =>
    refine .inl (Nat.le_of_eq ?_)
    rw [List.length_nil, Nat.zero_mul, Nat.add_zero]
  | turn head tail ih =>
    rcases head.paused_or_over with hpause | hover
    · refine ih.imp_left fun hrest => ?_
      rw [List.length_cons, Nat.succ_mul]
      omega
    · exact .inr (isOver_mono hover tail.le_tick)

/-! ## Giving up -/

-- A poll gives up when no turn is left or when a round has used up the caller's time.
theorem Ends.timed_out (h : Ends s t left w now r)
    (hr : r.answer = some (.error (.timeout request attempts elapsed))) :
    request = t.request ∧ elapsed = .ofMillis (r.finished - t.started) ∧
      (left = 0 ∧ attempts = t.limit ∧ r.finished = now ∨
        isOver t.deadline r.finished = true) := by
  cases h with
  | exhausted =>
    cases hr
    exact ⟨rfl, rfl, .inl ⟨rfl, rfl, rfl⟩⟩
  | cancelled => cases hr
  | unrouted => cases hr
  | insufficient => cases hr
  | droppedInRound => cases hr
  | decided hopens _ hverdict =>
    cases hr
    cases (verdict_eq_some_iff hopens.beganIn.isComplete).mp hverdict with
    | timeOver _ _ hdeadline hover =>
      exact ⟨rfl, rfl, .inr (isOver_iff.mpr ⟨_, hdeadline, hover⟩)⟩
  | droppedInPause => cases hr
  | interrupted => cases hr

theorem rounds_timed_out
    (h : (rounds s t left w now).answer = some (.error (.timeout request attempts elapsed))) :
    request = t.request ∧
      elapsed = .ofMillis ((rounds s t left w now).finished - t.started) ∧
      (attempts = t.limit ∧
          now + left * t.settings.interval.ticks ≤ (rounds s t left w now).finished ∨
        isOver t.deadline (rounds s t left w now).finished = true) := by
  obtain ⟨earlier, last, v, tick, r, hreaches, hends, hrounds⟩ := rounds_spec s t left w now
  rw [hrounds] at h ⊢
  obtain ⟨hrequest, helapsed, hgave⟩ := hends.timed_out h
  refine ⟨hrequest, helapsed, ?_⟩
  rcases hgave with ⟨rfl, hattempts, hfinished⟩ | hover
  · rw [← hreaches.length_add]
    show _ ∧ _ ≤ r.finished ∨ isOver _ r.finished = true
    rw [hfinished]
    exact hreaches.paused_or_over.imp_left fun hpaused => ⟨hattempts, hpaused⟩
  · exact .inr hover

/-- With a pause between rounds a poll never gives up early. Without a time of the caller's it has
made all the rounds of the settings, with their pauses; with one it has made as many, or the time is
over. The time that it reports is that which has passed. -/
theorem timeout_never_early (s : Surroundings W) (settings : PollSettings)
    (request : DurabilityRequest) (timeout : Option Duration) (cancel : Cancellation) (w : W)
    (now : Nat) (hinterval : 0 < settings.interval.nanos) {refused : DurabilityRequest}
    {attempts : Nat} {elapsed : Duration}
    (hanswer : (run s settings request timeout cancel w now).answer =
      some (.error (.timeout refused attempts elapsed))) :
    refused = request ∧
      elapsed = .ofMillis ((run s settings request timeout cancel w now).finished - now) ∧
      (timeout = none → attempts = settings.maxRounds ∧
        settings.maxRounds * settings.interval.nanos ≤ elapsed.nanos) ∧
      ∀ d, timeout = some d → settings.maxRounds ≤ attempts ∨ d.nanos ≤ elapsed.nanos := by
  by_cases htrivial : request.persistTo = .zero ∧ request.replicateTo = .zero
  · rw [run_of_trivial s settings timeout cancel w now htrivial] at hanswer
    cases hanswer
  · rw [run_eq s settings timeout cancel w now htrivial] at hanswer ⊢
    obtain ⟨hrequest, helapsed, hgave⟩ := rounds_timed_out hanswer
    generalize (rounds s (job settings request timeout cancel now) (settings.roundsWithin timeout)
      w now).finished = finished at helapsed hgave ⊢
    have hnanos : elapsed.nanos = (finished - now) * 1000000 := congrArg Duration.nanos helapsed
    have hpaused : ∀ n, now + n * settings.interval.ticks ≤ finished →
        n * settings.interval.nanos ≤ elapsed.nanos := by
      intro n hn
      have hticks : n * settings.interval.ticks ≤ finished - now := by omega
      calc n * settings.interval.nanos
        _ ≤ n * (settings.interval.ticks * 1000000) :=
          Nat.mul_le_mul_left n settings.interval.nanos_le_ticks
        _ = n * settings.interval.ticks * 1000000 := (Nat.mul_assoc ..).symm
        _ ≤ (finished - now) * 1000000 := Nat.mul_le_mul_right _ hticks
        _ = elapsed.nanos := hnanos.symm
    refine ⟨hrequest, helapsed, ?_, ?_⟩
    · rintro rfl
      rcases hgave with ⟨hattempts, hle⟩ | hover
      · exact ⟨hattempts, hpaused _ hle⟩
      · cases hover
    · rintro d rfl
      rcases hgave with ⟨hattempts, hle⟩ | hover
      · rw [hattempts]
        exact (covers_of_roundsWithin hinterval d).imp_right fun hcovers =>
          hcovers.trans (hpaused _ hle)
      · have hle : now + d.ticks ≤ finished := by
          obtain ⟨deadline, hdeadline, hover⟩ := isOver_iff.mp hover
          cases hdeadline
          exact hover
        have hcovers := d.nanos_le_ticks
        exact .inr (by omega)

-- Three rounds fit into the time of the caller's, and the last pause is cut short when it is over.
-- Without that time the poll makes the three rounds of its settings, and every pause is whole.
theorem timeout_never_early_cut :
    let request := { pairRequest with isDelete := true }
    let ample := { pairSettings with maxRounds := 500 }
    let limited := run slowPair ample request (some (.ofMicros 24500)) .never 0 0
    let unlimited := run slowPair pairSettings request none .never 0 0
    0 < ample.interval.nanos ∧
      limited.answer = some (.error (.timeout request 3 (.ofMillis 25))) ∧
      (Duration.ofMicros 24500).nanos ≤ (Duration.ofMillis 25).nanos ∧
      unlimited.answer = some (.error (.timeout request 3 (.ofMillis 33))) ∧
      3 * pairSettings.interval.nanos ≤ (Duration.ofMillis 33).nanos := by
  intro request ample limited unlimited
  have hinterval : 0 < ample.interval.nanos := by decide
  have hlimited : limited.answer = some (.error (.timeout request 3 (.ofMillis 25))) := by
    decide +kernel
  have hunlimited : unlimited.answer = some (.error (.timeout request 3 (.ofMillis 33))) := by
    decide +kernel
  obtain ⟨-, -, -, hlate⟩ := timeout_never_early slowPair ample request (some (.ofMicros 24500))
    .never 0 0 hinterval hlimited
  obtain ⟨-, -, hpaused, -⟩ := timeout_never_early slowPair pairSettings request none .never 0 0
    hinterval hunlimited
  refine ⟨hinterval, hlimited, (hlate _ rfl).resolve_left ?_, hunlimited, (hpaused rfl).2⟩
  decide

/-! ## Rounds that are made -/

theorem length_rounds_le (s : Surroundings W) (t : Job) (left : Nat) (w : W) (now : Nat) :
    (rounds s t left w now).rounds.length ≤ left := by
  induction left generalizing w now with
  | zero => exact Nat.le_refl 0
  | succ left ih =>
    rcases rounds_succ s t left w now with hends | ⟨round, v, next, hturn, hrounds⟩
    · rcases hends.opens with hnone | ⟨round, u, -, hone⟩
      · rw [hnone]
        exact Nat.zero_le _
      · rw [hone]
        exact Nat.succ_le_succ (Nat.zero_le _)
    · rw [hrounds]
      exact Nat.succ_le_succ (ih v next)

-- A poll with turns left makes a round unless it is cancelled or refuses its route.
theorem rounds_pos_iff (s : Surroundings W) (t : Job) (left : Nat) (w : W) (now : Nat) :
    0 < (rounds s t (left + 1) w now).rounds.length ↔ t.cancel.wasSet now = false ∧
      ∃ r, route (s.table w) t.request.key = .ok r ∧ t.request.isSatisfiable r = true := by
  constructor
  · intro hpos
    have hopens : ∃ round v, Opens s t w now round v := by
      rcases rounds_succ s t left w now with hends | ⟨round, v, next, hturn, -⟩
      · rcases hends.opens with hnone | ⟨round, u, hopens, -⟩
        · rw [hnone] at hpos
          cases hpos
        · exact ⟨round, u, hopens⟩
      · obtain ⟨u, hopens, -⟩ := hturn.opens
        exact ⟨round, u, hopens⟩
    obtain ⟨round, v, hopens⟩ := hopens
    exact ⟨hopens.notCancelled, round.route, hopens.routed, hopens.satisfiable⟩
  · rintro ⟨hcancel, r, hroute, hsatisfiable⟩
    obtain ⟨round, v, hopens⟩ := opens_of_run hcancel hroute hsatisfiable
    rw [rounds_of_opens hopens]
    exact Nat.succ_pos _

/-- A poll makes more rounds than its settings allow exactly where they allow none and the caller
gives it a time: then it makes one, if it may begin at all. -/
theorem rounds_exceed_max_iff (s : Surroundings W) (settings : PollSettings)
    (request : DurabilityRequest) (timeout : Option Duration) (cancel : Cancellation) (w : W)
    (now : Nat) :
    let report := run s settings request timeout cancel w now
    (settings.maxRounds < report.rounds.length ↔
        settings.maxRounds = 0 ∧ timeout ≠ none ∧
          ¬ (request.persistTo = .zero ∧ request.replicateTo = .zero) ∧
          cancel.wasSet now = false ∧
          ∃ r, route (s.table w) request.key = .ok r ∧ request.isSatisfiable r = true) ∧
      report.rounds.length ≤ max settings.maxRounds 1 := by
  intro report
  by_cases htrivial : request.persistTo = .zero ∧ request.replicateTo = .zero
  · have hreport : report = .answered (.ok ()) w now :=
      run_of_trivial s settings timeout cancel w now htrivial
    rw [hreport]
    refine ⟨⟨fun h => absurd h (Nat.not_lt_zero _), fun h => absurd htrivial h.2.2.1⟩, ?_⟩
    exact Nat.zero_le _
  · let t := job settings request timeout cancel now
    have hreport : report = rounds s t (settings.roundsWithin timeout) w now :=
      run_eq s settings timeout cancel w now htrivial
    have hlength := length_rounds_le s t (settings.roundsWithin timeout) w now
    rw [hreport]
    by_cases hexempt : settings.maxRounds = 0 ∧ timeout ≠ none
    · rw [roundsWithin_of_zero hexempt] at hlength ⊢
      refine ⟨?_, hlength.trans (Nat.le_max_right _ _)⟩
      rw [hexempt.1, rounds_pos_iff]
      exact ⟨fun h => ⟨rfl, hexempt.2, htrivial, h⟩, fun h => h.2.2.2⟩
    · have hmax := hlength.trans (roundsWithin_le hexempt)
      refine ⟨⟨fun h => absurd h (Nat.not_lt.mpr hmax), fun h => ?_⟩, hmax.trans (Nat.le_max_left _ _)⟩
      exact absurd ⟨h.1, h.2.1⟩ hexempt

-- A poll that may make no round makes one when it is given a time.
theorem rounds_exceed_zero_max :
    ¬ ∀ (W : Type) (s : Surroundings W) (settings : PollSettings) (request : DurabilityRequest)
        (timeout : Option Duration) (cancel : Cancellation) (w : W) (now : Nat),
      (run s settings request timeout cancel w now).rounds.length ≤ settings.maxRounds := by
  intro h
  have hnone := h Nat slowPair { pairSettings with maxRounds := 0 } pairRequest
    (some (.ofMillis 30)) .never 0 0
  exact absurd hnone (by decide +kernel)

end ClusterClient.Poll
