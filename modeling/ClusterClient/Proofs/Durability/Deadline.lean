import ClusterClient.Proofs.Durability.Turns
/-!
# How long a poll takes

A turn waits twice, for replies and then in a pause, and both waits are cut short at the end of the
caller's time. So no node can keep a poll beyond that time, and without such a time a poll takes no
longer than its turns.
-/

namespace ClusterClient.Poll

variable {W : Type} {s : Surroundings W} {t : Job} {left : Nat} {w v : W} {now next tick n : Nat}
  {round : Round} {r : Report W}

/-- A tick at which the caller's time is not over, or just over. -/
def Job.InTime (t : Job) (tick : Nat) : Prop :=
  ∀ deadline, t.deadline = some deadline → tick ≤ deadline

/-- The most ticks that one turn takes. -/
def Job.turnTicks (t : Job) : Nat := t.settings.roundTimeout.ticks + t.settings.interval.ticks

/-! ## Waits -/

theorem le_cap_iff {deadline : Option Nat} :
    n ≤ cap tick deadline ↔ n ≤ tick ∧ ∀ d, deadline = some d → n ≤ d := by
  cases deadline with
  | none => exact ⟨fun h => ⟨h, nofun⟩, And.left⟩
  | some d =>
    rw [cap, Nat.le_min]
    exact and_congr_right fun _ => ⟨fun h _ hd => Option.some.inj hd ▸ h, fun h => h d rfl⟩

-- What is capped is neither later than it was nor later than the caller's time.
theorem inTime_cap (t : Job) (tick : Nat) :
    cap tick t.deadline ≤ tick ∧ t.InTime (cap tick t.deadline) :=
  le_cap_iff.mp (Nat.le_refl _)

theorem Job.InTime.mono (h : t.InTime tick) (hle : n ≤ tick) : t.InTime n :=
  fun deadline hdeadline => Nat.le_trans hle (h deadline hdeadline)

theorem Opens.ended_le (h : Opens s t w now round v) (hnow : t.InTime now) :
    round.ended ≤ now + t.settings.roundTimeout.ticks ∧ t.InTime round.ended := by
  have hcap : now ≤ cap (now + t.settings.roundTimeout.ticks) t.deadline :=
    le_cap_iff.mpr ⟨Nat.le_add_right _ _, hnow⟩
  have hended : round.ended ≤ cap (now + t.settings.roundTimeout.ticks) t.deadline := by
    have hround := round.ended_le
    rwa [h.beganIn.window, h.started, Job.window, Nat.add_sub_cancel' hcap] at hround
  obtain ⟨hle, hin⟩ := inTime_cap t (now + t.settings.roundTimeout.ticks)
  exact ⟨Nat.le_trans hended hle, hin.mono hended⟩

-- The pause after a round, whether it is there or not, ends within the turn.
theorem Opens.wake_le (h : Opens s t w now round v) (hnow : t.InTime now) :
    t.wake round.ended ≤ now + t.turnTicks ∧ t.InTime (t.wake round.ended) := by
  obtain ⟨hended, -⟩ := h.ended_le hnow
  obtain ⟨hwake, hin⟩ := inTime_cap t (round.ended + t.settings.interval.ticks)
  refine ⟨Nat.le_trans hwake ?_, hin⟩
  rw [Job.turnTicks, ← Nat.add_assoc]
  exact Nat.add_le_add_right hended _

theorem Opens.ended_le_turn (h : Opens s t w now round v) (hnow : t.InTime now) :
    round.ended ≤ now + t.turnTicks ∧ t.InTime round.ended := by
  obtain ⟨hended, hin⟩ := h.ended_le hnow
  refine ⟨Nat.le_trans hended ?_, hin⟩
  rw [Job.turnTicks, ← Nat.add_assoc]
  exact Nat.le_add_right _ _

/-! ## Turns and ends -/

theorem Turn.next_le (h : Turn s t left w now round v next) (hnow : t.InTime now) :
    next ≤ now + t.turnTicks ∧ t.InTime next := by
  cases h with
  | atOnce hopens => exact hopens.ended_le_turn hnow
  | paused hopens => exact hopens.wake_le hnow

-- The end of a poll takes one turn at most, and none if no turn is left.
theorem Ends.finished_le (h : Ends s t left w now r) (hnow : t.InTime now) :
    r.finished ≤ now + left * t.turnTicks ∧ t.InTime r.finished := by
  have hwithin : ∀ {left tick : Nat}, tick ≤ now + t.turnTicks ∧ t.InTime tick →
      tick ≤ now + (left + 1) * t.turnTicks ∧ t.InTime tick := by
    rintro left tick ⟨hle, hin⟩
    refine ⟨Nat.le_trans hle (Nat.add_le_add_left ?_ now), hin⟩
    exact Nat.le_mul_of_pos_left _ (Nat.succ_pos left)
  have hbefore : ∀ {tick wake : Nat}, tick ≤ wake → wake ≤ now + t.turnTicks ∧ t.InTime wake →
      tick ≤ now + t.turnTicks ∧ t.InTime tick := fun hle hwake =>
    ⟨Nat.le_trans hle hwake.1, hwake.2.mono hle⟩
  cases h with
  | exhausted => exact ⟨Nat.le_add_right _ _, hnow⟩
  | cancelled => exact ⟨Nat.le_add_right _ _, hnow⟩
  | unrouted => exact ⟨Nat.le_add_right _ _, hnow⟩
  | insufficient => exact ⟨Nat.le_add_right _ _, hnow⟩
  | droppedInRound hopens => exact hwithin (hopens.ended_le_turn hnow)
  | decided hopens => exact hwithin (hopens.ended_le_turn hnow)
  | @droppedInPause _ _ _ _ tick round hopens _ _ _ htick =>
    refine hwithin (hbefore ?_ (hopens.wake_le hnow))
    show tick ≤ t.wake round.ended
    rw [htick]
    cases hfirst : t.cancel.firstSet? round.ended (t.wake round.ended) with
    | none => exact Nat.le_refl _
    | some first => exact Nat.le_of_lt (Cancellation.firstSet?_spec hfirst).2.1
  | interrupted hopens _ _ _ htick =>
    exact hwithin (hbefore (Nat.le_of_lt (Cancellation.firstSet?_spec htick).2.1)
      (hopens.wake_le hnow))

/-! ## Runs -/

/-- From a turn that begins in time on, a poll ends in time, and takes no longer than the turns that
are left. -/
theorem rounds_finished_le (s : Surroundings W) (t : Job) (left : Nat) (w : W) (now : Nat)
    (hnow : t.InTime now) :
    (rounds s t left w now).finished ≤ now + left * t.turnTicks ∧
      t.InTime (rounds s t left w now).finished := by
  induction left generalizing w now with
  | zero => exact ⟨Nat.le_add_right _ _, hnow⟩
  | succ left ih =>
    rcases rounds_succ s t left w now with hends | ⟨round, v, next, hturn, hrounds⟩
    · exact hends.finished_le hnow
    · obtain ⟨hnext, hin⟩ := hturn.next_le hnow
      obtain ⟨hle, hfinished⟩ := ih v next hin
      rw [hrounds]
      refine ⟨Nat.le_trans hle ?_, hfinished⟩
      rw [Nat.succ_mul]
      omega

/-- Whatever nodes do, a poll comes to an answer or is let go of. With a time of the caller's it does
so when that time is over at the latest, to the tick if it is one of whole milliseconds. Without it
takes no longer than its rounds and the pauses after them, each as long as it may be. -/
theorem finished_in_time (s : Surroundings W) (settings : PollSettings)
    (request : DurabilityRequest) (timeout : Option Duration) (cancel : Cancellation) (w : W)
    (now : Nat) :
    let report := run s settings request timeout cancel w now
    ((∃ answer, report.answer = some answer) ∨ s.isDropped report.world = true) ∧
      (∀ d, timeout = some d → report.finished ≤ now + d.ticks) ∧
      (∀ n, timeout = some (.ofMillis n) → report.finished ≤ now + n) ∧
      (timeout = none → report.finished ≤
        now + settings.maxRounds * (settings.roundTimeout.ticks + settings.interval.ticks)) := by
  intro report
  by_cases hrequest : request.persistTo = .zero ∧ request.replicateTo = .zero
  · have hreport : report = .answered (.ok ()) w now :=
      run_of_trivial s settings timeout cancel w now hrequest
    rw [hreport]
    exact ⟨.inl ⟨.ok (), rfl⟩, fun _ _ => Nat.le_add_right _ _, fun _ _ => Nat.le_add_right _ _,
      fun _ => Nat.le_add_right _ _⟩
  · let t := job settings request timeout cancel now
    have hreport : report = rounds s t (settings.roundsWithin timeout) w now :=
      run_eq s settings timeout cancel w now hrequest
    have hnow : t.InTime now := by
      intro deadline hdeadline
      obtain ⟨d, -, rfl⟩ := Option.map_eq_some_iff.mp hdeadline
      exact Nat.le_add_right _ _
    obtain ⟨hle, hin⟩ := rounds_finished_le s t (settings.roundsWithin timeout) w now hnow
    rw [hreport]
    have hdeadline : ∀ d, timeout = some d →
        (rounds s t (settings.roundsWithin timeout) w now).finished ≤ now + d.ticks := by
      rintro d rfl
      exact hin _ rfl
    refine ⟨?_, hdeadline, fun n hn => ?_, ?_⟩
    · cases hanswer : (rounds s t (settings.roundsWithin timeout) w now).answer with
      | none => exact .inr (isDropped_of_rounds hanswer)
      | some answer => exact .inl ⟨answer, rfl⟩
    · rw [← Duration.ticks_ofMillis n]
      exact hdeadline _ hn
    · rintro rfl
      exact hle

/-- The pair with a replica that never answers, and a primary that has persisted everything. -/
def hungPair : Surroundings Nat :=
  { slowPair with
    observe := fun w _ node _ cas _ =>
      (w, ⟨if node.index = 0 then some 1 else none, .ok ⟨cas, .foundPersisted⟩⟩) }

-- A replica that hangs takes all the time there is, with a time of the caller's and without.
theorem finished_in_time_hung :
    let limited := run hungPair pairSettings pairRequest (some (.ofMillis 12)) .never 0 0
    let unlimited := run hungPair pairSettings pairRequest none .never 0 0
    limited.finished ≤ 12 ∧ limited.finished = 12 ∧ limited.rounds.length = 2 ∧
      unlimited.finished ≤ 45 ∧ unlimited.finished = 45 ∧ unlimited.rounds.length = 3 := by
  intro limited unlimited
  have hlimited : limited.finished ≤ 0 + 12 :=
    (finished_in_time hungPair pairSettings pairRequest (some (.ofMillis 12)) .never 0 0).2.2.1 12
      rfl
  have hunlimited : unlimited.finished ≤ 0 + 3 * (5 + 10) :=
    (finished_in_time hungPair pairSettings pairRequest none .never 0 0).2.2.2 rfl
  refine ⟨by omega, ?_, ?_, by omega, ?_, ?_⟩
  · decide +kernel
  · decide +kernel
  · decide +kernel
  · decide +kernel

end ClusterClient.Poll
