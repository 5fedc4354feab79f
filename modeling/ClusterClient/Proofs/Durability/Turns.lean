import ClusterClient.Proofs.Durability.Confirmed
import ClusterClient.Proofs.Durability.Flag
/-!
# The turns of a poll, one by one

What a round decides, said of its replies and of the time, and what becomes of a poll after one of
its rounds. Time never goes back from one turn to the next.
-/

namespace ClusterClient

variable {W : Type}

namespace Round

theorem started_le_ended (r : Round) : r.started ≤ r.ended := Nat.le_add_right _ _

-- No round lasts longer than its window, whoever does not answer.
theorem ended_le (r : Round) : r.ended ≤ r.started + r.window := by
  refine Nat.add_le_add_left ?_ _
  refine List.foldlRecOn (motive := (· ≤ r.window)) _ _ (Nat.zero_le _)
    fun latest hlatest tick htick => ?_
  obtain ⟨d, -, rfl⟩ := List.mem_map.mp htick
  exact Nat.max_le.mpr ⟨hlatest, d.waited_le _⟩

theorem tally_masterModified_iff {r : Round} (h : r.IsComplete) (request : DurabilityRequest) :
    (r.tally request).masterModified = true ↔ r.PrimaryAnswers (·.ShowsModified request.cas) := by
  cases hdeliveries : r.deliveries with
  | nil =>
    rw [IsComplete, hdeliveries] at h
    cases h
  | cons d ds =>
    rw [primaryAnswers_iff hdeliveries (Observation.readsOff_modified request.cas), tally,
      marked_eq hdeliveries, Tally.ofOutcomes_cons]

end Round

namespace Poll

variable {s : Surroundings W} {t : Job} {left number : Nat} {w v : W} {now next : Nat}
  {round : Round} {earlier later : List Round} {r : Report W}
  {answer : Except DurabilityError Unit}

/-! ## What a round decides -/

/-- What is decided by a round, which is the one of a number: the primary holds another version, or
the round proves the durability, or it does not and the caller's time is over. -/
inductive Decides (t : Job) (number : Nat) (round : Round) : Except DurabilityError Unit → Prop
  where
  | modified (h : round.PrimaryAnswers (·.ShowsModified t.request.cas)) :
      Decides t number round (.error (.modified t.request.key t.request.cas number))
  | proved (h : round.Proves t.request) : Decides t number round (.ok ())
  | timeOver {deadline : Nat}
      (hmodified : ¬ round.PrimaryAnswers (·.ShowsModified t.request.cas))
      (hproves : ¬ round.Proves t.request) (hdeadline : t.deadline = some deadline)
      (hover : deadline ≤ round.ended) :
      Decides t number round (.error (t.timedOut number round.ended))

theorem isOver_iff {deadline : Option Nat} :
    isOver deadline now = true ↔ ∃ d, deadline = some d ∧ d ≤ now := by
  cases deadline with
  | none => exact ⟨nofun, nofun⟩
  | some d =>
    show decide (d ≤ now) = true ↔ _
    rw [decide_eq_true_eq]
    exact ⟨fun h => ⟨d, rfl, h⟩, fun ⟨_, hd, h⟩ => Option.some.inj hd ▸ h⟩

/-- The verdict on a round says what it decides. -/
theorem verdict_eq_some_iff (h : round.IsComplete) :
    t.verdict number round = some answer ↔ Decides t number round answer := by
  have hproves := Round.tally_satisfies_iff h t.request
  have hmodified := Round.tally_masterModified_iff h t.request
  constructor
  · intro hverdict
    rw [Job.verdict] at hverdict
    by_cases hm : (round.tally t.request).masterModified = true
    · rw [if_pos hm] at hverdict
      cases hverdict
      exact .modified (hmodified.mp hm)
    · rw [if_neg hm] at hverdict
      by_cases hs : (round.tally t.request).satisfies t.request.persistTo
          t.request.replicateTo = true
      · rw [if_pos hs] at hverdict
        cases hverdict
        exact .proved (hproves.mp ⟨Bool.eq_false_iff.mpr hm, hs⟩)
      · rw [if_neg hs] at hverdict
        by_cases hover : isOver t.deadline round.ended = true
        · rw [if_pos hover] at hverdict
          cases hverdict
          obtain ⟨deadline, hdeadline, hle⟩ := isOver_iff.mp hover
          exact .timeOver (mt hmodified.mpr hm) (fun hp => hs (hproves.mpr hp).2) hdeadline hle
        · rw [if_neg hover] at hverdict
          cases hverdict
  · intro hdecides
    cases hdecides with
    | modified hm => rw [Job.verdict, if_pos (hmodified.mpr hm)]
    | proved hp => exact (verdict_ok_iff h number).mpr hp
    | timeOver hunmodified hunproved hdeadline hle =>
      have hm := mt hmodified.mp hunmodified
      have hs : ¬ (round.tally t.request).satisfies t.request.persistTo
          t.request.replicateTo = true := fun hs =>
        hunproved (hproves.mp ⟨Bool.eq_false_iff.mpr hm, hs⟩)
      rw [Job.verdict, if_neg hm, if_neg hs, if_pos (isOver_iff.mpr ⟨_, hdeadline, hle⟩)]

/-- The round decides nothing. -/
def Undecided (t : Job) (number : Nat) (round : Round) : Prop :=
  ∀ answer, ¬ Decides t number round answer

theorem verdict_eq_none_iff (h : round.IsComplete) :
    t.verdict number round = none ↔ Undecided t number round := by
  rw [Option.eq_none_iff_forall_ne_some]
  exact forall_congr' fun answer => not_congr (verdict_eq_some_iff h)

/-! ## Time -/

-- After an undecided round the caller's time goes on.
theorem Undecided.lt_deadline (h : Undecided t number round) {deadline : Nat}
    (hdeadline : t.deadline = some deadline) : round.ended < deadline := by
  apply Nat.lt_of_not_le
  intro hle
  have hmodified := fun hm => h _ (.modified hm)
  have hproved := fun hp => h _ (.proved hp)
  exact h _ (.timeOver hmodified hproved hdeadline hle)

theorem Undecided.lt_wake (h : Undecided t number round)
    (hinterval : 0 < t.settings.interval.nanos) : round.ended < t.wake round.ended := by
  have hticks : 0 < t.settings.interval.ticks := by
    rw [Duration.ticks]
    omega
  have hpause := Nat.lt_add_of_pos_right (n := round.ended) hticks
  rw [Job.wake]
  cases hdeadline : t.deadline with
  | none => exact hpause
  | some deadline => exact Nat.lt_min.mpr ⟨hpause, h.lt_deadline hdeadline⟩

theorem Turn.le_next (h : Turn s t left w now round v next) :
    now ≤ round.ended ∧ round.ended ≤ next := by
  obtain ⟨_, hopens, -⟩ := h.opens
  have hle := round.started_le_ended
  rw [hopens.started] at hle
  cases h with
  | atOnce => exact ⟨hle, Nat.le_refl _⟩
  | paused _ _ _ hwake => exact ⟨hle, Nat.le_of_lt hwake⟩

theorem Ends.le_finished (h : Ends s t left w now r) : now ≤ r.finished := by
  have hround : ∀ {round : Round} {v : W}, Opens s t w now round v → now ≤ round.ended := by
    intro round v hopens
    rw [← hopens.started]
    exact round.started_le_ended
  cases h with
  | exhausted => exact Nat.le_refl now
  | cancelled => exact Nat.le_refl now
  | unrouted => exact Nat.le_refl now
  | insufficient => exact Nat.le_refl now
  | droppedInRound hopens => exact hround hopens
  | decided hopens => exact hround hopens
  | @droppedInPause _ _ _ _ _ round hopens _ _ hwake htick =>
    apply Nat.le_trans (hround hopens)
    rw [htick]
    show round.ended ≤ (t.cancel.firstSet? round.ended (t.wake round.ended)).getD _
    cases hfirst : t.cancel.firstSet? round.ended (t.wake round.ended) with
    | none => exact Nat.le_of_lt hwake
    | some tick => exact (Cancellation.firstSet?_spec hfirst).1
  | interrupted hopens _ _ _ htick =>
    exact Nat.le_trans (hround hopens) (Cancellation.firstSet?_spec htick).1

/-- A poll does not end before it begins. -/
theorem le_finished (s : Surroundings W) (t : Job) (left : Nat) (w : W) (now : Nat) :
    now ≤ (rounds s t left w now).finished := by
  induction left generalizing w now with
  | zero => exact Nat.le_refl now
  | succ left ih =>
    rcases rounds_succ s t left w now with hends | ⟨round, v, next, hturn, hrounds⟩
    · exact hends.le_finished
    · obtain ⟨hended, hnext⟩ := hturn.le_next
      rw [hrounds]
      exact Nat.le_trans (Nat.le_trans hended hnext) (ih v next)

/-! ## After a round -/

theorem Turn.kept (h : Turn s t left w now round v next) :
    ∃ u, Opens s t w now round u ∧ s.isDropped u = false ∧
      t.verdict (t.number left) round = none := by
  cases h with
  | atOnce hopens hkept hverdict => exact ⟨_, hopens, hkept, hverdict⟩
  | paused hopens hkept hverdict => exact ⟨_, hopens, hkept, hverdict⟩

-- A poll ends with the first verdict.
theorem rounds_of_decided (hopens : Opens s t w now round v) (hkept : s.isDropped v = false)
    (hverdict : t.verdict (t.number left) round = some answer) :
    rounds s t (left + 1) w now = .after round (.answered answer v round.ended) := by
  rw [rounds_of_opens hopens, hkept, hverdict]
  rfl

theorem Turn.rounds_eq (h : Turn s t left w now round v next) :
    rounds s t (left + 1) w now = .after round (rounds s t left v next) := by
  cases h with
  | atOnce hopens hkept hverdict hwake =>
    rw [rounds_of_opens hopens, hkept, hverdict]
    simp only [Bool.false_eq_true, if_false, if_pos hwake]
  | paused hopens hkept hverdict hwake hcancel hawake =>
    rw [rounds_of_opens hopens, hkept, hverdict]
    simp only [Bool.false_eq_true, if_false, if_neg (Nat.not_le.mpr hwake), hcancel,
      Option.getD_none, hawake, Option.isSome_none]

-- The ways in which a poll ends exclude each other.
theorem Ends.rounds_eq (h : Ends s t left w now r) : rounds s t left w now = r := by
  cases h with
  | exhausted => rfl
  | cancelled hcancel => simp only [rounds, hcancel, if_true]
  | unrouted hcancel hroute =>
    simp only [rounds, hcancel, hroute, Bool.false_eq_true, if_false]
  | insufficient hcancel hroute hsat =>
    simp only [rounds, hcancel, hroute, hsat, Bool.false_eq_true, if_false, Bool.not_false, if_true]
  | droppedInRound hopens hdropped => rw [rounds_of_opens hopens, if_pos hdropped]
  | decided hopens hkept hverdict => exact rounds_of_decided hopens hkept hverdict
  | droppedInPause hopens hkept hverdict hwake htick hdropped =>
    subst htick
    rw [rounds_of_opens hopens, hkept, hverdict]
    simp only [Bool.false_eq_true, if_false, if_neg (Nat.not_le.mpr hwake), hdropped, if_true]
  | interrupted hopens hkept hverdict hwake htick hawake =>
    rw [rounds_of_opens hopens, hkept, hverdict]
    simp only [Bool.false_eq_true, if_false, if_neg (Nat.not_le.mpr hwake), htick, Option.getD_some,
      hawake, Option.isSome_some, if_true]

/-- A round of a poll leads to the next turn, or the poll ends with it. -/
theorem turn_or_end
    (h : (rounds s t left w now).rounds = earlier ++ round :: later) :
    ∃ left' v, left' + 1 + earlier.length = left ∧
      ((∃ u next, Turn s t left' v round.started round u next) ∨
        later = [] ∧ ∃ r, Ends s t (left' + 1) v round.started r ∧ r.rounds = [round] ∧
          rounds s t left w now = { r with rounds := earlier ++ r.rounds }) := by
  induction earlier generalizing left w now with
  | nil =>
    cases left with
    | zero => cases h
    | succ left =>
      refine ⟨left, w, rfl, ?_⟩
      rcases rounds_succ s t left w now with hends | ⟨round', v, next, hturn, hrounds⟩
      · rcases hends.opens with hnone | ⟨round', u, hopens, hround⟩
        · cases hnone.symm.trans h
        · cases hround.symm.trans h
          rw [hopens.started]
          exact .inr ⟨rfl, _, hends, hround, rfl⟩
      · rw [hrounds] at h
        cases h
        obtain ⟨_, hopens, -⟩ := hturn.opens
        rw [hopens.started]
        exact .inl ⟨v, next, hturn⟩
  | cons first earlier ih =>
    cases left with
    | zero => cases h
    | succ left =>
      rcases rounds_succ s t left w now with hends | ⟨round', v, next, hturn, hrounds⟩
      · rcases hends.opens with hnone | ⟨round', u, hopens, hround⟩
        · cases hnone.symm.trans h
        · have hlength := congrArg List.length (hround.symm.trans h)
          simp only [List.length_cons, List.length_append, List.length_nil] at hlength
          omega
      · rw [hrounds] at h ⊢
        obtain ⟨hfirst, hrest⟩ := List.cons.inj h
        obtain ⟨left', v', hcount, hafter⟩ := ih hrest
        refine ⟨left', v', congrArg (· + 1) hcount, hafter.imp_right ?_⟩
        rintro ⟨rfl, r, hends, hr, hreport⟩
        refine ⟨rfl, r, hends, hr, ?_⟩
        rw [hreport, hfirst]
        rfl

theorem opens_of_split (h : (rounds s t left w now).rounds = earlier ++ round :: later) :
    ∃ v u, Opens s t v round.started round u := by
  obtain ⟨left', v, -, ⟨u, next, hturn⟩ | ⟨-, r, hends, hround, -⟩⟩ := turn_or_end h
  · obtain ⟨u, hopens, -⟩ := hturn.opens
    exact ⟨v, u, hopens⟩
  · rcases hends.opens with hnone | ⟨round', u, hopens, hround'⟩
    · cases hnone.symm.trans hround
    · cases hround'.symm.trans hround
      exact ⟨v, u, hopens⟩

theorem Ends.isDropped (h : Ends s t left w now r) (hr : r.answer = none) :
    s.isDropped r.world = true := by
  cases h with
  | exhausted => cases hr
  | cancelled => cases hr
  | unrouted => cases hr
  | insufficient => cases hr
  | droppedInRound _ hdropped => exact hdropped
  | decided => cases hr
  | droppedInPause _ _ _ _ _ hdropped => exact hdropped
  | interrupted => cases hr

/-- A poll comes to an answer, unless its caller lets go of it. -/
theorem isDropped_of_rounds (h : (rounds s t left w now).answer = none) :
    s.isDropped (rounds s t left w now).world = true := by
  obtain ⟨before, last, v, tick, r, -, hends, hrounds⟩ := rounds_spec s t left w now
  rw [hrounds] at h ⊢
  exact hends.isDropped h

/-! ## Rounds that are allowed -/

theorem roundsWithin_pos {settings : PollSettings} (h : 1 ≤ settings.maxRounds)
    (timeout : Option Duration) : 1 ≤ settings.roundsWithin timeout := by
  cases timeout with
  | none => exact h
  | some d => exact Nat.le_max_right _ _

end Poll

end ClusterClient
