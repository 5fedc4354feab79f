import ClusterClient.Durability.Poll
/-!
# Runs of a poll

A poll goes through turns. A turn that decides nothing leads to the next one; any other ends the
poll. Here it is said once in which ways either happens, and that a poll is a sequence of undecided
turns before one end.
-/

namespace ClusterClient.Poll

variable {W : Type} {s : Surroundings W} {t : Job} {left : Nat} {w v : W} {now : Nat}
  {round : Round}

/-- The ticks that the replies of a round have which begins at a tick. -/
def Job.window (t : Job) (now : Nat) : Nat :=
  cap (now + t.settings.roundTimeout.ticks) t.deadline - now

/-- The tick up to which a poll pauses after a round. -/
def Job.wake (t : Job) (ended : Nat) : Nat := cap (ended + t.settings.interval.ticks) t.deadline

/-- The number of the round that comes when so many are left after it. -/
def Job.number (t : Job) (left : Nat) : Nat := t.limit - (left + 1) + 1

/-- A round is broadcast and leaves a world when it ends. -/
structure Opens (s : Surroundings W) (t : Job) (w : W) (now : Nat) (round : Round) (v : W) :
    Prop where
  notCancelled : t.cancel.wasSet now = false
  routed : route (s.table w) t.request.key = .ok round.route
  satisfiable : t.request.isSatisfiable round.route = true
  ran : Round.run s w now (t.window now) t.request.key t.request.cas round.route = (v, round)

/-- A turn that decides nothing, with its round and where the next turn begins. -/
inductive Turn (s : Surroundings W) (t : Job) (left : Nat) (w : W) (now : Nat) :
    Round → W → Nat → Prop where
  | atOnce {round : Round} {v : W} (hopens : Opens s t w now round v)
      (hkept : s.isDropped v = false) (hverdict : t.verdict (t.number left) round = none)
      (hwake : t.wake round.ended ≤ round.ended) : Turn s t left w now round v round.ended
  | paused {round : Round} {v : W} (hopens : Opens s t w now round v)
      (hkept : s.isDropped v = false) (hverdict : t.verdict (t.number left) round = none)
      (hwake : round.ended < t.wake round.ended)
      (hcancel : t.cancel.firstSet? round.ended (t.wake round.ended) = none)
      (hawake : s.isDropped (s.wait v (t.wake round.ended)) = false) :
      Turn s t left w now round (s.wait v (t.wake round.ended)) (t.wake round.ended)

/-- The ways in which a poll ends, with so many turns left. -/
inductive Ends (s : Surroundings W) (t : Job) : Nat → W → Nat → Report W → Prop where
  | exhausted (w : W) (now : Nat) :
      Ends s t 0 w now (.answered (.error (t.timedOut t.limit now)) w now)
  | cancelled {left : Nat} {w : W} {now : Nat} (h : t.cancel.wasSet now = true) :
      Ends s t (left + 1) w now
        (.answered (.error (.interrupted t.request.key (t.limit - (left + 1)))) w now)
  | unrouted {left : Nat} {w : W} {now : Nat} {e : NoRoute} (hcancel : t.cancel.wasSet now = false)
      (h : route (s.table w) t.request.key = .error e) :
      Ends s t (left + 1) w now (.answered (.error (.noRoute e)) w now)
  | insufficient {left : Nat} {w : W} {now : Nat} {r : Route}
      (hcancel : t.cancel.wasSet now = false) (hroute : route (s.table w) t.request.key = .ok r)
      (h : t.request.isSatisfiable r = false) :
      Ends s t (left + 1) w now
        (.answered (.error (.insufficientReplicas t.request (DurabilityRequest.available r))) w now)
  | droppedInRound {left : Nat} {w v : W} {now : Nat} {round : Round}
      (hopens : Opens s t w now round v) (h : s.isDropped v = true) :
      Ends s t (left + 1) w now (.after round (.dropped v round.ended))
  | decided {left : Nat} {w v : W} {now : Nat} {round : Round}
      {answer : Except DurabilityError Unit} (hopens : Opens s t w now round v)
      (hkept : s.isDropped v = false) (h : t.verdict (t.number left) round = some answer) :
      Ends s t (left + 1) w now (.after round (.answered answer v round.ended))
  | droppedInPause {left : Nat} {w v : W} {now tick : Nat} {round : Round}
      (hopens : Opens s t w now round v) (hkept : s.isDropped v = false)
      (hverdict : t.verdict (t.number left) round = none)
      (hwake : round.ended < t.wake round.ended)
      (htick : tick = (t.cancel.firstSet? round.ended (t.wake round.ended)).getD
        (t.wake round.ended))
      (h : s.isDropped (s.wait v tick) = true) :
      Ends s t (left + 1) w now (.after round (.dropped (s.wait v tick) tick))
  | interrupted {left : Nat} {w v : W} {now tick : Nat} {round : Round}
      (hopens : Opens s t w now round v) (hkept : s.isDropped v = false)
      (hverdict : t.verdict (t.number left) round = none)
      (hwake : round.ended < t.wake round.ended)
      (htick : t.cancel.firstSet? round.ended (t.wake round.ended) = some tick)
      (hawake : s.isDropped (s.wait v tick) = false) :
      Ends s t (left + 1) w now (.after round (.answered
        (.error (.interrupted t.request.key (t.number left))) (s.wait v tick) tick))

/-- Undecided turns one after the other, with their rounds. -/
inductive Reaches (s : Surroundings W) (t : Job) :
    Nat → W → Nat → List Round → Nat → W → Nat → Prop where
  | here (left : Nat) (w : W) (now : Nat) : Reaches s t left w now [] left w now
  | turn {left last : Nat} {w v u : W} {now next tick : Nat} {round : Round} {rest : List Round}
      (head : Turn s t left w now round v next) (tail : Reaches s t left v next rest last u tick) :
      Reaches s t (left + 1) w now (round :: rest) last u tick

-- What a turn makes of a round that it has broadcast.
theorem rounds_of_opens (h : Opens s t w now round v) (left : Nat) :
    rounds s t (left + 1) w now = .after round (
      if s.isDropped v then .dropped v round.ended
      else match t.verdict (t.number left) round with
        | some answer => .answered answer v round.ended
        | none =>
          if t.wake round.ended ≤ round.ended then rounds s t left v round.ended
          else
            let cancelled := t.cancel.firstSet? round.ended (t.wake round.ended)
            let tick := cancelled.getD (t.wake round.ended)
            if s.isDropped (s.wait v tick) then .dropped (s.wait v tick) tick
            else if cancelled.isSome then
              .answered (.error (.interrupted t.request.key (t.number left))) (s.wait v tick) tick
            else rounds s t left (s.wait v tick) tick) := by
  have hran : Round.run s w now (cap (now + t.settings.roundTimeout.ticks) t.deadline - now)
      t.request.key t.request.cas round.route = (v, round) := h.ran
  rw [rounds]
  simp only [h.notCancelled, h.routed, h.satisfiable, hran, Bool.false_eq_true, if_false,
    Bool.not_true]
  rfl

theorem opens_of_run {r : Route} (hcancel : t.cancel.wasSet now = false)
    (hroute : route (s.table w) t.request.key = .ok r) (hsat : t.request.isSatisfiable r = true) :
    ∃ round v, Opens s t w now round v := by
  refine ⟨(Round.run s w now (t.window now) t.request.key t.request.cas r).2,
    (Round.run s w now (t.window now) t.request.key t.request.cas r).1, hcancel, hroute, hsat, ?_⟩
  rfl

-- With turns left a poll ends, or it makes an undecided turn and goes on.
theorem rounds_succ (s : Surroundings W) (t : Job) (left : Nat) (w : W) (now : Nat) :
    Ends s t (left + 1) w now (rounds s t (left + 1) w now) ∨
      ∃ round v next, Turn s t left w now round v next ∧
        rounds s t (left + 1) w now = .after round (rounds s t left v next) := by
  cases hcancel : t.cancel.wasSet now with
  | true =>
    refine .inl ?_
    simp only [rounds, hcancel, if_true]
    exact .cancelled hcancel
  | false =>
    cases hroute : route (s.table w) t.request.key with
    | error e =>
      refine .inl ?_
      simp only [rounds, hcancel, hroute, Bool.false_eq_true, if_false]
      exact .unrouted hcancel hroute
    | ok r =>
      cases hsat : t.request.isSatisfiable r with
      | false =>
        refine .inl ?_
        simp only [rounds, hcancel, hroute, hsat, Bool.false_eq_true, if_false, Bool.not_false,
          if_true]
        exact .insufficient hcancel hroute hsat
      | true =>
        -- from here on the turn has a round, and its verdict and the pause decide
        obtain ⟨round, v, hopens⟩ := opens_of_run hcancel hroute hsat
        rw [rounds_of_opens hopens]
        cases hkept : s.isDropped v with
        | true => exact .inl (.droppedInRound hopens hkept)
        | false =>
          rw [if_neg Bool.false_ne_true]
          cases hverdict : t.verdict (t.number left) round with
          | some answer => exact .inl (.decided hopens hkept hverdict)
          | none =>
            by_cases hwake : t.wake round.ended ≤ round.ended
            · simp only [if_pos hwake]
              exact .inr ⟨round, v, _, .atOnce hopens hkept hverdict hwake, rfl⟩
            · simp only [if_neg hwake]
              rw [Nat.not_le] at hwake
              cases hcancelled : t.cancel.firstSet? round.ended (t.wake round.ended) with
              | none =>
                simp only [Option.getD_none, Option.isSome_none, Bool.false_eq_true, if_false]
                cases hawake : s.isDropped (s.wait v (t.wake round.ended)) with
                | true =>
                  refine .inl (.droppedInPause hopens hkept hverdict hwake ?_ hawake)
                  rw [hcancelled, Option.getD_none]
                | false =>
                  exact .inr
                    ⟨round, _, _, .paused hopens hkept hverdict hwake hcancelled hawake, rfl⟩
              | some tick =>
                simp only [Option.getD_some, Option.isSome_some, if_true]
                cases hawake : s.isDropped (s.wait v tick) with
                | true =>
                  refine .inl (.droppedInPause hopens hkept hverdict hwake ?_ hawake)
                  rw [hcancelled, Option.getD_some]
                | false =>
                  exact .inl (.interrupted hopens hkept hverdict hwake hcancelled hawake)

/-- A poll is a sequence of undecided turns before one end. -/
theorem rounds_spec (s : Surroundings W) (t : Job) (left : Nat) (w : W) (now : Nat) :
    ∃ earlier last v tick r, Reaches s t left w now earlier last v tick ∧ Ends s t last v tick r ∧
      rounds s t left w now = { r with rounds := earlier ++ r.rounds } := by
  -- on the turns that are left; a turn may lead anywhere, so world and tick vary
  induction left generalizing w now with
  | zero => exact ⟨[], 0, w, now, _, .here 0 w now, .exhausted w now, rfl⟩
  | succ left ih =>
    rcases rounds_succ s t left w now with hends | ⟨round, v, next, hturn, hrounds⟩
    · exact ⟨[], left + 1, w, now, _, .here _ w now, hends, rfl⟩
    · obtain ⟨earlier, last, u, tick, r, hreaches, hends, hrest⟩ := ih v next
      refine ⟨round :: earlier, last, u, tick, r, .turn hturn hreaches, hends, ?_⟩
      rw [hrounds, hrest]
      rfl

end ClusterClient.Poll
