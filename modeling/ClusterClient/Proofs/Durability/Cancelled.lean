import ClusterClient.Proofs.Durability.Turns
/-!
# Cancelled polls

A cancel flag takes effect between two rounds and in the pause between them, and never in a round.
Once it is set for good a poll broadcasts no further round. A flag that its holder lets go of while
it is not set stops nothing.
-/

namespace ClusterClient.Poll

variable {W : Type} {s : Surroundings W} {t : Job} {left number : Nat} {w v : W} {now next m : Nat}
  {round : Round} {earlier later : List Round} {r : Report W}
  {answer : Except DurabilityError Unit}

/-! ## Polls that nobody cancels -/

def Job.uncancelled (t : Job) : Job := { t with cancel := .never }

theorem Opens.uncancelled (h : Opens s t w now round v) : Opens s t.uncancelled w now round v :=
  ⟨Cancellation.wasSet_never, h.routed, h.satisfiable, h.ran⟩

theorem Turn.uncancelled (h : Turn s t left w now round v next) :
    Turn s t.uncancelled left w now round v next := by
  cases h with
  | atOnce hopens hkept hverdict hwake => exact .atOnce hopens.uncancelled hkept hverdict hwake
  | paused hopens hkept hverdict hwake _ hawake =>
    exact .paused hopens.uncancelled hkept hverdict hwake Cancellation.firstSet?_never hawake

/-- Cancelling a poll takes rounds away from its end, and leaves the others as they are. -/
theorem rounds_prefix_uncancelled (s : Surroundings W) (t : Job) (left : Nat) (w : W) (now : Nat) :
    (rounds s t left w now).rounds <+: (rounds s t.uncancelled left w now).rounds := by
  induction left generalizing w now with
  | zero => exact List.nil_prefix
  | succ left ih =>
    rcases rounds_succ s t left w now with hends | ⟨round, v, next, hturn, hrounds⟩
    · rcases hends.opens with hnone | ⟨round, u, hopens, hround⟩
      · rw [hnone]
        exact List.nil_prefix
      · rw [hround, rounds_of_opens hopens.uncancelled]
        exact ⟨_, rfl⟩
    · rw [hrounds, hturn.uncancelled.rounds_eq]
      exact List.prefix_cons_iff.mpr (.inr ⟨_, rfl, ih v next⟩)

/-! ## Ends -/

-- Only a flag that is set interrupts a poll.
theorem Ends.isSet {key : String} (h : Ends s t left w now r)
    (hr : r.answer = some (.error (.interrupted key number))) :
    t.cancel.wasSet r.finished = true ∨ t.cancel.isSet r.finished = true := by
  cases h with
  | exhausted => cases hr
  | cancelled hset => exact .inl hset
  | unrouted => cases hr
  | insufficient => cases hr
  | droppedInRound => cases hr
  | decided hopens _ hverdict =>
    cases hr
    cases (verdict_eq_some_iff hopens.beganIn.isComplete).mp hverdict
  | droppedInPause => cases hr
  | interrupted _ _ _ _ htick => exact .inr (Cancellation.firstSet?_spec htick).2.2

/-! ## Rounds -/

-- After a round the poll ends with its verdict; without one the flag ends it if it is set within a
-- pause.
theorem after_round (h : (rounds s t left w now).rounds = earlier ++ round :: later)
    (hleft : left = t.limit) (hanswer : (rounds s t left w now).answer = some answer) :
    (t.verdict (earlier.length + 1) round = some answer ∧ later = [] ∧
        (rounds s t left w now).finished = round.ended) ∨
      t.verdict (earlier.length + 1) round = none ∧
        ∀ tick, round.ended < t.wake round.ended →
          t.cancel.firstSet? round.ended (t.wake round.ended) = some tick →
          later = [] ∧ (rounds s t left w now).finished = tick ∧
            answer = .error (.interrupted t.request.key (earlier.length + 1)) := by
  obtain ⟨left', v, hcount, hafter⟩ := turn_or_end h
  have hnumber : t.number left' = earlier.length + 1 := by
    rw [Job.number]
    omega
  rw [← hnumber]
  rcases hafter with ⟨u, next, hturn⟩ | ⟨rfl, r, hends, hround, hreport⟩
  · cases hturn with
    | atOnce _ _ hverdict hwake =>
      exact .inr ⟨hverdict, fun tick hlt _ => absurd hwake (Nat.not_le.mpr hlt)⟩
    | paused _ _ hverdict _ hcancel _ =>
      exact .inr ⟨hverdict, fun tick _ hfirst => by cases hcancel.symm.trans hfirst⟩
  · rw [hreport] at hanswer ⊢
    cases hends with
    | cancelled => cases hround
    | unrouted => cases hround
    | insufficient => cases hround
    | droppedInRound => cases hanswer
    | decided _ _ hverdict =>
      cases hround
      cases hanswer
      exact .inl ⟨hverdict, rfl, rfl⟩
    | droppedInPause => cases hanswer
    | interrupted _ _ hverdict _ htick =>
      cases hround
      cases hanswer
      refine .inr ⟨hverdict, fun tick _ hfirst => ?_⟩
      cases htick.symm.trans hfirst
      exact ⟨rfl, rfl, rfl⟩

-- A round that ends while the flag is set decides the poll, or the poll is interrupted at its end.
theorem after_round_of_set (h : (rounds s t left w now).rounds = earlier ++ round :: later)
    (hleft : left = t.limit) (hanswer : (rounds s t left w now).answer = some answer)
    (hset : t.cancel.isSet round.ended = true) :
    (Decides t (earlier.length + 1) round answer ∧ later = [] ∧
        (rounds s t left w now).finished = round.ended) ∨
      Undecided t (earlier.length + 1) round ∧
        (0 < t.settings.interval.nanos → later = [] ∧
          (rounds s t left w now).finished = round.ended ∧
          answer = .error (.interrupted t.request.key (earlier.length + 1))) := by
  obtain ⟨v, u, hopens⟩ := opens_of_split h
  have hcomplete := hopens.beganIn.isComplete
  rcases after_round h hleft hanswer with ⟨hverdict, hend⟩ | ⟨hverdict, hpause⟩
  · exact .inl ⟨(verdict_eq_some_iff hcomplete).mp hverdict, hend⟩
  · have hundecided := (verdict_eq_none_iff hcomplete).mp hverdict
    refine .inr ⟨hundecided, fun hinterval => ?_⟩
    have hwake := hundecided.lt_wake hinterval
    apply hpause _ hwake
    apply Cancellation.firstSet?_eq_some (Nat.le_refl _) hwake hset
    exact fun n hle hlt => absurd hle (Nat.not_le.mpr hlt)

-- A flag that is set within a pause interrupts the poll there and then.
theorem after_round_of_pause (h : (rounds s t left w now).rounds = earlier ++ round :: later)
    (hleft : left = t.limit) (hanswer : (rounds s t left w now).answer = some answer)
    (hundecided : Undecided t (earlier.length + 1) round)
    (hended : round.ended < m) (hwake : m < t.wake round.ended) (hset : t.cancel.isSet m = true)
    (hbefore : ∀ tick, round.ended ≤ tick → tick < m → t.cancel.isSet tick = false) :
    later = [] ∧ (rounds s t left w now).finished = m ∧
      answer = .error (.interrupted t.request.key (earlier.length + 1)) := by
  obtain ⟨v, u, hopens⟩ := opens_of_split h
  rcases after_round h hleft hanswer with ⟨hverdict, -⟩ | ⟨-, hpause⟩
  · exact absurd ((verdict_eq_some_iff hopens.beganIn.isComplete).mp hverdict) (hundecided answer)
  · apply hpause m (Nat.lt_trans hended hwake)
    exact Cancellation.firstSet?_eq_some (Nat.le_of_lt hended) hwake hset hbefore

/-! ## Runs -/

/-- A poll for more than the primary's acknowledgement that may be cancelled. Its rounds are the
first ones of the poll that nobody cancels. If the flag is set before its first round, it sends
nothing. Once the flag is set for good, no further round begins: one that is being waited for ends
as it would, and decides the poll or is followed by the interruption at once; and a pause is
interrupted when the flag is set. A holder who lets go of a flag that is not set interrupts nothing
from then on. -/
theorem interrupted_once_set (s : Surroundings W) (settings : PollSettings)
    (request : DurabilityRequest) (timeout : Option Duration) (cancel : Cancellation) (w : W)
    (now : Nat) (hrequest : ¬ (request.persistTo = .zero ∧ request.replicateTo = .zero))
    (hmax : 1 ≤ settings.maxRounds) :
    let t := job settings request timeout cancel now
    let report := run s settings request timeout cancel w now
    report.rounds <+: (run s settings request timeout .never w now).rounds ∧
      (report.answer = none → s.isDropped report.world = true) ∧
      (cancel.wasSet now = true →
        report = .answered (.error (.interrupted request.key 0)) w now) ∧
      (∀ m, (∀ tick, m ≤ tick → cancel.isSet tick = true) →
        (∀ round ∈ report.rounds, round.started ≤ m) ∧
          ∀ answer earlier round later, report.answer = some answer →
            report.rounds = earlier ++ round :: later →
            let number := earlier.length + 1
            let interruption := .error (.interrupted request.key number)
            (∃ v, BeganIn s t v round) ∧
              (m ≤ round.ended →
                (Decides t number round answer ∧ later = [] ∧ report.finished = round.ended) ∨
                  Undecided t number round ∧
                    (0 < settings.interval.nanos →
                      later = [] ∧ report.finished = round.ended ∧ answer = interruption)) ∧
              (Undecided t number round → round.ended < m → m < t.wake round.ended →
                (∀ tick, round.ended ≤ tick → tick < m → cancel.isSet tick = false) →
                later = [] ∧ report.finished = m ∧ answer = interruption)) ∧
      ∀ drop key number, cancel.wasSet drop = false →
        let abandoned := run s settings request timeout (cancel.letGo drop) w now
        abandoned.answer = some (.error (.interrupted key number)) → abandoned.finished < drop := by
  intro t report
  have hreport : report = rounds s t t.limit w now :=
    run_eq s settings timeout cancel w now hrequest
  refine ⟨?_, fun hnone => ?_, fun hset => ?_, fun m hset => ⟨fun round hround => ?_, ?_⟩, ?_⟩
  · rw [hreport, run_eq s settings timeout .never w now hrequest]
    exact rounds_prefix_uncancelled s t t.limit w now
  · rw [hreport] at hnone ⊢
    exact isDropped_of_rounds hnone
  · have hlimit : 1 ≤ t.limit := roundsWithin_pos hmax timeout
    obtain ⟨left, hleft⟩ := Nat.exists_eq_add_of_le' hlimit
    have hcancel : t.cancel.wasSet now = true := hset
    rw [hreport, hleft]
    simp only [rounds, hcancel, if_true, hleft, Nat.sub_self]
    rfl
  · rw [hreport] at hround
    obtain ⟨earlier, later, hsplit⟩ := List.append_of_mem hround
    obtain ⟨v, u, hopens⟩ := opens_of_split hsplit
    -- a round begins only where the flag was not set, and after `m` it always is
    apply Nat.le_of_not_lt
    intro hlt
    have hwas : cancel.isSet (round.started - 1) = true := hset _ (by omega)
    rw [Cancellation.isSet, Nat.sub_add_cancel (by omega)] at hwas
    cases hwas.symm.trans hopens.notCancelled
  · rw [hreport]
    intro answer earlier round later hanswer hsplit
    obtain ⟨v, u, hopens⟩ := opens_of_split hsplit
    refine ⟨⟨v, hopens.beganIn⟩, fun hended => ?_, fun hundecided hended hwake hbefore => ?_⟩
    · exact after_round_of_set hsplit rfl hanswer (hset _ hended)
    · exact after_round_of_pause hsplit rfl hanswer hundecided hended hwake (hset m (Nat.le_refl m))
        hbefore
  · intro drop key number hdrop
    rw [run_eq s settings timeout (cancel.letGo drop) w now hrequest]
    obtain ⟨before, last, v, tick, r, -, hends, hrounds⟩ :=
      rounds_spec s (job settings request timeout (cancel.letGo drop) now)
        (settings.roundsWithin timeout) w now
    rw [hrounds]
    intro abandoned hinterrupted
    rcases hends.isSet hinterrupted with hwas | his
    · exact Cancellation.lt_of_wasSet_letGo hdrop hwas
    · exact Nat.lt_of_succ_lt (Cancellation.lt_of_wasSet_letGo hdrop his)

-- The flag is set in the pause after the first round, and the poll does not wait for its end.
theorem interrupted_once_set_in_pause :
    let cancel : Cancellation := ⟨false, [(4, true)]⟩
    let report := run slowPair pairSettings pairRequest none cancel 0 0
    ¬ (pairRequest.persistTo = .zero ∧ pairRequest.replicateTo = .zero) ∧
      1 ≤ pairSettings.maxRounds ∧ report.answer = some (.error (.interrupted "k" 1)) ∧
      report.finished = 4 ∧ ∃ round, report.rounds = [round] ∧ round.ended = 1 := by
  intro cancel report
  let t := job pairSettings pairRequest none cancel 0
  have hrequest : ¬ (pairRequest.persistTo = .zero ∧ pairRequest.replicateTo = .zero) := by decide
  have hmax : 1 ≤ pairSettings.maxRounds := by decide
  have hanswer : report.answer = some (.error (.interrupted "k" 1)) := by decide +kernel
  have hone : report.rounds.length = 1 := by decide +kernel
  obtain ⟨round, hround⟩ := List.length_eq_one_iff.mp hone
  have hpause : ∀ round ∈ report.rounds,
      t.verdict 1 round = none ∧ round.ended = 1 ∧ 4 < t.wake round.ended := by decide +kernel
  obtain ⟨hverdict, hended, hwake⟩ := hpause round (hround ▸ List.mem_singleton_self round)
  have hset : ∀ tick, 4 ≤ tick → cancel.isSet tick = true := fun tick hle =>
    Cancellation.wasSet_cons_of_lt (Nat.lt_succ_of_le hle) false true []
  have hbefore : ∀ tick, round.ended ≤ tick → tick < 4 → cancel.isSet tick = false :=
    fun tick _ hlt => Cancellation.wasSet_cons_of_le hlt false true []
  have hafter := (interrupted_once_set slowPair pairSettings pairRequest none cancel 0 0 hrequest
    hmax).2.2.2.1 4 hset
  obtain ⟨⟨v, hbegan⟩, -, hinterrupted⟩ := hafter.2 _ [] round [] hanswer hround
  have hundecided := (verdict_eq_none_iff hbegan.isComplete).mp hverdict
  obtain ⟨-, hfinished, -⟩ := hinterrupted hundecided (by omega) hwake hbefore
  exact ⟨hrequest, hmax, hanswer, hfinished, round, hround, hended⟩

end ClusterClient.Poll
