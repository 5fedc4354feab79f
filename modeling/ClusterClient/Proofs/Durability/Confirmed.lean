import ClusterClient.Proofs.Durability.PollRun
import ClusterClient.Proofs.Durability.Proving
/-!
# Confirmed durability

A poll confirms a durability exactly with the first of its rounds that proves it. What earlier
rounds have shown does not count.
-/

namespace ClusterClient

variable {W : Type}

-- A route names the table that it was taken from.
theorem route_spec {table : Option Table} {key : String} {r : Route}
    (h : route table key = .ok r) : table = some r.table ∧ r.table.route key = .ok r := by
  cases table with
  | none => cases h
  | some t =>
    have hroute : t.route key = .ok r := h
    have htable : r.table = t := by
      simp only [Table.route] at hroute
      split at hroute
      · cases hroute
        rfl
      · cases hroute
    rw [htable]
    exact ⟨rfl, hroute⟩

namespace Poll

variable {s : Surroundings W} {t : Job} {left last : Nat} {w v u : W} {now tick : Nat}
  {round : Round} {r : Report W}

/-- The round began in a world: it was routed in the table in force there and checked against it,
and all its targets were asked there, with the time that the poll gives to a round. -/
structure BeganIn (s : Surroundings W) (t : Job) (w : W) (round : Round) : Prop where
  table : s.table w = some round.route.table
  routed : round.route.table.route t.request.key = .ok round.route
  satisfiable : t.request.isSatisfiable round.route = true
  window : round.window = t.window round.started
  asked : round.deliveries = (Round.broadcast s w round.started t.request.key t.request.cas
    round.route.partition round.route.targets).2

theorem Opens.started (h : Opens s t w now round v) : round.started = now := by
  have hround := congrArg (fun x => x.2.started) h.ran
  exact hround.symm

theorem Opens.beganIn (h : Opens s t w now round v) : BeganIn s t w round := by
  have hround :
      (Round.run s w now (t.window now) t.request.key t.request.cas round.route).2 = round :=
    congrArg Prod.snd h.ran
  obtain ⟨htable, hrouted⟩ := route_spec h.routed
  refine ⟨htable, hrouted, h.satisfiable, ?_, ?_⟩
  · rw [h.started, ← hround]
    rfl
  · rw [h.started]
    exact (congrArg Round.deliveries hround).symm

theorem BeganIn.isComplete (h : BeganIn s t w round) : round.IsComplete := by
  rw [Round.IsComplete, h.asked, Round.length_broadcast]

-- A round decides that the durability is confirmed exactly if it proves it.
theorem verdict_ok_iff (h : round.IsComplete) (number : Nat) :
    t.verdict number round = some (.ok ()) ↔ round.Proves t.request := by
  rw [← Round.tally_satisfies_iff h, Job.verdict]
  cases hmodified : (round.tally t.request).masterModified with
  | true =>
    simp only [if_true, Option.some.injEq, reduceCtorEq, false_and]
  | false =>
    cases hsatisfied : (round.tally t.request).satisfies t.request.persistTo
        t.request.replicateTo with
    | true => simp only [Bool.false_eq_true, if_false, if_true, and_self]
    | false =>
      -- what is left to decide is whether the caller's time is over, which confirms nothing
      simp only [Bool.false_eq_true, if_false, and_false, iff_false]
      split <;> exact nofun

theorem Opens.verdict_of_proves (h : Opens s t w now round v) (hproves : round.Proves t.request)
    (number : Nat) : t.verdict number round = some (.ok ()) :=
  (verdict_ok_iff h.beganIn.isComplete number).mpr hproves

/-! ## Turns and ends -/

theorem Turn.opens {next : Nat} (h : Turn s t left w now round v next) :
    ∃ u, Opens s t w now round u ∧ t.verdict (t.number left) round = none := by
  cases h with
  | atOnce hopens _ hverdict _ => exact ⟨_, hopens, hverdict⟩
  | paused hopens _ hverdict _ _ _ => exact ⟨_, hopens, hverdict⟩

-- The end of a poll broadcasts one round at most.
theorem Ends.opens (h : Ends s t left w now r) :
    r.rounds = [] ∨ ∃ round u, Opens s t w now round u ∧ r.rounds = [round] := by
  cases h with
  | exhausted => exact .inl rfl
  | cancelled => exact .inl rfl
  | unrouted => exact .inl rfl
  | insufficient => exact .inl rfl
  | droppedInRound hopens => exact .inr ⟨_, _, hopens, rfl⟩
  | decided hopens => exact .inr ⟨_, _, hopens, rfl⟩
  | droppedInPause hopens => exact .inr ⟨_, _, hopens, rfl⟩
  | interrupted hopens => exact .inr ⟨_, _, hopens, rfl⟩

theorem Ends.decided_of_ok (h : Ends s t left w now r) (hr : r.answer = some (.ok ())) :
    ∃ round v, Opens s t w now round v ∧ s.isDropped v = false ∧ round.Proves t.request ∧
      r = .after round (.answered (.ok ()) v round.ended) := by
  cases h with
  | exhausted => cases hr
  | cancelled => cases hr
  | unrouted => cases hr
  | insufficient => cases hr
  | droppedInRound => cases hr
  | droppedInPause => cases hr
  | interrupted => cases hr
  | decided hopens hkept hverdict =>
    cases hr
    exact ⟨_, _, hopens, hkept, (verdict_ok_iff hopens.beganIn.isComplete _).mp hverdict, rfl⟩

-- A poll that confirms the durability ends with a round that proves it.
theorem Ends.proves (h : Ends s t left w now r) (hr : r.answer = some (.ok ())) :
    ∃ round, r.rounds = [round] ∧ r.finished = round.ended ∧ round.Proves t.request := by
  obtain ⟨round, v, -, -, hproves, rfl⟩ := h.decided_of_ok hr
  exact ⟨round, rfl, rfl, hproves⟩

-- Where a poll ends after a round that proves the durability, it confirms it, unless its caller has
-- let go of it.
theorem Ends.of_proves (h : Ends s t left w now r) (hr : r.rounds = [round])
    (hproves : round.Proves t.request) :
    r.finished = round.ended ∧
      (r.answer = some (.ok ()) ∨ r.answer = none ∧ s.isDropped r.world = true) := by
  cases h with
  | exhausted => cases hr
  | cancelled => cases hr
  | unrouted => cases hr
  | insufficient => cases hr
  | droppedInRound hopens hdropped =>
    cases hr
    exact ⟨rfl, .inr ⟨rfl, hdropped⟩⟩
  | decided hopens _ hverdict =>
    cases hr
    cases hverdict.symm.trans (hopens.verdict_of_proves hproves _)
    exact ⟨rfl, .inl rfl⟩
  | droppedInPause hopens _ hverdict =>
    cases hr
    cases hverdict.symm.trans (hopens.verdict_of_proves hproves _)
  | interrupted hopens _ hverdict =>
    cases hr
    cases hverdict.symm.trans (hopens.verdict_of_proves hproves _)

/-! ## Runs -/

-- The rounds of undecided turns do not prove the durability.
theorem Reaches.not_proves {rounds : List Round} (h : Reaches s t left w now rounds last u tick) :
    ∀ round ∈ rounds, ¬ round.Proves t.request := by
  induction h with
  | here => exact fun _ h => by cases h
  | @turn left last w v u now next tick round rest head tail ih =>
    intro round' hround hproves
    rcases List.mem_cons.mp hround with rfl | hround
    · obtain ⟨_, hopens, hverdict⟩ := head.opens
      cases hverdict.symm.trans (hopens.verdict_of_proves hproves _)
    · exact ih round' hround hproves

-- Each round of undecided turns began where those before it have led.
theorem Reaches.split {earlier later : List Round}
    (h : Reaches s t left w now (earlier ++ round :: later) last u tick) :
    ∃ left' v, Reaches s t left w now earlier left' v round.started ∧ BeganIn s t v round := by
  induction earlier generalizing left w now with
  | nil =>
    cases h with
    | turn head tail =>
      -- nothing comes before the round, so it began where the turns start
      obtain ⟨_, hopens, -⟩ := head.opens
      rw [hopens.started]
      exact ⟨_, w, .here _ w now, hopens.beganIn⟩
  | cons first earlier ih =>
    cases h with
    | turn head tail =>
      obtain ⟨left', v, hreaches, hbegan⟩ := ih tail
      exact ⟨left', v, .turn head hreaches, hbegan⟩

-- A list that ends with an entry, taken apart at an entry: it is the last one, or one before.
theorem eq_or_mem_of_append {α : Type} {before earlier later : List α} {a b : α}
    (h : before ++ [a] = earlier ++ b :: later) :
    (earlier = before ∧ b = a ∧ later = []) ∨ ∃ rest, before = earlier ++ b :: rest := by
  cases later using List.reverseRecOn with
  | nil =>
    obtain ⟨hbefore, hlast⟩ := List.append_inj' h rfl
    cases hlast
    exact .inl ⟨hbefore.symm, rfl, rfl⟩
  | append_singleton rest c _ =>
    rw [← List.cons_append, ← List.append_assoc] at h
    exact .inr ⟨rest, (List.append_inj' h rfl).1⟩

-- Where a round of a poll stands: those of undecided turns prove nothing, and the one of the end is
-- the last.
theorem Reaches.split_ends {before earlier later : List Round}
    (h : Reaches s t left w now before last v tick) (hends : Ends s t last v tick r)
    (hsplit : before ++ r.rounds = earlier ++ round :: later) :
    (∃ left' v', Reaches s t left w now earlier left' v' round.started ∧ BeganIn s t v' round) ∧
      (round.Proves t.request → later = [] ∧ r.rounds = [round]) := by
  have hbefore : ∀ rest, before = earlier ++ round :: rest →
      (∃ left' v', Reaches s t left w now earlier left' v' round.started ∧ BeganIn s t v' round) ∧
        ¬ round.Proves t.request := by
    rintro rest rfl
    exact ⟨h.split, h.not_proves round (List.mem_append_right _ List.mem_cons_self)⟩
  rcases hends.opens with hnone | ⟨final, u, hopens, hfinal⟩
  · obtain ⟨hbegan, hnot⟩ := hbefore later (by rw [← hsplit, hnone, List.append_nil])
    exact ⟨hbegan, fun hproves => absurd hproves hnot⟩
  · have happend : before ++ [final] = earlier ++ round :: later := by rw [← hsplit, hfinal]
    rcases eq_or_mem_of_append happend with ⟨rfl, rfl, rfl⟩ | ⟨rest, hrest⟩
    · rw [hopens.started]
      exact ⟨⟨last, v, h, hopens.beganIn⟩, fun _ => ⟨rfl, hfinal⟩⟩
    · obtain ⟨hbegan, hnot⟩ := hbefore rest hrest
      exact ⟨hbegan, fun hproves => absurd hproves hnot⟩

/-- What stays the same during a poll that begins at a tick. -/
def job (settings : PollSettings) (request : DurabilityRequest) (timeout : Option Duration)
    (cancel : Cancellation) (now : Nat) : Job :=
  { settings, request, cancel, started := now, deadline := timeout.map fun d => now + d.ticks
    limit := settings.roundsWithin timeout }

theorem run_eq (s : Surroundings W) (settings : PollSettings) {request : DurabilityRequest}
    (timeout : Option Duration) (cancel : Cancellation) (w : W) (now : Nat)
    (h : ¬ (request.persistTo = .zero ∧ request.replicateTo = .zero)) :
    run s settings request timeout cancel w now =
      rounds s (job settings request timeout cancel now) (settings.roundsWithin timeout) w now := by
  have htrivial : ¬ request.isTrivial = true := by
    rw [DurabilityRequest.isTrivial, Bool.and_eq_true, beq_iff_eq, beq_iff_eq]
    exact h
  rw [run, if_neg htrivial]
  rfl

theorem run_of_trivial (s : Surroundings W) (settings : PollSettings) {request : DurabilityRequest}
    (timeout : Option Duration) (cancel : Cancellation) (w : W) (now : Nat)
    (h : request.persistTo = .zero ∧ request.replicateTo = .zero) :
    run s settings request timeout cancel w now = .answered (.ok ()) w now := by
  have htrivial : request.isTrivial = true := by
    rw [DurabilityRequest.isTrivial, h.1, h.2]
    rfl
  rw [run, if_pos htrivial]

/-- A poll for more than the primary's acknowledgement confirms the durability exactly with the
first of its rounds that proves it: the poll ends with that round, whatever the earlier ones have
shown, unless its caller lets go of it. Each round is routed in the table in force when it begins
and checked against it. -/
theorem confirmed_by_first_proving_round (s : Surroundings W) (settings : PollSettings)
    (request : DurabilityRequest) (timeout : Option Duration) (cancel : Cancellation) (w : W)
    (now : Nat) (hrequest : ¬ (request.persistTo = .zero ∧ request.replicateTo = .zero)) :
    let t := job settings request timeout cancel now
    let report := run s settings request timeout cancel w now
    (report.answer = some (.ok ()) → ∃ earlier last, report.rounds = earlier ++ [last] ∧
        report.finished = last.ended ∧ last.Proves request ∧
        ∀ round ∈ earlier, ¬ round.Proves request) ∧
      ∀ earlier round later, report.rounds = earlier ++ round :: later →
        (∃ left v, Reaches s t t.limit w now earlier left v round.started ∧
          BeganIn s t v round) ∧
        (round.Proves request → later = [] ∧ report.finished = round.ended ∧
          (report.answer = some (.ok ()) ∨
            report.answer = none ∧ s.isDropped report.world = true)) := by
  intro t report
  obtain ⟨before, left, v, tick, r, hreaches, hends, hrounds⟩ := rounds_spec s t t.limit w now
  have hreport : report = { r with rounds := before ++ r.rounds } :=
    (run_eq s settings timeout cancel w now hrequest).trans hrounds
  rw [hreport]
  refine ⟨fun hok => ?_, fun earlier round later hsplit => ?_⟩
  · obtain ⟨last, hlast, hfinished, hproves⟩ := hends.proves hok
    exact ⟨before, last, congrArg (before ++ ·) hlast, hfinished, hproves, hreaches.not_proves⟩
  · obtain ⟨hbegan, hlast⟩ := hreaches.split_ends hends hsplit
    refine ⟨hbegan, fun hproves => ?_⟩
    obtain ⟨hlater, hround⟩ := hlast hproves
    obtain ⟨hfinished, hanswer⟩ := hends.of_proves hround hproves
    exact ⟨hlater, hfinished, hanswer⟩

/-- A primary and a replica that take five ticks to persist a mutation, in a world that knows only
its tick. -/
def slowPair : Surroundings Nat where
  table _ := some
    { kind := .partitioned, name := "", rev := 1, replicaCount := 1
      partitions := [⟨some 0, [some 1]⟩]
      registry := ⟨[⟨0, "a:1", .active⟩, ⟨1, "a:2", .active⟩]⟩ }
  observe w now _ _ cas _ :=
    (w, ⟨some 1, .ok ⟨cas, if now < 5 then .foundNotPersisted else .foundPersisted⟩⟩)
  get w _ _ _ _ _ := (w, ⟨none, .crashed⟩)
  signalOutdated w := w
  wait _ tick := tick
  isDropped _ := false

def pairSettings : PollSettings := ⟨.ofMillis 10, 3, .ofMillis 5⟩

def pairRequest : DurabilityRequest := { key := "k", cas := 7, persistTo := .two }

-- The first round of this poll proves nothing, the second one does.
theorem confirmed_by_second_round :
    let report := run slowPair pairSettings pairRequest none .never 0 0
    ¬ (pairRequest.persistTo = .zero ∧ pairRequest.replicateTo = .zero) ∧
      report.answer = some (.ok ()) ∧ report.rounds.length = 2 ∧
      ∃ earlier last, report.rounds = earlier ++ [last] ∧ last.Proves pairRequest ∧
        ∀ round ∈ earlier, ¬ round.Proves pairRequest := by
  intro report
  have hrequest : ¬ (pairRequest.persistTo = .zero ∧ pairRequest.replicateTo = .zero) := by decide
  have hanswer : report.answer = some (.ok ()) := by decide +kernel
  have hlength : report.rounds.length = 2 := by decide +kernel
  obtain ⟨earlier, last, hrounds, -, hproves, hearlier⟩ := (confirmed_by_first_proving_round
    slowPair pairSettings pairRequest none .never 0 0 hrequest).1 hanswer
  exact ⟨hrequest, hanswer, hlength, earlier, last, hrounds, hproves, hearlier⟩

end Poll

end ClusterClient
