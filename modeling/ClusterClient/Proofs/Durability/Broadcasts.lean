import ClusterClient.Proofs.Durability.Budget
import ClusterClient.Proofs.Provider.Routes
import ClusterClient.Proofs.Trace
/-!
# What a poll has sent

A poll asks the targets of the routes of its rounds, each of them once a round, and nobody else. The
errors of a poll that tell a number of rounds tell how many it has broadcast, wherever it ends.
-/

namespace ClusterClient

variable {W : Type}

/-- The number of rounds that an error tells, if it tells one. -/
def DurabilityError.rounds? : DurabilityError → Option Nat
  | modified _ _ rounds => some rounds
  | timeout _ rounds _ => some rounds
  | interrupted _ rounds => some rounds
  | insufficientReplicas _ _ => none
  | noRoute _ => none

namespace Round

-- One entry of a round is marked as the primary's, and it is that of the primary.
theorem filter_marked {r : Round} (h : r.IsComplete) (cas : UInt64) :
    ∃ d, r.deliveries.head? = some d ∧ (r.route.targets.zip (r.marked cas)).filter (·.2.1) =
      [(r.route.primary, true, outcome cas r.window d)] := by
  cases hdeliveries : r.deliveries with
  | nil =>
    rw [IsComplete, hdeliveries] at h
    cases h
  | cons d ds =>
    refine ⟨d, rfl, ?_⟩
    rw [marked_eq hdeliveries, Route.targets, List.zip_cons_cons, List.filter_cons_of_pos rfl,
      List.filter_eq_nil_iff.mpr]
    rintro ⟨node, isMaster, o⟩ hmem
    obtain ⟨o', -, heq⟩ := List.mem_map.mp (List.of_mem_zip hmem).2
    cases heq
    exact Bool.false_ne_true

end Round

namespace Poll

variable {s : Surroundings W} {t : Job} {left last : Nat} {w v u : W} {now next tick : Nat}
  {round : Round} {earlier : List Round} {r : Report W}

/-! ## Who is asked -/

/-- The report in surroundings that also keep a trace: after the requests before come those of the
rounds, and the clock stands where the poll has ended. -/
def Report.traced (r : Report W) (t : Job) (requests : List Request) (signals : Nat) :
    Report (W × Trace) :=
  let sent := r.rounds.flatMap (·.requests t.request.key t.request.cas)
  { r with world := (r.world, ⟨requests ++ sent, signals, r.finished⟩) }

section Traced

variable (requests : List Request) (signals : Nat)

@[simp] theorem Report.traced_answered (answer : Except DurabilityError Unit) (w : W) (now : Nat) :
    (answered answer w now).traced t requests signals =
      .answered answer (w, ⟨requests, signals, now⟩) now := by
  rw [traced, answered, List.flatMap_nil, List.append_nil]
  rfl

@[simp] theorem Report.traced_dropped (w : W) (now : Nat) :
    (dropped w now).traced t requests signals = .dropped (w, ⟨requests, signals, now⟩) now := by
  rw [traced, dropped, List.flatMap_nil, List.append_nil]
  rfl

@[simp] theorem Report.traced_after (round : Round) (r : Report W) :
    (after round r).traced t requests signals = .after round
      (r.traced t (requests ++ round.requests t.request.key t.request.cas) signals) := by
  rw [traced, traced, after, List.flatMap_cons, List.append_assoc]
  rfl

theorem Opens.traced (h : Opens s t w now round v) :
    Opens s.traced t (w, ⟨requests, signals, now⟩) now round
      (v, ⟨requests ++ round.requests t.request.key t.request.cas, signals, round.ended⟩) := by
  refine ⟨h.notCancelled, h.routed, h.satisfiable, ?_⟩
  rw [Round.run_traced, h.ran]

theorem Turn.traced (h : Turn s t left w now round v next) :
    Turn s.traced t left (w, ⟨requests, signals, now⟩) now round
      (v, ⟨requests ++ round.requests t.request.key t.request.cas, signals, next⟩) next := by
  cases h with
  | atOnce hopens hkept hverdict hwake =>
    exact .atOnce (hopens.traced requests signals) hkept hverdict hwake
  | paused hopens hkept hverdict hwake hcancel hawake =>
    exact .paused (hopens.traced requests signals) hkept hverdict hwake hcancel hawake

theorem Ends.traced (h : Ends s t left w now r) :
    Ends s.traced t left (w, ⟨requests, signals, now⟩) now (r.traced t requests signals) := by
  cases h with
  | exhausted =>
    rw [Report.traced_answered]
    exact .exhausted _ _
  | cancelled hcancel =>
    rw [Report.traced_answered]
    exact .cancelled hcancel
  | unrouted hcancel hroute =>
    rw [Report.traced_answered]
    exact .unrouted hcancel hroute
  | insufficient hcancel hroute hsat =>
    rw [Report.traced_answered]
    exact .insufficient hcancel hroute hsat
  | droppedInRound hopens hdropped =>
    rw [Report.traced_after, Report.traced_dropped]
    exact .droppedInRound (hopens.traced requests signals) hdropped
  | decided hopens hkept hverdict =>
    rw [Report.traced_after, Report.traced_answered]
    exact .decided (hopens.traced requests signals) hkept hverdict
  | droppedInPause hopens hkept hverdict hwake htick hdropped =>
    rw [Report.traced_after, Report.traced_dropped]
    exact .droppedInPause (hopens.traced requests signals) hkept hverdict hwake htick hdropped
  | interrupted hopens hkept hverdict hwake htick hawake =>
    rw [Report.traced_after, Report.traced_answered]
    exact .interrupted (hopens.traced requests signals) hkept hverdict hwake htick hawake

end Traced

/-- A poll sends the requests of its rounds, one round after the other, and nothing else; it reports
nothing, and has waited until it ends. -/
theorem rounds_traced (s : Surroundings W) (t : Job) (left : Nat) (w : W) (requests : List Request)
    (signals now : Nat) : rounds s.traced t left (w, ⟨requests, signals, now⟩) now =
      (rounds s t left w now).traced t requests signals := by
  induction left generalizing w requests now with
  | zero => exact ((Ends.exhausted w now).traced requests signals).rounds_eq
  | succ left ih =>
    rcases rounds_succ s t left w now with hends | ⟨round, v, next, hturn, hrounds⟩
    · exact (hends.traced requests signals).rounds_eq
    · rw [(hturn.traced requests signals).rounds_eq, hrounds, ih, Report.traced_after]

/-! ## How many rounds an error tells -/

-- The end of a poll tells the rounds of the turns before it, and its own.
theorem Ends.rounds?_eq {e : DurabilityError} {n : Nat} (h : Ends s t left w now r)
    (hleft : left ≤ t.limit) (hr : r.answer = some (.error e)) (hn : e.rounds? = some n) :
    n + left = t.limit + r.rounds.length := by
  have hnumber : ∀ left, left + 1 ≤ t.limit → t.number left + (left + 1) = t.limit + 1 := by
    intro left hleft
    rw [Job.number]
    omega
  cases h with
  | exhausted =>
    cases hr
    cases hn
    rfl
  | cancelled =>
    cases hr
    cases hn
    exact Nat.sub_add_cancel hleft
  | unrouted =>
    cases hr
    cases hn
  | insufficient =>
    cases hr
    cases hn
  | droppedInRound => cases hr
  | decided hopens _ hverdict =>
    cases hr
    cases (verdict_eq_some_iff hopens.beganIn.isComplete).mp hverdict with
    | modified =>
      cases hn
      exact hnumber _ hleft
    | timeOver =>
      cases hn
      exact hnumber _ hleft
  | droppedInPause => cases hr
  | interrupted =>
    cases hr
    cases hn
    exact hnumber _ hleft

theorem rounds?_eq_length {e : DurabilityError} {n : Nat}
    (hanswer : (rounds s t t.limit w now).answer = some (.error e)) (hn : e.rounds? = some n) :
    n = (rounds s t t.limit w now).rounds.length := by
  obtain ⟨earlier, last, v, tick, r, hreaches, hends, hrounds⟩ := rounds_spec s t t.limit w now
  have hcount := hreaches.length_add
  rw [hrounds] at hanswer ⊢
  have htold := hends.rounds?_eq (by omega) hanswer hn
  show n = (earlier ++ r.rounds).length
  rw [List.length_append]
  omega

/-! ## Runs -/

-- Each round of a poll began where those before it have led.
theorem reaches_of_split {later : List Round} (h : (rounds s t t.limit w now).rounds =
    earlier ++ round :: later) :
    ∃ left v, Reaches s t t.limit w now earlier left v round.started ∧ BeganIn s t v round := by
  obtain ⟨before, last, v, tick, r, hreaches, hends, hrounds⟩ := rounds_spec s t t.limit w now
  rw [hrounds] at h
  exact (hreaches.split_ends hends h).1

theorem isComplete_of_mem (h : round ∈ (rounds s t t.limit w now).rounds) : round.IsComplete := by
  obtain ⟨earlier, later, hsplit⟩ := List.append_of_mem h
  obtain ⟨_, _, -, hbegan⟩ := reaches_of_split hsplit
  exact hbegan.isComplete

/-- An error of a poll that tells a number of rounds tells how many the poll has broadcast. What it
has sent is one observe to each target of each of its rounds, in order: a round is routed in the
table in force when it begins, over a well-formed table no target is asked twice in it, and one
entry of it is marked as the primary's. -/
theorem told_rounds_eq_broadcast (s : Surroundings W) (settings : PollSettings)
    (request : DurabilityRequest) (timeout : Option Duration) (cancel : Cancellation) (w : W)
    (now : Nat) :
    let t := job settings request timeout cancel now
    let report := run s settings request timeout cancel w now
    let requests := report.rounds.flatMap (·.requests request.key request.cas)
    (∀ e n, report.answer = some (.error e) → e.rounds? = some n → n = report.rounds.length) ∧
      run s.traced settings request timeout cancel (w, .start now) now =
        { report with world := (report.world, ⟨requests, 0, report.finished⟩) } ∧
      requests.map (·.node) = report.rounds.flatMap (·.route.targets) ∧
      ∀ earlier round later, report.rounds = earlier ++ round :: later →
        (∃ left v, Reaches s t t.limit w now earlier left v round.started ∧ BeganIn s t v round) ∧
          (∀ m, round.route.table.WellFormed m → (round.route.targets.map (·.index)).Nodup) ∧
          ∃ d, round.deliveries.head? = some d ∧
            (round.route.targets.zip (round.marked request.cas)).filter (·.2.1) =
              [(round.route.primary, true, Round.outcome request.cas round.window d)] := by
  intro t report requests
  by_cases htrivial : request.persistTo = .zero ∧ request.replicateTo = .zero
  · have hreport : report = .answered (.ok ()) w now :=
      run_of_trivial s settings timeout cancel w now htrivial
    simp only [requests, hreport]
    rw [run_of_trivial s.traced settings timeout cancel (w, .start now) now htrivial]
    refine ⟨fun e n he _ => ?_, rfl, rfl, fun earlier round later hsplit => ?_⟩
    · cases he
    · exact absurd hsplit (List.append_ne_nil_of_right_ne_nil _ (List.cons_ne_nil _ _)).symm
  · have hreport : report = rounds s t t.limit w now :=
      run_eq s settings timeout cancel w now htrivial
    have htraced : run s.traced settings request timeout cancel (w, .start now) now =
        rounds s.traced t t.limit (w, .start now) now :=
      run_eq s.traced settings timeout cancel (w, .start now) now htrivial
    simp only [requests, hreport]
    refine ⟨fun e n => rounds?_eq_length, ?_, ?_, fun earlier round later hsplit => ?_⟩
    · rw [htraced, Trace.start, rounds_traced, Report.traced, List.nil_append]
      rfl
    · rw [List.map_flatMap]
      exact List.flatMap_congr fun round hround =>
        Round.node_requests (isComplete_of_mem hround) request.key request.cas
    · obtain ⟨left, v, hreaches, hbegan⟩ := reaches_of_split hsplit
      refine ⟨⟨left, v, hreaches, hbegan⟩, fun m hwell => (hwell.routes hbegan.routed).distinct, ?_⟩
      exact Round.filter_marked hbegan.isComplete request.cas

-- The second pause of this poll is interrupted: two rounds were broadcast, and each has asked both
-- nodes.
theorem told_rounds_eq_broadcast_interrupted :
    let cancel : Cancellation := ⟨false, [(13, true)]⟩
    let request := { pairRequest with isDelete := true }
    let report := run slowPair pairSettings request none cancel 0 0
    let traced := run slowPair.traced pairSettings request none cancel (0, .start 0) 0
    report.answer = some (.error (.interrupted "k" 2)) ∧ report.rounds.length = 2 ∧
      traced.world.2.asked.map (·.address) = ["a:1", "a:2", "a:1", "a:2"] ∧
      traced.world.2.asked = report.rounds.flatMap (·.route.targets) := by
  intro cancel request report traced
  have hanswer : report.answer = some (.error (.interrupted "k" 2)) := by decide +kernel
  have hasked : (report.rounds.flatMap (·.route.targets)).map (·.address) =
      ["a:1", "a:2", "a:1", "a:2"] := by decide +kernel
  obtain ⟨htold, htraced, hnodes, -⟩ :=
    told_rounds_eq_broadcast slowPair pairSettings request none cancel 0 0
  have hworld : traced.world.2.asked = report.rounds.flatMap (·.route.targets) := by
    rw [Trace.asked, show traced = _ from htraced]
    exact hnodes
  exact ⟨hanswer, (htold _ 2 hanswer rfl).symm, hworld ▸ hasked, hworld⟩

end Poll

end ClusterClient
