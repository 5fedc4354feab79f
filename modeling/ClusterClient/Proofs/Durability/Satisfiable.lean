import ClusterClient.Proofs.Durability.CountedNodes
import ClusterClient.Proofs.Durability.Turns
import ClusterClient.Proofs.Provider.Routes
/-!
# Routes that can satisfy a request

A poll checks a route before it broadcasts a round over it. Over a well-formed table the check is
exact: it lets a route pass just if its targets, answering as well as they can, would prove the
durability. So a poll never asks nodes for what they cannot give, and says how many replicas there
are instead.
-/

namespace ClusterClient

variable {maxReplicas : Nat} {t : Table} {key : String} {r : Route} {request : DurabilityRequest}

/-- Some outcomes of the targets of the route, the first of them the primary's, amount to a tally
that satisfies the request. -/
def Route.CanSatisfy (r : Route) (request : DurabilityRequest) : Prop :=
  ∃ outcomes : List Outcome, outcomes.length = r.targets.length ∧
    (Tally.ofOutcomes request.isDelete (outcomes.mapIdx fun i o => (i == 0, o))).satisfies
      request.persistTo request.replicateTo = true

theorem Outcome.isReached_persisted (isDelete : Bool) :
    (Tally.persisted isDelete).isReached isDelete = true := by
  cases isDelete <;> rfl

theorem Outcome.isPersisted_persisted (isDelete : Bool) :
    (Tally.persisted isDelete).isPersisted isDelete = true := by
  cases isDelete <;> rfl

/-! ## What targets can give -/

-- A replica that can be reached counts once at most, and all of them count if all have persisted.
theorem Route.canSatisfy_iff :
    r.CanSatisfy request ↔ request.replicasNeeded ≤ (r.replicas.filterMap id).length := by
  rw [DurabilityRequest.replicasNeeded, Nat.max_le]
  constructor
  · rintro ⟨outcomes, hlength, hsatisfies⟩
    cases outcomes with
    | nil => cases hlength
    | cons primary others =>
      rw [Round.mapIdx_isFirst, Tally.ofOutcomes_cons, Tally.satisfies] at hsatisfies
      simp only [Bool.and_eq_true, decide_eq_true_eq] at hsatisfies
      obtain ⟨⟨hreplicated, hpersisted⟩, -⟩ := hsatisfies
      have hothers : others.length = (r.replicas.filterMap id).length := Nat.succ.inj hlength
      rw [← hothers]
      exact ⟨hreplicated.trans List.countP_le_length, hpersisted.trans List.countP_le_length⟩
  · rintro ⟨hreplicated, hpersisted⟩
    let o := Tally.persisted request.isDelete
    refine ⟨o :: List.replicate (r.replicas.filterMap id).length o, ?_, ?_⟩
    · rw [Route.targets, List.length_cons, List.length_cons, List.length_replicate]
    · rw [Round.mapIdx_isFirst, Tally.ofOutcomes_cons, Tally.satisfies]
      simp only [o, List.countP_replicate, Outcome.isReached_persisted,
        Outcome.isPersisted_persisted, if_true, Bool.or_true, Bool.and_true, Bool.and_eq_true,
        decide_eq_true_eq]
      exact ⟨hreplicated, hpersisted⟩

/-! ## The check -/

namespace DurabilityRequest

-- No partition assigns a node twice, so the replicas that can be reached are active nodes beside the
-- primary, and the number of those does not bound them any further.
theorem available_eq (ht : t.WellFormed maxReplicas) (hr : t.route key = .ok r)
    (hkind : t.kind = .partitioned) : available r = (r.replicas.filterMap id).length := by
  have hroutes := ht.routes hr
  have hbounded := hroutes.bounded
  rw [Route.targets, List.length_cons, Nat.add_sub_cancel] at hbounded
  rw [available, hroutes.table, hkind]
  exact Nat.min_eq_left hbounded

theorem isSatisfiable_iff_canSatisfy (ht : t.WellFormed maxReplicas) (hr : t.route key = .ok r)
    (hkind : t.kind = .partitioned) : request.isSatisfiable r = true ↔ r.CanSatisfy request := by
  rw [Route.canSatisfy_iff, isSatisfiable, available_eq ht hr hkind, (ht.routes hr).table, hkind,
    Bool.and_eq_true, decide_eq_true_eq]
  exact and_iff_right rfl

theorem isSatisfiable_iff_of_simple (hkind : r.table.kind = .simple) :
    request.isSatisfiable r = true ↔ request.persistTo = .zero ∧ request.replicateTo = .zero := by
  have hnone : request.replicateTo.count = 0 ↔ request.replicateTo = .zero := by
    cases request.replicateTo <;> simp only [ReplicateTo.count, reduceCtorEq]
  rw [isSatisfiable, available, hkind, Bool.and_eq_true, decide_eq_true_eq, Nat.le_zero,
    replicasNeeded, Nat.max_eq_zero_iff, hnone, Bool.not_eq_true', Bool.and_eq_false_iff,
    bne_eq_false_iff_eq]
  constructor
  · rintro ⟨hpersist, hreplicate, -⟩
    exact ⟨hpersist.resolve_left nofun, hreplicate⟩
  · rintro ⟨hpersist, hreplicate⟩
    refine ⟨.inr hpersist, hreplicate, ?_⟩
    rw [hpersist]
    rfl

-- Whoever asks for nothing is not refused.
theorem isSatisfiable_of_trivial (h : request.persistTo = .zero ∧ request.replicateTo = .zero) :
    request.isSatisfiable r = true := by
  rw [isSatisfiable, replicasNeeded, h.1, h.2, Bool.and_eq_true, decide_eq_true_eq]
  refine ⟨?_, Nat.zero_le _⟩
  rw [bne_self_eq_false, Bool.and_false, Bool.not_false]

end DurabilityRequest

/-! ## Polls -/

namespace Poll

variable {W : Type} {s : Surroundings W} {settings : PollSettings} {timeout : Option Duration}
  {cancel : Cancellation} {w : W} {now : Nat} {round : Round}

theorem run_of_unsatisfiable (hmax : 1 ≤ settings.maxRounds) (hcancel : cancel.wasSet now = false)
    (hroute : route (s.table w) request.key = .ok r) (h : request.isSatisfiable r = false) :
    run s settings request timeout cancel w now =
      .answered (.error (.insufficientReplicas request (DurabilityRequest.available r))) w now := by
  have hrequest : ¬ (request.persistTo = .zero ∧ request.replicateTo = .zero) := fun htrivial => by
    cases h.symm.trans (DurabilityRequest.isSatisfiable_of_trivial htrivial)
  obtain ⟨left, hleft⟩ := Nat.exists_eq_add_of_le' (roundsWithin_pos hmax timeout)
  rw [run_eq s settings timeout cancel w now hrequest, hleft]
  simp only [rounds, job, hcancel, hroute, h, Bool.false_eq_true, if_false, Bool.not_false, if_true]

-- Each round of a poll is broadcast over a route that has passed the check.
theorem exists_opens_of_mem_rounds
    (h : round ∈ (run s settings request timeout cancel w now).rounds) :
    ¬ (request.persistTo = .zero ∧ request.replicateTo = .zero) ∧
      ∃ v, BeganIn s (job settings request timeout cancel now) v round := by
  by_cases htrivial : request.persistTo = .zero ∧ request.replicateTo = .zero
  · rw [run_of_trivial s settings timeout cancel w now htrivial] at h
    cases h
  · rw [run_eq s settings timeout cancel w now htrivial] at h
    obtain ⟨earlier, later, hsplit⟩ := List.append_of_mem h
    obtain ⟨v, u, hopens⟩ := opens_of_split hsplit
    exact ⟨htrivial, v, hopens.beganIn⟩

/-- Over a partitioned table the check of a route is exact: the route passes just if some outcomes of
its targets would satisfy the request, and the replicas counted as available are the slots that can
be reached. Over a simple table only a request for nothing passes. A poll that may broadcast a round
refuses a route that does not pass at once, without asking anyone, and each round of a poll is
broadcast over a route that can satisfy the request. -/
theorem refuses_unsatisfiable (ht : t.WellFormed maxReplicas) (request : DurabilityRequest)
    (hr : t.route request.key = .ok r) :
    (t.kind = .partitioned →
        (request.isSatisfiable r = true ↔ r.CanSatisfy request) ∧
          DurabilityRequest.available r = (r.replicas.filterMap id).length) ∧
      (t.kind = .simple →
        (request.isSatisfiable r = true ↔
          request.persistTo = .zero ∧ request.replicateTo = .zero)) ∧
      ∀ {W : Type} (s : Surroundings W) (settings : PollSettings) (timeout : Option Duration)
        (cancel : Cancellation) (w : W) (now : Nat),
        let report := run s settings request timeout cancel w now
        (s.table w = some t → 1 ≤ settings.maxRounds → cancel.wasSet now = false →
          request.isSatisfiable r = false →
            report = .answered
              (.error (.insufficientReplicas request (DurabilityRequest.available r))) w now) ∧
          ∀ round ∈ report.rounds, ∀ m, round.route.table.WellFormed m →
            round.route.table.kind = .partitioned ∧ round.route.CanSatisfy request := by
  refine ⟨fun hkind => ?_, fun hkind => ?_, fun s settings timeout cancel w now => ⟨?_, ?_⟩⟩
  · exact ⟨DurabilityRequest.isSatisfiable_iff_canSatisfy ht hr hkind,
      DurabilityRequest.available_eq ht hr hkind⟩
  · apply DurabilityRequest.isSatisfiable_iff_of_simple
    rw [(ht.routes hr).table, hkind]
  · intro htable hmax hcancel hrefused
    refine run_of_unsatisfiable hmax hcancel ?_ hrefused
    rw [htable]
    exact hr
  · intro round hround m hwell
    obtain ⟨hrequest, v, hbegan⟩ := exists_opens_of_mem_rounds hround
    have hkind : round.route.table.kind = .partitioned := by
      cases hkind : round.route.table.kind with
      | partitioned => rfl
      | simple =>
        have hpassed := (DurabilityRequest.isSatisfiable_iff_of_simple hkind).mp hbegan.satisfiable
        exact absurd hpassed hrequest
    refine ⟨hkind, ?_⟩
    exact (DurabilityRequest.isSatisfiable_iff_canSatisfy hwell hbegan.routed hkind).mp
      hbegan.satisfiable

-- Once its replica is suspected the pair can prove no durability on two nodes, and one on the
-- primary alone.
theorem refuses_unsatisfiable_pair :
    let t := Table.pair.withState "a:2" .suspected
    let s := { slowPair with table := fun _ => some t }
    let r : Route := ⟨0, ⟨0, "a:1", .active⟩, [none], t⟩
    let modest := { pairRequest with persistTo := .master }
    t.WellFormed 3 ∧ t.route "k" = .ok r ∧ t.kind = .partitioned ∧ ¬ r.CanSatisfy pairRequest ∧
      run s pairSettings pairRequest none .never 0 0 =
        .answered (.error (.insufficientReplicas pairRequest 0)) 0 0 ∧
      ∃ round ∈ (run s pairSettings modest none .never 0 0).rounds,
        round.route.CanSatisfy modest := by
  intro t s r modest
  have hpair : Table.partitioned "" 1 ["a:1", "a:2"] 1 [[0, 1]] 3 = .ok Table.pair := by rfl
  have hmark : Table.pair.setNodeState? "a:2" .suspected = some t := by decide +kernel
  have ht : t.WellFormed 3 := (Table.wellFormed_of_partitioned hpair).setNodeState hmark
  have hroute : t.route "k" = .ok r := by decide +kernel
  have hrefused : pairRequest.isSatisfiable r = false := by decide +kernel
  obtain ⟨hexact, -, hpoll⟩ := refuses_unsatisfiable ht pairRequest hroute
  obtain ⟨hpasses, havailable⟩ := hexact rfl
  have hcannot : ¬ r.CanSatisfy pairRequest := by
    rw [← hpasses, hrefused]
    exact Bool.false_ne_true
  have hreport := (hpoll s pairSettings none .never 0 0).1 rfl (by decide) rfl hrefused
  rw [havailable] at hreport
  have hrounds : ∃ round ∈ (run s pairSettings modest none .never 0 0).rounds,
      round.route.table = t := by decide +kernel
  obtain ⟨round, hround, htable⟩ := hrounds
  have hasked := ((refuses_unsatisfiable ht modest hroute).2.2 s pairSettings none
    .never 0 0).2 round hround 3 (htable ▸ ht)
  exact ⟨ht, hroute, rfl, hcannot, hreport, round, hround, hasked.2⟩

end Poll

end ClusterClient
