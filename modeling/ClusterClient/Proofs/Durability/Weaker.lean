import ClusterClient.Proofs.Durability.Turns
/-!
# Weaker requirements

A poll that requires no more than another one, and is otherwise the same, broadcasts the same rounds
at the same ticks until one of them is enough for it. So it is confirmed whenever the other one is,
and no later.
-/

namespace ClusterClient

variable {W : Type} {request : DurabilityRequest} {persistTo : PersistTo}
  {replicateTo : ReplicateTo}

theorem PersistTo.eq_zero_of_count_le {p q : PersistTo} (h : p.count ≤ q.count) (hq : q = .zero) :
    p = .zero := by
  rw [hq] at h
  cases p with
  | zero => rfl
  | _ => cases h

theorem ReplicateTo.eq_zero_of_count_le {p q : ReplicateTo} (h : p.count ≤ q.count)
    (hq : q = .zero) : p = .zero := by
  rw [hq] at h
  cases p with
  | zero => rfl
  | _ => cases h

namespace DurabilityRequest

/-- The request with another requirement. -/
def requiring (r : DurabilityRequest) (persistTo : PersistTo) (replicateTo : ReplicateTo) :
    DurabilityRequest :=
  { r with persistTo, replicateTo }

-- What can satisfy a request can satisfy one that requires no more.
theorem isSatisfiable_requiring {route : Route}
    (hpersist : persistTo.count ≤ request.persistTo.count)
    (hreplicate : replicateTo.count ≤ request.replicateTo.count)
    (h : request.isSatisfiable route = true) :
    (request.requiring persistTo replicateTo).isSatisfiable route = true := by
  rw [isSatisfiable, Bool.and_eq_true, Bool.not_eq_true', Bool.and_eq_false_iff,
    decide_eq_true_eq] at h ⊢
  obtain ⟨hkind, hneeded⟩ := h
  constructor
  · apply hkind.imp_right
    rw [bne_eq_false_iff_eq, bne_eq_false_iff_eq]
    exact PersistTo.eq_zero_of_count_le hpersist
  · apply Nat.le_trans _ hneeded
    rw [replicasNeeded, replicasNeeded, PersistTo.replicas, PersistTo.replicas]
    show max replicateTo.count (persistTo.count - 1) ≤ _
    omega

end DurabilityRequest

-- A round that proves a durability proves each weaker one.
theorem Round.Proves.requiring {round : Round} (h : round.Proves request)
    (hpersist : persistTo.count ≤ request.persistTo.count)
    (hreplicate : replicateTo.count ≤ request.replicateTo.count) :
    round.Proves (request.requiring persistTo replicateTo) := by
  obtain ⟨reached, hreached, hslots⟩ := h.replicated
  obtain ⟨written, hwritten, hwrittenSlots⟩ := h.persisted
  refine ⟨h.notModified, ⟨reached, Nat.le_trans hreplicate hreached, hslots⟩,
    ⟨written, Nat.le_trans (Nat.sub_le_sub_right hpersist 1) hwritten, hwrittenSlots⟩, ?_⟩
  exact fun hne => h.primary (mt (PersistTo.eq_zero_of_count_le hpersist) hne)

namespace Poll

variable {s : Surroundings W} {t : Job} {left number : Nat} {w v : W} {now next : Nat}
  {round : Round}

def Job.requiring (t : Job) (persistTo : PersistTo) (replicateTo : ReplicateTo) : Job :=
  { t with request := t.request.requiring persistTo replicateTo }

-- A round that leaves a poll undecided leaves the weaker one undecided, or is enough for it.
theorem verdict_requiring (persistTo : PersistTo) (replicateTo : ReplicateTo)
    (h : round.IsComplete) (hverdict : t.verdict number round = none) :
    (t.requiring persistTo replicateTo).verdict number round = none ∨
      (t.requiring persistTo replicateTo).verdict number round = some (.ok ()) := by
  have hundecided := (verdict_eq_none_iff h).mp hverdict
  by_cases hproves : round.Proves (t.requiring persistTo replicateTo).request
  · exact .inr ((verdict_ok_iff h number).mpr hproves)
  · refine .inl ((verdict_eq_none_iff h).mpr fun answer hdecides => ?_)
    cases hdecides with
    | modified hmodified => exact hundecided _ (.modified hmodified)
    | proved hweak => exact hproves hweak
    | timeOver hmodified _ hdeadline hover =>
      exact hundecided _
        (.timeOver hmodified (fun hstrong => hundecided _ (.proved hstrong)) hdeadline hover)

section Requiring

variable (hpersist : persistTo.count ≤ t.request.persistTo.count)
  (hreplicate : replicateTo.count ≤ t.request.replicateTo.count)

include hpersist hreplicate

theorem Opens.requiring (h : Opens s t w now round v) :
    Opens s (t.requiring persistTo replicateTo) w now round v :=
  ⟨h.notCancelled, h.routed,
    DurabilityRequest.isSatisfiable_requiring hpersist hreplicate h.satisfiable, h.ran⟩

theorem Turn.requiring (h : Turn s t left w now round v next)
    (hverdict : (t.requiring persistTo replicateTo).verdict (t.number left) round = none) :
    Turn s (t.requiring persistTo replicateTo) left w now round v next := by
  cases h with
  | atOnce hopens hkept _ hwake =>
    exact .atOnce (hopens.requiring hpersist hreplicate) hkept hverdict hwake
  | paused hopens hkept _ hwake hcancel hawake =>
    exact .paused (hopens.requiring hpersist hreplicate) hkept hverdict hwake hcancel hawake

/-- From a turn on, a poll that is confirmed takes the weaker one along until it is confirmed. -/
theorem rounds_requiring (hok : (rounds s t left w now).answer = some (.ok ())) :
    let weak := rounds s (t.requiring persistTo replicateTo) left w now
    weak.answer = some (.ok ()) ∧ weak.rounds <+: (rounds s t left w now).rounds ∧
      weak.finished ≤ (rounds s t left w now).finished := by
  -- on the turns that are left; both polls make the same turn until the weaker one has its verdict
  induction left generalizing w now with
  | zero => cases hok
  | succ left ih =>
    intro weak
    rcases rounds_succ s t left w now with hends | ⟨round, v, next, hturn, hrounds⟩
    · obtain ⟨round, v, hopens, hkept, hproves, hreport⟩ := hends.decided_of_ok hok
      have hweak : weak = .after round (.answered (.ok ()) v round.ended) :=
        rounds_of_decided (hopens.requiring hpersist hreplicate) hkept
          ((verdict_ok_iff hopens.beganIn.isComplete _).mpr (hproves.requiring hpersist hreplicate))
      rw [hweak, hreport]
      exact ⟨rfl, List.prefix_refl _, Nat.le_refl _⟩
    · obtain ⟨u, hopens, hkept, hverdict⟩ := hturn.kept
      rw [hrounds] at hok ⊢
      rcases verdict_requiring persistTo replicateTo hopens.beganIn.isComplete hverdict with
        hnone | hproved
      · have hweak : weak = .after round _ :=
          (hturn.requiring hpersist hreplicate hnone).rounds_eq
        obtain ⟨hanswer, hprefix, hfinished⟩ := ih hok
        rw [hweak]
        exact ⟨hanswer, List.prefix_cons_iff.mpr (.inr ⟨_, rfl, hprefix⟩), hfinished⟩
      · have hweak : weak = .after round (.answered (.ok ()) u round.ended) :=
          rounds_of_decided (hopens.requiring hpersist hreplicate) hkept hproved
        rw [hweak]
        refine ⟨rfl, ⟨_, rfl⟩, Nat.le_trans hturn.le_next.2 ?_⟩
        exact le_finished s t left v next

end Requiring

theorem run_le_finished (s : Surroundings W) (settings : PollSettings) (request : DurabilityRequest)
    (timeout : Option Duration) (cancel : Cancellation) (w : W) (now : Nat) :
    now ≤ (run s settings request timeout cancel w now).finished := by
  by_cases h : request.persistTo = .zero ∧ request.replicateTo = .zero
  · rw [run_of_trivial s settings timeout cancel w now h]
    exact Nat.le_refl now
  · rw [run_eq s settings timeout cancel w now h]
    exact le_finished s _ _ w now

/-- A poll that is confirmed is confirmed with each requirement that is no larger, in the same
surroundings: with the same rounds, of which it may need fewer, and no later. -/
theorem confirmed_of_weaker (s : Surroundings W) (settings : PollSettings)
    (request : DurabilityRequest) (timeout : Option Duration) (cancel : Cancellation) (w : W)
    (now : Nat) {persistTo : PersistTo} {replicateTo : ReplicateTo}
    (hpersist : persistTo.count ≤ request.persistTo.count)
    (hreplicate : replicateTo.count ≤ request.replicateTo.count)
    (hok : (run s settings request timeout cancel w now).answer = some (.ok ())) :
    let strong := run s settings request timeout cancel w now
    let weak := run s settings (request.requiring persistTo replicateTo) timeout cancel w now
    weak.answer = some (.ok ()) ∧ weak.rounds <+: strong.rounds ∧
      weak.finished ≤ strong.finished := by
  intro strong weak
  by_cases hweak : persistTo = .zero ∧ replicateTo = .zero
  · -- nothing to wait for, however long the other poll takes
    have hreport : weak = .answered (.ok ()) w now :=
      run_of_trivial s settings timeout cancel w now hweak
    rw [hreport]
    exact ⟨rfl, List.nil_prefix, run_le_finished s settings request timeout cancel w now⟩
  · have hrequest : ¬ (request.persistTo = .zero ∧ request.replicateTo = .zero) := fun h =>
      hweak ⟨PersistTo.eq_zero_of_count_le hpersist h.1,
        ReplicateTo.eq_zero_of_count_le hreplicate h.2⟩
    have hstrong : strong = rounds s (job settings request timeout cancel now)
        (settings.roundsWithin timeout) w now :=
      run_eq s settings timeout cancel w now hrequest
    have hreport : weak = rounds s
        ((job settings request timeout cancel now).requiring persistTo replicateTo)
        (settings.roundsWithin timeout) w now :=
      run_eq s settings timeout cancel w now hweak
    rw [hreport, hstrong]
    apply rounds_requiring hpersist hreplicate
    rw [← hstrong]
    exact hok

-- One of two replies is enough for the weaker poll, and the other one needs a second round.
theorem confirmed_of_weaker_replicated :
    let request := { pairRequest with replicateTo := .one }
    let strong := run slowPair pairSettings request none .never 0 0
    let weak := run slowPair pairSettings (request.requiring .zero .one) none .never 0 0
    PersistTo.zero.count ≤ request.persistTo.count ∧
      ReplicateTo.one.count ≤ request.replicateTo.count ∧
      strong.answer = some (.ok ()) ∧ strong.rounds.length = 2 ∧
      weak.answer = some (.ok ()) ∧ weak.rounds.length = 1 ∧ weak.rounds <+: strong.rounds ∧
      weak.finished ≤ strong.finished := by
  intro request strong weak
  have hpersist : PersistTo.zero.count ≤ request.persistTo.count := by decide
  have hreplicate : ReplicateTo.one.count ≤ request.replicateTo.count := by decide
  have hok : strong.answer = some (.ok ()) := by decide +kernel
  obtain ⟨hanswer, hprefix, hfinished⟩ :=
    confirmed_of_weaker slowPair pairSettings request none .never 0 0 hpersist hreplicate hok
  have htwo : strong.rounds.length = 2 := by decide +kernel
  have hone : weak.rounds.length = 1 := by decide +kernel
  exact ⟨hpersist, hreplicate, hok, htwo, hanswer, hone, hprefix, hfinished⟩

end Poll

end ClusterClient
