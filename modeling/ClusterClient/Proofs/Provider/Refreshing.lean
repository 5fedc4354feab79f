import ClusterClient.Proofs.Provider.RefreshCycle
import ClusterClient.Proofs.Provider.System
/-!
# Refreshes of a provider

Whatever its users do, the refreshes of a provider go through the cycle of `Stage`: each action is a
move of it or leaves it alone. What holds of the cycle therefore holds of the provider.
-/

namespace ClusterClient

/-! ## What can be seen of an action -/

/-- What can be seen of a job that goes on. An acquisition without failures has only just begun, and
a new pass with it. -/
def Job.noted : Job → Progress → List Note
  | queued, .waits _ => [.began]
  | refreshing _ _, .waits (.refreshing _ a) => if a.failures.isEmpty then [.ended, .began] else []
  | refreshing _ _, .refreshed => [.ended, .finished]
  | refreshing _ _, .crashed => [.broken]
  | _, _ => []

/-- No source breaks down and no refresh is aborted. -/
def Action.Calm : Action → Prop
  | resume _ result => result ≠ .crashed
  | abort _ => False
  | _ => True

/-- What is left of a job that has gone on. -/
def Progress.left : Progress → List Job
  | waits job => [job]
  | _ => []

namespace Job

theorem noted_bootstrapping (a : Acquisition) (progress : Progress) :
    (bootstrapping a).noted progress = [] := by
  cases progress <;> rfl

-- A pass that asks its next source has had a failure, so that it is seen not to be a new one.
theorem noted_asks (hadTable : Bool) (a : Acquisition) {source : Source} {rest : List Source}
    {failures : List Failure} (h : failures ≠ []) :
    (refreshing hadTable a).noted (.waits (.refreshing hadTable ⟨source, rest, failures⟩)) =
      [] := by
  simp only [noted, List.isEmpty_iff, h, if_false]

theorem noted_endPass (hadTable : Bool) (a : Acquisition) (p : Provider) :
    (refreshing hadTable a).noted p.endPass.2 =
      [.ended, if p.isPending then .began else .finished] := by
  cases hpending : p.isPending with
  | true => rw [Provider.endPass_of_pending hpending]; rfl
  | false => rw [Provider.endPass_of_not_pending hpending]; rfl

end Job

namespace System

/-- What can be seen of refreshes in an action. -/
def noted (x : System) : Action → List Note
  | .signal => [.signal x.provider.signalOutdated.2]
  | .resume place result =>
    match x.jobs[place]? with
    | some job => job.noted (x.provider.resume job result).2
    | none => []
  | .abort place => if x.jobs[place]?.any (·.isRefresh) then [.broken] else []
  | _ => []

/-- What can be seen of refreshes in a run. -/
def notes (x : System) : List Action → List Note
  | [] => []
  | a :: as => x.noted a ++ (x.step a).notes as

-- A refresh goes on in the action.
def goesOn (x : System) : Action → Bool
  | .resume place _ => x.jobs[place]?.any (·.isRefresh)
  | _ => false

/-- How often a refresh goes on in a run. -/
def turns (x : System) : List Action → Nat
  | [] => 0
  | a :: as => (x.goesOn a).toNat + (x.step a).turns as

/-! ## Jobs that come and go -/

theorem replaced_eq {jobs : List Job} {place : Nat} (h : place < jobs.length)
    (progress : Progress) :
    replaced jobs place progress =
      jobs.take place ++ progress.left ++ jobs.drop (place + 1) := by
  cases progress with
  | waits job =>
    show jobs.set place job = _
    rw [List.set_eq_take_append_cons_drop, if_pos h, List.append_assoc]
    rfl
  | _ =>
    show jobs.eraseIdx place = _
    rw [List.eraseIdx_eq_take_drop_succ]
    simp only [Progress.left, List.append_nil]

-- Of the refreshes only the job that goes on changes.
theorem filter_replaced {jobs : List Job} {place : Nat} {job : Job} (h : jobs[place]? = some job) :
    ∃ before after, jobs.filter (·.isRefresh) = before ++ [job].filter (·.isRefresh) ++ after ∧
      ∀ progress, (replaced jobs place progress).filter (·.isRefresh) =
        before ++ progress.left.filter (·.isRefresh) ++ after := by
  obtain ⟨hlt, hget⟩ := List.getElem?_eq_some_iff.mp h
  refine ⟨(jobs.take place).filter (·.isRefresh), (jobs.drop (place + 1)).filter (·.isRefresh),
    ?_, fun progress => ?_⟩
  · have hjobs : jobs = jobs.take place ++ [job] ++ jobs.drop (place + 1) := by
      rw [← hget, List.append_assoc, List.singleton_append, ← List.drop_eq_getElem_cons hlt,
        List.take_append_drop]
    conv_lhs => rw [hjobs]
    rw [List.filter_append, List.filter_append]
  · rw [replaced_eq hlt, List.filter_append, List.filter_append]

-- A job that is no refresh goes on without one.
theorem refreshes_replaced_of_not {x : System} {place : Nat} {job : Job}
    (h : x.jobs[place]? = some job) (hjob : job.isRefresh = false) (p : Provider)
    (progress : Progress) (hleft : progress.left.filter (·.isRefresh) = []) :
    refreshes ⟨p, replaced x.jobs place progress⟩ = x.refreshes := by
  obtain ⟨before, after, hjobs, hreplaced⟩ := filter_replaced h
  rw [refreshes, refreshes, hreplaced, hjobs, hleft, List.filter_singleton, hjob]
  rfl

/-! ## The provider in the cycle -/

/-- Where the refreshes of a provider stand. -/
def At (x : System) : Stage → Prop
  | .rest => x.provider.isRefreshing = false ∧ x.provider.isPending = false ∧ x.refreshes = []
  | .queued p =>
    x.provider.isRefreshing = true ∧ x.provider.isPending = p ∧ x.refreshes = [.queued]
  | .passing n p =>
    x.provider.isRefreshing = true ∧ x.provider.isPending = p ∧
      ∃ hadTable a, x.refreshes = [.refreshing hadTable a] ∧ a.next.length = n
  | .lost p => x.provider.isRefreshing = true ∧ x.provider.isPending = p ∧ x.refreshes = []

variable {x y : System} {s : Stage}

theorem At.congr (h : x.At s) (hrefreshing : y.provider.isRefreshing = x.provider.isRefreshing)
    (hpending : y.provider.isPending = x.provider.isPending) (hjobs : y.refreshes = x.refreshes) :
    y.At s := by
  cases s with
  | rest => exact ⟨hrefreshing.trans h.1, hpending.trans h.2.1, hjobs.trans h.2.2⟩
  | queued p => exact ⟨hrefreshing.trans h.1, hpending.trans h.2.1, hjobs.trans h.2.2⟩
  | lost p => exact ⟨hrefreshing.trans h.1, hpending.trans h.2.1, hjobs.trans h.2.2⟩
  | passing n p =>
    obtain ⟨hr, hp, hadTable, a, ha, hn⟩ := h
    exact ⟨hrefreshing.trans hr, hpending.trans hp, hadTable, a, hjobs.trans ha, hn⟩

theorem At.refreshes_iff (h : x.At s) : x.refreshes = [] ↔ s.isLive = false := by
  cases s with
  | rest => exact iff_of_true h.2.2 rfl
  | lost p => exact iff_of_true h.2.2 rfl
  | queued p =>
    rw [h.2.2]
    exact iff_of_false (List.cons_ne_nil _ _) nofun
  | passing n p =>
    obtain ⟨-, -, hadTable, a, ha, -⟩ := h
    rw [ha]
    exact iff_of_false (List.cons_ne_nil _ _) nofun

theorem At.length_refreshes (h : x.At s) : x.refreshes.length ≤ 1 := by
  cases s with
  | rest => rw [h.2.2]; decide
  | lost p => rw [h.2.2]; decide
  | queued p => rw [h.2.2]; decide
  | passing n p =>
    obtain ⟨-, -, hadTable, a, ha, -⟩ := h
    rw [ha]
    exact Nat.le_refl 1

-- A signal starts a refresh at rest only; after one has broken off, the provider is not at rest.
theorem At.signal_iff (h : x.At s) : x.provider.signalOutdated.2 = true ↔ s = .rest := by
  have hanswer : x.provider.signalOutdated.2 = !x.provider.isRefreshing := by
    unfold Provider.signalOutdated
    cases x.provider.isRefreshing <;> rfl
  rw [hanswer]
  cases s with
  | rest => simp only [h.1, Bool.not_false]
  | queued p => simp only [h.1, Bool.not_true, Bool.false_eq_true, reduceCtorEq]
  | passing n p => simp only [h.1, Bool.not_true, Bool.false_eq_true, reduceCtorEq]
  | lost p => simp only [h.1, Bool.not_true, Bool.false_eq_true, reduceCtorEq]

-- A refresh in a place is the only one, and after it has gone on what is left of it is.
theorem At.only_refresh {place : Nat} {job : Job} (h : x.At s) (hjob : x.jobs[place]? = some job)
    (hrefresh : job.isRefresh = true) :
    x.refreshes = [job] ∧ ∀ p progress,
      refreshes ⟨p, replaced x.jobs place progress⟩ = progress.left.filter (·.isRefresh) := by
  obtain ⟨before, after, hjobs, hreplaced⟩ := filter_replaced hjob
  rw [List.filter_singleton, hrefresh, cond_true] at hjobs
  have hlength := h.length_refreshes
  rw [refreshes, hjobs, List.length_append, List.length_append, List.length_singleton] at hlength
  have hbefore : before = [] := List.eq_nil_of_length_eq_zero (by omega)
  have hafter : after = [] := List.eq_nil_of_length_eq_zero (by omega)
  subst hbefore hafter
  refine ⟨hjobs, fun p progress => ?_⟩
  rw [refreshes, hreplaced, List.nil_append, List.append_nil]

theorem At.eq_queued (h : x.At s) (hjobs : x.refreshes = [.queued]) : ∃ p, s = .queued p := by
  cases s with
  | queued p => exact ⟨p, rfl⟩
  | rest => cases h.2.2.symm.trans hjobs
  | lost p => cases h.2.2.symm.trans hjobs
  | passing n p =>
    obtain ⟨-, -, hadTable, a, ha, -⟩ := h
    cases ha.symm.trans hjobs

theorem At.eq_passing {hadTable : Bool} {a : Acquisition} (h : x.At s)
    (hjobs : x.refreshes = [.refreshing hadTable a]) : ∃ p, s = .passing a.next.length p := by
  cases s with
  | queued p => cases h.2.2.symm.trans hjobs
  | rest => cases h.2.2.symm.trans hjobs
  | lost p => cases h.2.2.symm.trans hjobs
  | passing n p =>
    obtain ⟨-, -, hadTable', a', ha, hn⟩ := h
    cases ha.symm.trans hjobs
    exact ⟨p, by rw [hn]⟩

/-! ## Steps of a job -/

-- A bootstrap leaves the cycle alone.
theorem resume_bootstrap_at {place : Nat} {a : Acquisition} (h : x.At s)
    (hjob : x.jobs[place]? = some (.bootstrapping a)) (result : FetchResult) :
    (Job.bootstrapping a).noted (x.provider.resume (.bootstrapping a) result).2 = [] ∧
      At ⟨(x.provider.resume (.bootstrapping a) result).1,
        replaced x.jobs place (x.provider.resume (.bootstrapping a) result).2⟩ s := by
  have hstep := x.provider.resume_bootstrapping a result
  generalize x.provider.resume (.bootstrapping a) result = after at hstep ⊢
  have hbootstrap : after.1.isRefreshing = x.provider.isRefreshing ∧
      after.1.isPending = x.provider.isPending ∧ after.2.left.filter (·.isRefresh) = [] := by
    cases hstep with
    | breaks => exact ⟨rfl, rfl, rfl⟩
    | asks b => exact ⟨rfl, rfl, rfl⟩
    | ends hq answer => exact ⟨hq.isRefreshing, hq.isPending, rfl⟩
  obtain ⟨hrefreshing, hpending, hleft⟩ := hbootstrap
  have hrefreshes := refreshes_replaced_of_not hjob rfl after.1 after.2 hleft
  exact ⟨Job.noted_bootstrapping a _, h.congr hrefreshing hpending hrefreshes⟩

-- A pass breaks off, asks its next source, or ends; in the end only a remembered signal tells
-- whether another one follows.
theorem resume_pass_at {place : Nat} {hadTable : Bool} {a : Acquisition} (h : x.At s)
    (hjob : x.jobs[place]? = some (.refreshing hadTable a)) (result : FetchResult) :
    ∃ u, Stage.Move s true
        ((Job.refreshing hadTable a).noted (x.provider.resume (.refreshing hadTable a) result).2) u ∧
      At ⟨(x.provider.resume (.refreshing hadTable a) result).1,
        replaced x.jobs place (x.provider.resume (.refreshing hadTable a) result).2⟩ u := by
  obtain ⟨honly, hreplaced⟩ := h.only_refresh hjob rfl
  obtain ⟨p, rfl⟩ := h.eq_passing honly
  obtain ⟨hrefreshing, hpending, -⟩ := h
  have hstep := x.provider.resume_refreshing hadTable a result
  generalize x.provider.resume (.refreshing hadTable a) result = after at hstep ⊢
  cases hstep with
  | breaks => exact ⟨_, .breaksPass true _ p, hrefreshing, hpending, hreplaced _ _⟩
  | @asks source rest failures hnext hfailures =>
    show ∃ u, Stage.Move _ true ((Job.refreshing hadTable a).noted _) u ∧ _
    rw [hnext, Job.noted_asks hadTable a hfailures]
    exact ⟨_, .asks rest.length p, hrefreshing, hpending, _, _, hreplaced _ _, rfl⟩
  | @ends q hq =>
    have hq' := hq.isPending.trans hpending
    cases p with
    | true =>
      rw [Provider.endPass_of_pending hq']
      exact ⟨_, .again _, hq.isRefreshing.trans hrefreshing, rfl, _, _, hreplaced _ _, rfl⟩
    | false =>
      rw [Provider.endPass_of_not_pending hq']
      exact ⟨_, .finishes _, rfl, hq', hreplaced _ _⟩

theorem resume_at {place : Nat} {job : Job} (h : x.At s) (hjob : x.jobs[place]? = some job)
    (result : FetchResult) :
    ∃ u, Stage.Move s job.isRefresh (job.noted (x.provider.resume job result).2) u ∧
      At ⟨(x.provider.resume job result).1,
        replaced x.jobs place (x.provider.resume job result).2⟩ u := by
  cases job with
  | bootstrapping a =>
    obtain ⟨hnoted, hafter⟩ := resume_bootstrap_at h hjob result
    rw [hnoted]
    exact ⟨s, .idle s, hafter⟩
  | queued =>
    obtain ⟨honly, hreplaced⟩ := h.only_refresh hjob rfl
    obtain ⟨p, rfl⟩ := h.eq_queued honly
    rw [Provider.resume_queued]
    exact ⟨_, .begins p, h.1, rfl, _, _, hreplaced _ _, rfl⟩
  | refreshing hadTable a => exact resume_pass_at h hjob result

/-! ## Steps and runs -/

theorem signal_at (h : x.At s) :
    ∃ u, Stage.Move s false [.signal x.provider.signalOutdated.2] u ∧ (x.step .signal).At u := by
  cases s with
  | rest =>
    obtain ⟨hrefreshing, hpending, hjobs⟩ := h
    have hsignal : x.provider.signalOutdated =
        ({ x.provider with isRefreshing := true }, true) := by
      unfold Provider.signalOutdated
      rw [if_neg (by rw [hrefreshing]; decide)]
    simp only [step, hsignal]
    refine ⟨_, .starts, rfl, hpending, ?_⟩
    show (x.jobs ++ [Job.queued]).filter Job.isRefresh = _
    rw [List.filter_append]
    exact congrArg (· ++ [Job.queued]) hjobs
  | queued p =>
    obtain ⟨hrefreshing, -, hjobs⟩ := h
    simp only [step, Provider.signalOutdated, if_pos hrefreshing]
    exact ⟨_, .joinsQueued p, hrefreshing, rfl, hjobs⟩
  | passing n p =>
    obtain ⟨hrefreshing, -, hjobs⟩ := h
    simp only [step, Provider.signalOutdated, if_pos hrefreshing]
    exact ⟨_, .joinsPass n p, hrefreshing, rfl, hjobs⟩
  | lost p =>
    obtain ⟨hrefreshing, -, hjobs⟩ := h
    simp only [step, Provider.signalOutdated, if_pos hrefreshing]
    exact ⟨_, .unheard p, hrefreshing, rfl, hjobs⟩

-- A refresh breaks off where it is aborted.
theorem abort_at {place : Nat} {job : Job} (h : x.At s) (hjob : x.jobs[place]? = some job)
    (hrefresh : job.isRefresh = true) :
    ∃ u, Stage.Move s false [.broken] u ∧ At ⟨x.provider, replaced x.jobs place .crashed⟩ u := by
  obtain ⟨honly, hreplaced⟩ := h.only_refresh hjob hrefresh
  cases s with
  | rest => cases h.2.2.symm.trans honly
  | lost p => cases h.2.2.symm.trans honly
  | queued p => exact ⟨_, .breaksQueued false p, h.1, h.2.1, hreplaced _ _⟩
  | passing n p => exact ⟨_, .breaksPass false n p, h.1, h.2.1, hreplaced _ _⟩

-- An action is a move of the cycle.
theorem step_at (h : x.At s) (a : Action) :
    ∃ u, Stage.Move s (x.goesOn a) (x.noted a) u ∧ (x.step a).At u := by
  cases a with
  | bootstrap =>
    refine ⟨s, .idle s, h.congr rfl rfl ?_⟩
    show (x.jobs ++ [_]).filter Job.isRefresh = _
    rw [List.filter_append]
    exact List.append_nil _
  | signal => exact signal_at h
  | resume place result =>
    cases hjob : x.jobs[place]? with
    | none =>
      simp only [goesOn, noted, step, hjob]
      exact ⟨s, .idle s, h⟩
    | some job =>
      simp only [goesOn, noted, step, hjob]
      exact resume_at h hjob result
  | leave place =>
    refine ⟨s, .idle s, ?_⟩
    simp only [step]
    split
    · rename_i hleaves
      obtain ⟨job, hjob, hr⟩ := (Option.any_eq_true _ _).mp hleaves
      rw [Bool.not_eq_true'] at hr
      have hrefreshes := refreshes_replaced_of_not hjob hr x.provider .crashed rfl
      exact h.congr rfl rfl hrefreshes
    · exact h
  | abort place =>
    simp only [goesOn, noted, step]
    split
    · rename_i haborts
      obtain ⟨job, hjob, hr⟩ := (Option.any_eq_true _ _).mp haborts
      exact abort_at h hjob hr
    · exact ⟨s, .idle s, h⟩
  | reconfigure text =>
    refine ⟨s, .idle s, ?_⟩
    simp only [step]
    split
    · rename_i hreconfigure
      obtain ⟨-, rfl⟩ := Provider.reconfigure_spec hreconfigure
      exact h.congr rfl rfl rfl
    · exact h
  | mark address state =>
    refine ⟨s, .idle s, ?_⟩
    simp only [step]
    split
    · rename_i hmark
      obtain ⟨t, -, rfl⟩ := Option.map_eq_some_iff.mp hmark
      exact h.congr rfl rfl rfl
    · exact h

theorem run_at (h : x.At s) (as : List Action) :
    ∃ u, Stage.Moves s (x.turns as) (x.notes as) u ∧ (x.run as).At u := by
  induction as generalizing x s with
  | nil => exact ⟨s, .nil s, h⟩
  | cons a as ih =>
    obtain ⟨v, head, hv⟩ := step_at h a
    obtain ⟨u, tail, hu⟩ := ih hv
    exact ⟨u, .cons head tail, hu⟩

theorem start_at (maxReplicas : Nat) (binaryReports httpReports : Source) :
    (start maxReplicas binaryReports httpReports).At .rest := ⟨rfl, rfl, rfl⟩

/-! ## Calm runs -/

-- A job whose source does not break down does not break off.
theorem broken_not_mem_noted_job {p : Provider} {job : Job} {result : FetchResult}
    (hresult : result ≠ .crashed) : .broken ∉ job.noted (p.resume job result).2 := by
  cases job with
  | queued =>
    show .broken ∉ [Note.began]
    decide
  | bootstrapping a =>
    rw [Job.noted_bootstrapping]
    exact List.not_mem_nil
  | refreshing hadTable a =>
    have hstep := p.resume_refreshing hadTable a result
    generalize p.resume (.refreshing hadTable a) result = after at hstep ⊢
    cases hstep with
    | breaks hcrashed => exact absurd hcrashed hresult
    | asks hnext hfailures =>
      rw [Job.noted_asks hadTable a hfailures]
      exact List.not_mem_nil
    | ends =>
      rw [Job.noted_endPass]
      split <;> decide

theorem broken_not_mem_noted {a : Action} (ha : a.Calm) : .broken ∉ x.noted a := by
  cases a with
  | abort place => cases ha
  | resume place result =>
    simp only [noted]
    split
    · exact broken_not_mem_noted_job ha
    · exact List.not_mem_nil
  | signal => simp only [noted, List.mem_singleton, reduceCtorEq, not_false_iff]
  | bootstrap => exact List.not_mem_nil
  | leave place => exact List.not_mem_nil
  | reconfigure text => exact List.not_mem_nil
  | mark address state => exact List.not_mem_nil

theorem broken_not_mem_notes {as : List Action} (has : ∀ a ∈ as, a.Calm) :
    .broken ∉ x.notes as := by
  induction as generalizing x with
  | nil => exact List.not_mem_nil
  | cons a as ih =>
    rw [List.forall_mem_cons] at has
    rw [notes, List.mem_append, not_or]
    exact ⟨broken_not_mem_noted has.1, ih has.2⟩

/-! ## Signals -/

/-- In a run in which no source breaks down and no refresh is aborted, there is one refresh at most,
and a signal starts one exactly if there is none. A pass that begins after a signal is over before
the refresh has gone on four times. A refresh makes one pass, and one more for each during which a
signal came, and after it a signal starts the next one. -/
theorem calm_signals_served (maxReplicas : Nat) (binaryReports httpReports : Source)
    (as : List Action) (has : ∀ a ∈ as, a.Calm) :
    let start := start maxReplicas binaryReports httpReports
    let x := start.run as
    x.refreshes.length ≤ 1 ∧ (x.provider.signalOutdated.2 = false ↔ x.refreshes ≠ []) ∧
      (∀ bs : List Action, (∀ b ∈ bs, b.Calm) →
        let y := x.step .signal
        [.began, .ended].Sublist (y.notes bs) ∨ ((y.run bs).refreshes ≠ [] ∧ y.turns bs < 4)) ∧
      (∀ t ∈ (Chronicle.ofNotes (start.notes as)).past, t.IsCoalesced ∧
        t.passes.length = 1 + t.passes.countP (0 < ·)) ∧
      ∀ a, .finished ∈ x.noted a → (x.step a).provider.signalOutdated.2 = true := by
  intro start x
  obtain ⟨s, hmoves, hx⟩ := run_at (start_at maxReplicas binaryReports httpReports) as
  have hlost : s.isLost = false := by
    rw [← Bool.not_eq_true, hmoves.isLost_iff_of_rest]
    exact broken_not_mem_notes has
  have hstarts : x.provider.signalOutdated.2 = false ↔ x.refreshes ≠ [] := by
    rw [← Bool.not_eq_true, ne_eq, hx.signal_iff, hx.refreshes_iff, Stage.eq_rest_iff,
      and_iff_left hlost]
  refine ⟨hx.length_refreshes, hstarts, fun bs hbs => ?_, fun t ht => ?_, fun a ha => ?_⟩
  · obtain ⟨v, hsignal, hv⟩ := signal_at hx
    obtain ⟨u, hafter, hu⟩ := run_at hv bs
    obtain ⟨k, howed, hk⟩ := hsignal.owes hlost (hmoves.isBrief trivial)
    rcases hafter.pass_of_owed howed (broken_not_mem_notes hbs) with hpass | ⟨hlive, hturns⟩
    · exact .inl hpass
    · have hrefreshes : ((x.step .signal).run bs).refreshes ≠ [] := by
        rw [ne_eq, hu.refreshes_iff, Bool.not_eq_false, hlive]
      exact .inr ⟨hrefreshes, Nat.lt_of_lt_of_le hturns hk⟩
  · have hcoalesced := Chronicle.isCoalesced_of_mem_past hmoves t ht
    exact ⟨hcoalesced, hcoalesced.length_passes⟩
  · obtain ⟨u, hmove, hu⟩ := step_at hx a
    exact hu.signal_iff.mpr (hmove.eq_rest ha)

/-- Two signals come during the first pass of a refresh, and none during the second. -/
def coalescedRun : List Action :=
  let asks := .resume 0 (.failed .noResponse)
  [.signal, asks, .signal, .signal, asks, asks, asks, asks]

theorem calm_signals_served_coalesced :
    (∀ a ∈ coalescedRun, a.Calm) ∧
      (Chronicle.ofNotes ((start 3 .binary .http).notes coalescedRun)).past = [⟨[0, 2]⟩] ∧
      Task.IsCoalesced ⟨[0, 2]⟩ := by
  have hcalm : ∀ a ∈ coalescedRun, a.Calm := by
    simp only [coalescedRun, List.forall_mem_cons, Action.Calm, ne_eq, reduceCtorEq,
      not_false_iff, List.not_mem_nil, false_imp_iff, implies_true, and_self]
  have hpast : (Chronicle.ofNotes ((start 3 .binary .http).notes coalescedRun)).past =
      [⟨[0, 2]⟩] := by decide
  obtain ⟨-, -, -, hcoalesced, -⟩ := calm_signals_served 3 .binary .http coalescedRun hcalm
  refine ⟨hcalm, hpast, (hcoalesced ⟨[0, 2]⟩ ?_).1⟩
  rw [hpast]
  exact List.mem_singleton_self _

/-- A signal starts a refresh exactly if there is none and none has ever broken off. After one has
broken off, there are no refreshes any more, whatever happens. -/
theorem signal_starts_iff_unbroken (maxReplicas : Nat) (binaryReports httpReports : Source)
    (as : List Action) :
    let start := start maxReplicas binaryReports httpReports
    let x := start.run as
    (x.provider.signalOutdated.2 = true ↔ x.refreshes = [] ∧ .broken ∉ start.notes as) ∧
      (.broken ∈ start.notes as → ∀ bs,
        (x.run bs).refreshes = [] ∧ (x.run bs).provider.signalOutdated.2 = false) := by
  intro start x
  obtain ⟨s, hmoves, hx⟩ := run_at (start_at maxReplicas binaryReports httpReports) as
  have hbroken : s.isLost = true ↔ .broken ∈ start.notes as := hmoves.isLost_iff_of_rest
  refine ⟨?_, fun hnoted bs => ?_⟩
  · rw [hx.signal_iff, hx.refreshes_iff, Stage.eq_rest_iff, ← hbroken, Bool.not_eq_true]
  · obtain ⟨u, hafter, hu⟩ := run_at hx bs
    have hlost : u.isLost = true := hafter.isLost_iff.mpr (.inl (hbroken.mpr hnoted))
    refine ⟨hu.refreshes_iff.mpr (Stage.isLive_of_isLost hlost), ?_⟩
    rw [← Bool.not_eq_true, hu.signal_iff, Stage.eq_rest_iff, hlost]
    exact fun h => Bool.noConfusion h.2

/-- A source breaks down while a refresh waits for it: no refresh is left, and yet the next signal
starts none. -/
theorem signal_unheard_after_crash :
    ¬ ∀ as, ((start 3 .binary .http).run as).refreshes = [] →
      ((start 3 .binary .http).run as).provider.signalOutdated.2 = true := by
  intro h
  have hunheard := h [.signal, .resume 0 (.failed .noResponse), .resume 0 .crashed] (by decide)
  exact absurd hunheard (by decide)

end System

end ClusterClient
