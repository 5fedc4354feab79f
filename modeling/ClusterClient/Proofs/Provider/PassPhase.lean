import ClusterClient.Proofs.Provider.Refreshing
import ClusterClient.Proofs.Provider.Revisions
import Mathlib.Data.List.Induction
/-!
# The phase that a pass leaves

A pass remembers whether there was a table when it began, and reads its phase off that and what it
has found. A table that others publish while it waits is not seen: if the pass then finds none, it
calls the provider failed while a table is in force.
-/

namespace ClusterClient

namespace System

variable {x : System} {s : Stage} {a : Action}

/-- The provider as a pass leaves it that ends in a step, before another one begins. -/
def leftByPass (x : System) : Action → Option Provider
  | .resume place result =>
    match x.jobs[place]? with
    | some (.refreshing hadTable a) => x.provider.afterPass? hadTable a result
    | _ => none
  | _ => none

theorem run_append (x : System) (as bs : List Action) : x.run (as ++ bs) = (x.run as).run bs :=
  List.foldl_append

theorem notes_append (x : System) (as bs : List Action) :
    x.notes (as ++ bs) = x.notes as ++ (x.run as).notes bs := by
  induction as generalizing x with
  | nil => rfl
  | cons a as ih =>
    rw [List.cons_append, notes, notes, ih, List.append_assoc]
    rfl

/-! ## Ends of passes -/

theorem leftByPass_cases {q : Provider} (h : x.leftByPass a = some q) :
    ∃ place result hadTable acquisition, a = .resume place result ∧
      x.jobs[place]? = some (.refreshing hadTable acquisition) ∧
      x.provider.afterPass? hadTable acquisition result = some q := by
  cases a with
  | resume place result =>
    simp only [leftByPass] at h
    split at h
    · rename_i hadTable acquisition hjob
      exact ⟨place, result, hadTable, acquisition, rfl, hjob, h⟩
    · cases h
  | _ => cases h

-- A pass ends where it is seen to end.
theorem ended_mem_noted_iff : .ended ∈ x.noted a ↔ (x.leftByPass a).isSome = true := by
  cases a with
  | resume place result =>
    cases hjob : x.jobs[place]? with
    | none =>
      simp only [noted, leftByPass, hjob]
      exact iff_of_false List.not_mem_nil Bool.false_ne_true
    | some job =>
      cases job with
      | queued =>
        simp only [noted, leftByPass, hjob, Provider.resume_queued]
        exact iff_of_false (by decide : .ended ∉ [Note.began]) Bool.false_ne_true
      | bootstrapping a =>
        simp only [noted, leftByPass, hjob, Job.noted_bootstrapping]
        exact iff_of_false List.not_mem_nil Bool.false_ne_true
      | refreshing hadTable a =>
        simp only [noted, leftByPass, hjob]
        have hstep := x.provider.resume_refreshing hadTable a result
        generalize x.provider.resume (.refreshing hadTable a) result = after at hstep ⊢
        cases hstep with
        | breaks hcrashed =>
          subst hcrashed
          exact iff_of_false (by decide : .ended ∉ [Note.broken]) Bool.false_ne_true
        | asks hnext hfailures hfound hafter =>
          rw [Job.noted_asks _ _ hfailures, hafter]
          exact iff_of_false List.not_mem_nil Bool.false_ne_true
        | @ends q hq hafter =>
          rw [Job.noted_endPass, hafter]
          exact iff_of_true List.mem_cons_self rfl
  | abort place =>
    refine iff_of_false ?_ Bool.false_ne_true
    simp only [noted]
    split <;> decide
  | signal =>
    refine iff_of_false ?_ Bool.false_ne_true
    simp only [noted, List.mem_singleton, reduceCtorEq, not_false_iff]
  | bootstrap => exact iff_of_false List.not_mem_nil Bool.false_ne_true
  | leave place => exact iff_of_false List.not_mem_nil Bool.false_ne_true
  | reconfigure text => exact iff_of_false List.not_mem_nil Bool.false_ne_true
  | mark address state => exact iff_of_false List.not_mem_nil Bool.false_ne_true

-- What the pass leaves is what the step goes on from, to another pass or to rest.
theorem step_of_leftByPass {q : Provider} (h : x.leftByPass a = some q) :
    (x.step a).provider = q.endPass.1 := by
  obtain ⟨place, result, hadTable, acquisition, rfl, hjob, hafter⟩ := leftByPass_cases h
  simp only [step, hjob, Provider.resume_of_afterPass? hafter]

/-! ## Beginnings of passes -/

theorem refreshing_mem_iff {hadTable : Bool} {acquisition : Acquisition} :
    .refreshing hadTable acquisition ∈ x.refreshes ↔ .refreshing hadTable acquisition ∈ x.jobs :=
  List.mem_filter.trans (and_iff_left rfl)

-- A pass that waits after a job has gone on has begun with it, and remembers whether there is a table
-- then, or it has waited before.
theorem resume_refreshing_mem {place : Nat} {job : Job} {hadTable : Bool} {a : Acquisition}
    (h : x.At s) (hjob : x.jobs[place]? = some job) (result : FetchResult) :
    let after := x.provider.resume job result
    .refreshing hadTable a ∈ refreshes ⟨after.1, replaced x.jobs place after.2⟩ →
      (.began ∈ job.noted after.2 ∧ after.1.table.isSome = hadTable) ∨
        (.began ∉ job.noted after.2 ∧ ∃ earlier, .refreshing hadTable earlier ∈ x.refreshes) := by
  intro after hmem
  cases job with
  | queued =>
    obtain ⟨-, hreplaced⟩ := h.only_refresh hjob rfl
    rw [hreplaced] at hmem
    cases List.mem_singleton.mp hmem
    exact .inl ⟨List.mem_singleton_self _, rfl⟩
  | bootstrapping b =>
    have hleft : after.2.left.filter (·.isRefresh) = [] := by
      have hstep := x.provider.resume_bootstrapping b result
      change Provider.BootstrapStep _ _ _ after at hstep
      clear_value after
      cases hstep <;> rfl
    rw [refreshes_replaced_of_not hjob rfl _ _ hleft] at hmem
    rw [Job.noted_bootstrapping]
    exact .inr ⟨List.not_mem_nil, a, hmem⟩
  | refreshing hadTable' b =>
    obtain ⟨honly, hreplaced⟩ := h.only_refresh hjob rfl
    rw [hreplaced] at hmem
    have hstep := x.provider.resume_refreshing hadTable' b result
    change Provider.PassStep _ _ _ _ after at hstep
    clear_value after
    cases hstep with
    | breaks => cases hmem
    | asks hnext hfailures =>
      rw [Job.noted_asks _ _ hfailures, honly]
      cases List.mem_singleton.mp hmem
      exact .inr ⟨List.not_mem_nil, b, List.mem_singleton_self _⟩
    | @ends q =>
      rw [Job.noted_endPass]
      cases hpending : q.isPending with
      | true =>
        rw [Provider.endPass_of_pending hpending] at hmem ⊢
        cases List.mem_singleton.mp hmem
        exact .inl ⟨by decide, rfl⟩
      | false =>
        rw [Provider.endPass_of_not_pending hpending] at hmem
        cases hmem

-- The same for any action: only a job that goes on lets a pass begin.
theorem step_refreshing_mem {hadTable : Bool} {acquisition : Acquisition} (h : x.At s)
    (hmem : .refreshing hadTable acquisition ∈ (x.step a).refreshes) :
    (.began ∈ x.noted a ∧ (x.step a).provider.table.isSome = hadTable) ∨
      (.began ∉ x.noted a ∧ ∃ earlier, .refreshing hadTable earlier ∈ x.refreshes) := by
  cases a with
  | resume place result =>
    cases hjob : x.jobs[place]? with
    | none =>
      simp only [noted, step, hjob] at hmem ⊢
      exact .inr ⟨List.not_mem_nil, _, hmem⟩
    | some job =>
      simp only [noted, step, hjob] at hmem ⊢
      exact resume_refreshing_mem h hjob result hmem
  | bootstrap =>
    refine .inr ⟨List.not_mem_nil, acquisition, refreshing_mem_iff.mpr ?_⟩
    rcases List.mem_append.mp (refreshing_mem_iff.mp hmem) with hmem | hmem
    · exact hmem
    · cases List.mem_singleton.mp hmem
  | signal =>
    have hnoted : .began ∉ x.noted .signal := by
      simp only [noted, List.mem_singleton, reduceCtorEq, not_false_iff]
    refine .inr ⟨hnoted, acquisition, refreshing_mem_iff.mpr ?_⟩
    have hjobs := refreshing_mem_iff.mp hmem
    simp only [step] at hjobs
    split at hjobs
    · rcases List.mem_append.mp hjobs with hjobs | hjobs
      · exact hjobs
      · cases List.mem_singleton.mp hjobs
    · exact hjobs
  | leave place =>
    refine .inr ⟨List.not_mem_nil, acquisition, refreshing_mem_iff.mpr ?_⟩
    have hjobs := refreshing_mem_iff.mp hmem
    simp only [step] at hjobs
    split at hjobs
    · exact List.mem_of_mem_eraseIdx hjobs
    · exact hjobs
  | abort place =>
    refine .inr ⟨?_, acquisition, refreshing_mem_iff.mpr ?_⟩
    · simp only [noted]
      split <;> decide
    · have hjobs := refreshing_mem_iff.mp hmem
      simp only [step] at hjobs
      split at hjobs
      · exact List.mem_of_mem_eraseIdx hjobs
      · exact hjobs
  | reconfigure text =>
    refine .inr ⟨List.not_mem_nil, acquisition, ?_⟩
    simp only [step] at hmem
    split at hmem <;> exact hmem
  | mark address state =>
    refine .inr ⟨List.not_mem_nil, acquisition, ?_⟩
    simp only [step] at hmem
    split at hmem <;> exact hmem

/-- A run up to now, taken apart where a pass began that has not been followed by another one. -/
structure LastBegan (x : System) (as before : List Action) (a : Action) (after : List Action) :
    Prop where
  run : as = before ++ a :: after
  began : .began ∈ (x.run before).noted a
  last : .began ∉ ((x.run before).step a).notes after

-- A pass that waits has begun, and remembers whether there was a table then.
theorem lastBegan_of_refreshing (hx : x.At .rest) {as : List Action} {hadTable : Bool}
    {acquisition : Acquisition} (h : .refreshing hadTable acquisition ∈ (x.run as).refreshes) :
    ∃ before a after, x.LastBegan as before a after ∧
      ((x.run before).step a).provider.table.isSome = hadTable := by
  induction as using List.reverseRecOn generalizing acquisition with
  | nil =>
    rw [show x.run [] = x from rfl, hx.2.2] at h
    cases h
  | append_singleton as b ih =>
    obtain ⟨s, -, hs⟩ := run_at hx as
    rw [run_append] at h
    rcases step_refreshing_mem hs h with ⟨hbegan, htable⟩ | ⟨hnot, earlier, hearlier⟩
    · exact ⟨as, b, [], ⟨rfl, hbegan, List.not_mem_nil⟩, htable⟩
    · obtain ⟨before, a, after, hlast, htable⟩ := ih hearlier
      refine ⟨before, a, after ++ [b], ⟨?_, hlast.began, ?_⟩, htable⟩
      · rw [hlast.run, List.append_assoc, List.cons_append]
      · rw [notes_append, List.mem_append, not_or]
        refine ⟨hlast.last, ?_⟩
        have hrun : ((x.run before).step a).run after = x.run as := by
          rw [hlast.run, run_append]
          rfl
        rw [hrun, notes, notes, List.append_nil]
        exact hnot

/-- A pass that ends leaves the provider ready if there was a table when the pass began or it has
found one, and failed otherwise. So its phase tells whether a table is in force, except after a pass
that began without a table and found none while another one was published. -/
theorem pass_phase_iff (maxReplicas : Nat) (binaryReports httpReports : Source)
    (as : List Action) (a : Action) :
    let start := start maxReplicas binaryReports httpReports
    let x := start.run as
    (.ended ∈ x.noted a ↔ (x.leftByPass a).isSome = true) ∧
      ∀ q, x.leftByPass a = some q → (x.step a).provider = q.endPass.1 ∧
        ∃ before began after, start.LastBegan as before began after ∧
          let hadTable := ((start.run before).step began).provider.table.isSome
          q.phase = Provider.phaseAfter hadTable (x.offered a).isSome ∧
            ((q.phase = if q.table.isSome then .ready else .failed) ↔
              ¬ (hadTable = false ∧ x.offered a = none ∧ q.table.isSome = true)) := by
  intro start x
  refine ⟨ended_mem_noted_iff, fun q hq => ⟨step_of_leftByPass hq, ?_⟩⟩
  obtain ⟨place, result, hadTable, acquisition, rfl, hjob, hafter⟩ := leftByPass_cases hq
  have hstart : start.At .rest := start_at maxReplicas binaryReports httpReports
  obtain ⟨before, began, after, hlast, htable⟩ := lastBegan_of_refreshing hstart
    (refreshing_mem_iff.mpr (List.mem_of_getElem? hjob))
  refine ⟨before, began, after, hlast, ?_⟩
  rw [htable]
  -- a table that was there when the pass began has not gone away
  have hkept : hadTable = true → x.provider.table.isSome = true := by
    intro hhad
    have hrun : x = ((start.run before).step began).run after := by
      rw [show x = start.run as from rfl, hlast.run, run_append]
      rfl
    rw [hrun]
    exact isSome_table_run after (htable.trans hhad)
  obtain ⟨t, hfound, rfl⟩ | ⟨hfound, rfl⟩ := Provider.afterPass?_cases hafter
  · have hoffered : x.offered (.resume place result) = some t := by
      simp only [offered, hjob, hfound]
    have htaken := (x.provider.acceptRefreshed_weighs t (x.provider.reported acquisition.asked)
      (Provider.phaseAfter hadTable true)).isSome_table
    simp only [hoffered, htaken, Option.isSome_some, Provider.phaseAfter, Bool.or_true, if_true,
      reduceCtorEq, false_and, and_false, not_false_eq_true, and_self]
  · have hoffered : x.offered (.resume place result) = none := by
      simp only [offered, hjob, hfound]
    refine ⟨by rw [hoffered]; rfl, ?_⟩
    cases hadTable with
    | true =>
      simp only [hkept rfl, Provider.phaseAfter, Bool.true_or, if_true, reduceCtorEq, false_and,
        not_false_eq_true]
    | false =>
      cases hnow : x.provider.table.isSome with
      | true => simp [hoffered, Provider.phaseAfter]
      | false => simp [Provider.phaseAfter]

/-- A pass begins without a table, and one is pushed while it waits for its first source. -/
def racedRun : List Action :=
  [.signal, .resume 0 (.failed .noResponse), .reconfigure (soloText "4")]

-- The pass finds a table as well, and leaves the provider ready.
theorem pass_phase_ready :
    let x := (start 3 .binary .http).run racedRun
    let finds := .resume 0 (.descriptors [⟨"h", soloText "7"⟩])
    ∃ q, x.leftByPass finds = some q ∧ (x.step finds).provider = q.endPass.1 ∧
      q.phase = .ready := by
  intro x finds
  have hoffered : x.offered finds = some (soloTable 7) := by decide +kernel
  have hleft : (x.leftByPass finds).isSome = true := by decide +kernel
  obtain ⟨q, hq⟩ := Option.isSome_iff_exists.mp hleft
  obtain ⟨hstep, before, began, after, hlast, hphase, -⟩ :=
    (pass_phase_iff 3 .binary .http racedRun finds).2 q hq
  refine ⟨q, hq, hstep, ?_⟩
  rw [hphase]
  show Provider.phaseAfter _ (x.offered finds).isSome = .ready
  rw [hoffered, Option.isSome_some, Provider.phaseAfter, Bool.or_true]
  rfl

-- Both sources fail the pass, and it calls the provider failed that serves the pushed table.
theorem pass_phase_failed_with_table :
    ¬ ∀ as a q, ((start 3 .binary .http).run as).leftByPass a = some q →
      (q.phase = .ready ↔ q.table.isSome = true) := by
  intro h
  let asks := Action.resume 0 (.failed .noResponse)
  have hleft : (((start 3 .binary .http).run (racedRun ++ [asks])).leftByPass asks).map
      (fun q => (q.phase, q.table.isSome)) = some (.failed, true) := by decide +kernel
  obtain ⟨q, hq, hfailed⟩ := Option.map_eq_some_iff.mp hleft
  obtain ⟨hphase, htable⟩ := Prod.mk.inj hfailed
  have hready := (h _ _ q hq).mpr htable
  cases hphase.symm.trans hready

end System

end ClusterClient
