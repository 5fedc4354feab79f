import ClusterClient.Proofs.Provider.Bootstrap
import ClusterClient.Proofs.Provider.Fruitless
/-!
# Where the table comes from

A provider remembers the source of the last table that was accepted from a fetch. A table that is
pushed takes over what is remembered, so that the binary source stands there while nothing but
pushed tables were accepted. The next pass of a refresh asks the remembered source first, and the
other one only after a failure.
-/

namespace ClusterClient

/-! ## What an action fetches -/

/-- The acquisition of a job that has asked a source. -/
def Job.acquisition? : Job → Option Acquisition
  | queued => none
  | refreshing _ a => some a
  | bootstrapping a => some a

namespace System

/-- The source that is asked in an action: that of the job that then waits. -/
def fetched (x : System) : Action → Option Source
  | .bootstrap => x.provider.beginBootstrap.2.asked
  | .resume place result =>
    match x.jobs[place]? with
    | some job => (x.provider.resume job result).2.left.head?.bind (·.asked)
    | none => none
  | _ => none

/-- What the attempt gave with which a job goes on in an action; nothing if its source broke
down. -/
def attempted (x : System) : Action → Option (Except AttemptError Table)
  | .resume place result =>
    (x.jobs[place]?.bind (·.acquisition?)).bind (x.provider.attempt · result)
  | _ => none

/-- The source of a table that is accepted from a fetch in an action: the job that goes on had asked
it, and a table is published. -/
def supplier? (x : System) (a : Action) : Option Source :=
  match a with
  | .resume place _ =>
    if (x.step a).provider.publications = x.provider.publications then none
    else x.jobs[place]?.bind (·.asked)
  | _ => none

/-- The sources of the tables that are accepted from fetches in a run. -/
def suppliers (x : System) : List Action → List Source
  | [] => []
  | a :: as => (x.supplier? a).toList ++ (x.step a).suppliers as

/-- A table is accepted from a fetch: a job goes on with what the source gave that it had asked, it
has found a table, and the table is published. -/
inductive Accepts (x : System) : Action → Source → Prop where
  | intro {place : Nat} {result : FetchResult} {job : Job} {source : Source} {t : Table}
      (hjob : x.jobs[place]? = some job) (hasked : job.asked = some source)
      (hfound : x.attempted (.resume place result) = some (.ok t))
      (htakes : x.provider.Takes t (x.step (.resume place result)).provider) :
      x.Accepts (.resume place result) source

end System

/-- The source that a piece of work asks in one of its moments. A pass that is over may be followed
by another one, whose first fetch is not its own. -/
def Moment.fetched (m : Moment) : Option Source :=
  if (m.system.leftByPass m.action).isSome then none else m.system.fetched m.action

/-- The first of the moments of a piece of work came with a failed attempt. -/
def FirstFailed (ms : List Moment) : Prop :=
  ∃ m e, ms.head? = some m ∧ m.system.attempted m.action = some (.error e)

/-! ## The source of the table -/

namespace Provider

variable {p q : Provider} {t : Table}

/-- What a job that goes on does to the table in force: it stays with its source, or the table that
was found takes its place, and the source that was asked with it. -/
inductive SourceStep (p : Provider) (asked : Option Source) (found : Option Table)
    (q : Provider) : Prop where
  | keeps (hkeeps : p.Keeps q)
  | takes {source : Source} {t : Table} (hasked : asked = some source) (hfound : found = some t)
      (htakes : p.Takes t q) (hsource : q.lastSource = some source)

theorem acceptRefreshed_source (p : Provider) (t : Table) (source : Source) (phase : Phase) :
    p.SourceStep (some source) (some t) { p.acceptRefreshed t source with phase } := by
  rw [acceptRefreshed]
  split
  · rename_i q hq
    rw [publishIfNewer_spec hq]
    exact .takes rfl rfl ⟨rfl, rfl⟩ rfl
  · exact .keeps ⟨rfl, rfl, rfl⟩

theorem SourceStep.keepsAfter {r : Provider} {asked : Option Source} {found : Option Table}
    (h : p.SourceStep asked found q) (hr : q.Keeps r) : p.SourceStep asked found r := by
  cases h with
  | keeps hkeeps => exact .keeps (hkeeps.trans hr)
  | takes hasked hfound htakes hsource =>
    exact .takes hasked hfound (htakes.keeps hr) (hr.lastSource.trans hsource)

theorem resume_sourceStep (hp : p.IsHonest) (job : Job) (result : FetchResult) :
    p.SourceStep job.asked (job.acquisition?.bind (p.found? · result)) (p.resume job result).1 := by
  cases job with
  | queued => exact .keeps ⟨rfl, rfl, rfl⟩
  | refreshing hadTable a =>
    have hstep := p.resume_refreshing hadTable a result
    generalize p.resume (.refreshing hadTable a) result = after at hstep ⊢
    cases hstep with
    | breaks => exact .keeps (.refl _)
    | asks => exact .keeps (.refl _)
    | @ends q _ hafter =>
      refine SourceStep.keepsAfter ?_ (keeps_endPass q)
      obtain ⟨t, hfound, rfl⟩ | ⟨-, rfl⟩ := afterPass?_cases hafter
      · rw [hp a.asked]
        show p.SourceStep (some a.asked) (p.found? a result) _
        rw [hfound]
        exact p.acceptRefreshed_source t a.asked _
      · exact .keeps ⟨rfl, rfl, rfl⟩
  | bootstrapping a =>
    have hstep := p.resume_bootstrapping a result
    generalize p.resume (.bootstrapping a) result = after at hstep ⊢
    cases hstep with
    | breaks => exact .keeps (.refl _)
    | asks => exact .keeps (.refl _)
    | ends _ _ hafter =>
      obtain ⟨t, hfound, rfl⟩ | ⟨-, rfl⟩ := hafter
      · rw [hp a.asked]
        exact .takes rfl hfound ⟨rfl, rfl⟩ rfl
      · exact .keeps ⟨rfl, rfl, rfl⟩

/-! ### Honest sources -/

theorem IsHonest.congr (hp : p.IsHonest) (h : q.reported = p.reported) : q.IsHonest :=
  fun source => (congrFun h source).trans (hp source)

theorem IsHonest.acceptRefreshed (hp : p.IsHonest) (t : Table) (source : Source) (phase : Phase) :
    IsHonest { p.acceptRefreshed t source with phase } := by
  rw [Provider.acceptRefreshed]
  split
  · rename_i q hq
    rw [publishIfNewer_spec hq]
    exact hp.congr rfl
  · exact hp.congr rfl

theorem IsHonest.endPass (hp : p.IsHonest) : p.endPass.1.IsHonest := by
  cases hpending : p.isPending with
  | true => rw [endPass_of_pending hpending]; exact hp.congr rfl
  | false => rw [endPass_of_not_pending hpending]; exact hp.congr rfl

theorem IsHonest.resume (hp : p.IsHonest) (job : Job) (result : FetchResult) :
    (p.resume job result).1.IsHonest := by
  cases job with
  | queued => exact hp.congr rfl
  | refreshing hadTable a =>
    have hstep := p.resume_refreshing hadTable a result
    generalize p.resume (.refreshing hadTable a) result = after at hstep ⊢
    cases hstep with
    | breaks => exact hp
    | asks => exact hp
    | ends _ hafter =>
      obtain ⟨t, -, rfl⟩ | ⟨-, rfl⟩ := afterPass?_cases hafter
      · exact (hp.acceptRefreshed t _ _).endPass
      · exact IsHonest.endPass (hp.congr rfl)
  | bootstrapping a =>
    have hstep := p.resume_bootstrapping a result
    generalize p.resume (.bootstrapping a) result = after at hstep ⊢
    cases hstep with
    | breaks => exact hp
    | asks => exact hp
    | ends _ _ hafter =>
      obtain ⟨t, -, rfl⟩ | ⟨-, rfl⟩ := hafter
      · exact hp.congr rfl
      · exact hp.congr rfl

end Provider

namespace System

variable {x : System} {a : Action}

theorem isHonest_step (hx : x.provider.IsHonest) (a : Action) : (x.step a).provider.IsHonest := by
  cases a with
  | bootstrap => exact hx.congr rfl
  | signal =>
    simp only [step, Provider.signalOutdated]
    split <;> exact hx.congr rfl
  | resume place result =>
    simp only [step]
    split
    · exact hx.resume _ result
    · exact hx
  | leave place =>
    simp only [step]
    split <;> exact hx
  | abort place =>
    simp only [step]
    split <;> exact hx
  | reconfigure text =>
    simp only [step]
    split
    · rename_i after hafter
      rw [(Provider.reconfigure_spec hafter).2]
      exact hx.congr rfl
    · exact hx
  | mark address state =>
    simp only [step]
    split
    · rename_i q hmark
      obtain ⟨t, -, rfl⟩ := Option.map_eq_some_iff.mp hmark
      exact hx.congr rfl
    · exact hx

/-- What an action does to the source that is remembered: the table in force stays and its source
with it, a table is accepted from a fetch, one is pushed, or a copy of the one in force is
published. -/
inductive SourceStep (x : System) (a : Action) (q : Provider) : Prop where
  | keeps (hsupplier : x.supplier? a = none) (hkeeps : x.provider.Keeps q)
  | accepts {source : Source} (hsupplier : x.supplier? a = some source)
      (haccepts : x.Accepts a source) (htable : q.table.isSome = true)
      (hsource : q.lastSource = some source)
  | pushed (hsupplier : x.supplier? a = none) (htable : q.table.isSome = true)
      (hsource : q.lastSource = some x.provider.preferred)
  | marks (hsupplier : x.supplier? a = none) (hold : x.provider.table.isSome = true)
      (htable : q.table.isSome = true) (hsource : q.lastSource = x.provider.lastSource)

theorem attempted_of_job {place : Nat} {job : Job} (hjob : x.jobs[place]? = some job)
    (result : FetchResult) :
    x.attempted (.resume place result) =
      job.acquisition?.bind (x.provider.attempt · result) := by
  simp only [attempted, hjob, Option.bind_some]

theorem found_eq_some_iff {job : Job} {p : Provider} {result : FetchResult} {t : Table} :
    job.acquisition?.bind (p.found? · result) = some t ↔
      job.acquisition?.bind (p.attempt · result) = some (.ok t) := by
  cases job.acquisition? with
  | none => exact iff_of_false (Option.some_ne_none _).symm (Option.some_ne_none _).symm
  | some a =>
    simp only [Option.bind_some, Provider.found?]
    cases p.attempt a result with
    | none => exact iff_of_false (Option.some_ne_none _).symm (Option.some_ne_none _).symm
    | some attempt =>
      cases attempt with
      | error e => simp only [Option.bind_some, Except.toOption, Option.some.injEq, reduceCtorEq]
      | ok u =>
        simp only [Option.bind_some, Except.toOption, Option.some.injEq, Except.ok.injEq]

theorem resume_sourceStep (hx : x.provider.IsHonest) (place : Nat) (result : FetchResult) :
    x.SourceStep (.resume place result) (x.step (.resume place result)).provider := by
  cases hjob : x.jobs[place]? with
  | none =>
    have hstep : x.step (.resume place result) = x := by simp only [step, hjob]
    have hsupplier : x.supplier? (.resume place result) = none := by
      simp only [supplier?, hstep, if_true]
    rw [hstep]
    exact .keeps hsupplier (.refl _)
  | some job =>
    have hprovider : (x.step (.resume place result)).provider =
        (x.provider.resume job result).1 := by simp only [step, hjob]
    have hstep := Provider.resume_sourceStep hx job result
    rw [← hprovider] at hstep
    cases hstep with
    | keeps hkeeps => exact .keeps (if_pos hkeeps.publications) hkeeps
    | @takes source t hasked hfound htakes hsource =>
      have hne : (x.step (.resume place result)).provider.publications ≠
          x.provider.publications := by
        have hmore := htakes.publications
        omega
      have hsupplier : x.supplier? (.resume place result) = some source := by
        simp only [supplier?, if_neg hne, hjob, Option.bind_some, hasked]
      have hattempted := (attempted_of_job hjob result).trans (found_eq_some_iff.mp hfound)
      refine .accepts hsupplier (.intro hjob hasked hattempted htakes) ?_ hsource
      rw [htakes.table, Option.isSome_some]

theorem step_sourceStep (hx : x.provider.IsHonest) (a : Action) :
    x.SourceStep a (x.step a).provider := by
  cases a with
  | bootstrap => exact .keeps rfl ⟨rfl, rfl, rfl⟩
  | signal =>
    refine .keeps rfl ?_
    simp only [step, Provider.signalOutdated]
    split <;> exact ⟨rfl, rfl, rfl⟩
  | resume place result => exact resume_sourceStep hx place result
  | leave place =>
    refine .keeps rfl ?_
    simp only [step]
    split <;> exact .refl _
  | abort place =>
    refine .keeps rfl ?_
    simp only [step]
    split <;> exact .refl _
  | reconfigure text =>
    simp only [step]
    split
    · rename_i after hafter
      rw [(Provider.reconfigure_spec hafter).2]
      exact .pushed rfl rfl rfl
    · exact .keeps rfl (.refl _)
  | mark address state =>
    simp only [step]
    split
    · rename_i q hmark
      obtain ⟨t, hbind, rfl⟩ := Option.map_eq_some_iff.mp hmark
      obtain ⟨old, hold, -⟩ := Option.bind_eq_some_iff.mp hbind
      exact .marks rfl (by rw [hold, Option.isSome_some]) rfl rfl
    · exact .keeps rfl (.refl _)

theorem supplier?_eq_some_iff (hx : x.provider.IsHonest) {source : Source} :
    x.supplier? a = some source ↔ x.Accepts a source := by
  constructor
  · intro h
    cases x.step_sourceStep hx a with
    | accepts hsupplier haccepts =>
      cases h.symm.trans hsupplier
      exact haccepts
    | keeps hsupplier => cases h.symm.trans hsupplier
    | pushed hsupplier => cases h.symm.trans hsupplier
    | marks hsupplier => cases h.symm.trans hsupplier
  · rintro ⟨hjob, hasked, -, htakes⟩
    have hmore := htakes.publications
    rw [supplier?, if_neg (by omega), hjob, Option.bind_some, hasked]

/-! ## Runs -/

/-- The source that is remembered is the last one of those whose tables were accepted, or the binary
one if there is none of them; without a table there is nothing to remember. -/
structure Remembers (p : Provider) (suppliers : List Source) : Prop where
  lastSource : p.lastSource = p.table.map fun _ => suppliers.getLast?.getD .binary
  suppliers : p.table = none → suppliers = []

theorem Remembers.preferred {p : Provider} {suppliers : List Source} (h : Remembers p suppliers) :
    p.preferred = suppliers.getLast?.getD .binary := by
  rw [Provider.preferred, h.lastSource]
  cases htable : p.table with
  | none => rw [h.suppliers htable]; rfl
  | some t => rfl

theorem remembers_of_isSome {p : Provider} {suppliers : List Source}
    (htable : p.table.isSome = true)
    (hsource : p.lastSource = some (suppliers.getLast?.getD .binary)) :
    Remembers p suppliers := by
  obtain ⟨t, ht⟩ := Option.isSome_iff_exists.mp htable
  refine ⟨by rw [hsource, ht, Option.map_some], fun hnone => ?_⟩
  cases ht.symm.trans hnone

theorem Remembers.step {suppliers : List Source} (hx : x.provider.IsHonest)
    (h : Remembers x.provider suppliers) (a : Action) :
    Remembers (x.step a).provider (suppliers ++ (x.supplier? a).toList) := by
  cases x.step_sourceStep hx a with
  | keeps hsupplier hkeeps =>
    rw [hsupplier, Option.toList_none, List.append_nil]
    refine ⟨?_, fun hnone => h.suppliers (hkeeps.table.symm.trans hnone)⟩
    rw [hkeeps.lastSource, hkeeps.table, h.lastSource]
  | accepts hsupplier _ htable hsource =>
    refine remembers_of_isSome htable ?_
    rw [hsource, hsupplier, Option.toList_some, List.getLast?_concat, Option.getD_some]
  | pushed hsupplier htable hsource =>
    refine remembers_of_isSome htable ?_
    rw [hsource, h.preferred, hsupplier, Option.toList_none, List.append_nil]
  | marks hsupplier hold htable hsource =>
    refine remembers_of_isSome htable ?_
    obtain ⟨t, ht⟩ := Option.isSome_iff_exists.mp hold
    rw [hsource, h.lastSource, ht, Option.map_some, hsupplier, Option.toList_none,
      List.append_nil]

theorem Remembers.run {suppliers : List Source} (hx : x.provider.IsHonest)
    (h : Remembers x.provider suppliers) (as : List Action) :
    Remembers (x.run as).provider (suppliers ++ x.suppliers as) := by
  induction as generalizing x suppliers with
  | nil => rwa [System.suppliers, List.append_nil]
  | cons a as ih =>
    rw [System.suppliers, ← List.append_assoc]
    exact ih (isHonest_step hx a) (h.step hx a)

theorem isHonest_run (hx : x.provider.IsHonest) (as : List Action) :
    (x.run as).provider.IsHonest := by
  induction as generalizing x with
  | nil => exact hx
  | cons a as ih => exact ih (isHonest_step hx a)

theorem isHonest_start (maxReplicas : Nat) :
    (start maxReplicas .binary .http).provider.IsHonest
  | .binary => rfl
  | .http => rfl

-- A table that is pushed over another one, or marked, comes with the source of the one before.
theorem lastSource_of_not_accepts {suppliers : List Source} (hx : x.provider.IsHonest)
    (h : Remembers x.provider suppliers) (htable : x.provider.table ≠ none)
    (hnot : ∀ source, ¬ x.Accepts a source) :
    (x.step a).provider.lastSource = x.provider.lastSource := by
  cases x.step_sourceStep hx a with
  | keeps _ hkeeps => exact hkeeps.lastSource
  | accepts _ haccepts => exact absurd haccepts (hnot _)
  | marks _ _ _ hsource => exact hsource
  | pushed _ _ hsource =>
    obtain ⟨t, ht⟩ := Option.ne_none_iff_exists'.mp htable
    rw [hsource, h.preferred, h.lastSource, ht, Option.map_some]

/-! ## The fetches of a pass -/

section Passes

variable {place : Nat} {hadTable : Bool} {acquisition : Acquisition} {result : FetchResult}

theorem moments_of_other (h : a.resumes place = false) (as : List Action) :
    x.moments place (a :: as) =
      match x.moved? place a with
      | some place => (x.step a).moments place as
      | none => [] := by
  have hnext : x.next? place a = x.moved? place a := by
    unfold next?
    rw [h]
    rfl
  rw [moments, hnext, h]
  rfl

/-- How a pass goes on in one of its moments: it asks the next source after a failure, or it is over
and asks none. -/
inductive PassMoment (x : System) (place : Nat) (hadTable : Bool) (acquisition : Acquisition)
    (result : FetchResult) : Prop where
  | asks {source : Source} {rest : List Source} {failures : List Failure} {e : AttemptError}
      (hnext : acquisition.next = source :: rest)
      (hattempted : x.attempted (.resume place result) = some (.error e))
      (hfetched : (Moment.mk x (.resume place result)).fetched = some source)
      (hjob : (x.step (.resume place result)).jobs[place]? =
        some (.refreshing hadTable ⟨source, rest, failures⟩))
      (hmoments : ∀ as, x.moments place (.resume place result :: as) =
        ⟨x, .resume place result⟩ :: (x.step (.resume place result)).moments place as)
  | finished (hattempted : acquisition.next ≠ [] →
        ∀ e, x.attempted (.resume place result) ≠ some (.error e))
      (hfetched : (Moment.mk x (.resume place result)).fetched = none)
      (hmoments : ∀ as, x.moments place (.resume place result :: as) =
        [⟨x, .resume place result⟩])

-- A pass that ends makes no fetch, and has no further moment.
theorem moments_of_left (hleft : (x.leftByPass (.resume place result)).isSome = true) :
    (Moment.mk x (.resume place result)).fetched = none ∧
      ∀ as, x.moments place (.resume place result :: as) = [⟨x, .resume place result⟩] := by
  have hown : (Action.resume place result).resumes place = true := beq_self_eq_true place
  refine ⟨if_pos hleft, fun as => ?_⟩
  simp only [moments, next?, hown, hleft, Bool.and_self, if_true]

-- A pass that does not end fetches what its job asks then, and goes on as long as the job does.
theorem moments_of_job {job : Job} (hjob : x.jobs[place]? = some job)
    (hnone : x.leftByPass (.resume place result) = none) :
    (Moment.mk x (.resume place result)).fetched =
        (x.provider.resume job result).2.left.head?.bind (·.asked) ∧
      ∀ as, x.moments place (.resume place result :: as) = ⟨x, .resume place result⟩ ::
        if (x.provider.resume job result).2.left.isEmpty then []
        else (x.step (.resume place result)).moments place as := by
  have hown : (Action.resume place result).resumes place = true := beq_self_eq_true place
  constructor
  · simp only [Moment.fetched, hnone, Option.isSome_none, Bool.false_eq_true, if_false, fetched,
      hjob]
  · intro as
    have hnext : x.next? place (.resume place result) = x.moved? place (.resume place result) := by
      rw [next?, hnone, Option.isSome_none, Bool.and_false, if_neg Bool.false_ne_true]
    rw [moments, hnext, moved?, vacated?, hjob]
    simp only [if_pos hown]
    cases (x.provider.resume job result).2.left.isEmpty with
    | true => simp only [if_true]
    | false => simp only [Bool.false_eq_true, if_false]

theorem passMoment (hjob : x.jobs[place]? = some (.refreshing hadTable acquisition))
    (result : FetchResult) : x.PassMoment place hadTable acquisition result := by
  have hattempted : x.attempted (.resume place result) = x.provider.attempt acquisition result :=
    attempted_of_job hjob result
  have hleft : x.leftByPass (.resume place result) =
      x.provider.afterPass? hadTable acquisition result := by simp only [leftByPass, hjob]
  cases hattempt : x.provider.attempt acquisition result with
  | none =>
    have hnone : x.leftByPass (.resume place result) = none := by
      rw [hleft, Provider.afterPass?, hattempt]
    have hresume : x.provider.resume (.refreshing hadTable acquisition) result =
        (x.provider, .crashed) := by simp only [Provider.resume, hattempt]
    obtain ⟨hfetched, hmoments⟩ := moments_of_job hjob hnone
    rw [hresume] at hfetched hmoments
    refine .finished (fun _ e he => ?_) hfetched hmoments
    cases (hattempted.trans hattempt).symm.trans he
  | some attempt =>
    have hresume : x.provider.resume (.refreshing hadTable acquisition) result =
        x.provider.resumeRefresh hadTable acquisition attempt := by
      simp only [Provider.resume, hattempt]
    cases attempt with
    | ok t =>
      have hsome : (x.leftByPass (.resume place result)).isSome = true := by
        rw [hleft, Provider.afterPass?, hattempt]
        rfl
      obtain ⟨hfetched, hmoments⟩ := moments_of_left hsome
      refine .finished (fun _ e he => ?_) hfetched hmoments
      cases (hattempted.trans hattempt).symm.trans he
    | error e =>
      cases hnext : acquisition.next with
      | nil =>
        have hsome : (x.leftByPass (.resume place result)).isSome = true := by
          rw [hleft, Provider.afterPass?, hattempt, hnext]
          rfl
        obtain ⟨hfetched, hmoments⟩ := moments_of_left hsome
        exact .finished (fun hne => absurd hnext hne) hfetched hmoments
      | cons source rest =>
        have hnone : x.leftByPass (.resume place result) = none := by
          rw [hleft, Provider.afterPass?, hattempt, hnext]
          rfl
        have hasks : x.provider.resumeRefresh hadTable acquisition (.error e) = (x.provider,
            .waits (.refreshing hadTable
              ⟨source, rest, acquisition.failures ++ [⟨acquisition.asked, e⟩]⟩)) := by
          simp only [Provider.resumeRefresh, Acquisition.resume, hnext]
        obtain ⟨hfetched, hmoments⟩ := moments_of_job hjob hnone
        rw [hresume, hasks] at hfetched hmoments
        have hwaits : (x.step (.resume place result)).jobs[place]? = some (.refreshing hadTable
            ⟨source, rest, acquisition.failures ++ [⟨acquisition.asked, e⟩]⟩) := by
          simp only [step, hjob, hresume, hasks, replaced]
          exact List.getElem?_set_self (List.getElem?_eq_some_iff.mp hjob).1
        exact .asks hnext (hattempted.trans hattempt) hfetched hwaits hmoments

theorem fetches_of_last (hnext : acquisition.next = [])
    (hjob : x.jobs[place]? = some (.refreshing hadTable acquisition)) (as : List Action) :
    (x.moments place as).filterMap (·.fetched) = [] := by
  induction as generalizing x place with
  | nil => rfl
  | cons a as ih =>
    cases hown : a.resumes place with
    | false =>
      have hlt := (List.getElem?_eq_some_iff.mp hjob).1
      rw [moments_of_other hown]
      cases hmoved : x.moved? place a with
      | none => rfl
      | some place' => exact ih ((getElem?_of_moved? hmoved hlt hown).trans hjob)
    | true =>
      obtain ⟨result, rfl⟩ := Action.eq_resume hown
      cases passMoment hjob result with
      | asks hsome => cases hnext.symm.trans hsome
      | finished _ hfetched hmoments =>
        rw [hmoments, List.filterMap_cons, hfetched, List.filterMap_nil]

theorem fetches_of_first {source : Source} (hnext : acquisition.next = [source])
    (hjob : x.jobs[place]? = some (.refreshing hadTable acquisition)) (as : List Action) :
    ((x.moments place as).filterMap (·.fetched) = [source] ∧ FirstFailed (x.moments place as)) ∨
      ((x.moments place as).filterMap (·.fetched) = [] ∧ ¬ FirstFailed (x.moments place as)) := by
  have hnil : ¬ FirstFailed [] := by
    rintro ⟨m, e, hm, -⟩
    cases hm
  induction as generalizing x place with
  | nil => exact .inr ⟨rfl, hnil⟩
  | cons a as ih =>
    cases hown : a.resumes place with
    | false =>
      have hlt := (List.getElem?_eq_some_iff.mp hjob).1
      rw [moments_of_other hown]
      cases hmoved : x.moved? place a with
      | none => exact .inr ⟨rfl, hnil⟩
      | some place' => exact ih ((getElem?_of_moved? hmoved hlt hown).trans hjob)
    | true =>
      obtain ⟨result, rfl⟩ := Action.eq_resume hown
      cases passMoment hjob result with
      | asks hsome hattempted hfetched hjob' hmoments =>
        cases hnext.symm.trans hsome
        rw [hmoments]
        refine .inl ⟨?_, _, _, rfl, hattempted⟩
        rw [List.filterMap_cons, hfetched, fetches_of_last rfl hjob']
      | finished hattempted hfetched hmoments =>
        rw [hmoments]
        refine .inr ⟨by rw [List.filterMap_cons, hfetched, List.filterMap_nil], ?_⟩
        rintro ⟨m, e, hm, he⟩
        cases hm
        exact hattempted (by rw [hnext]; exact List.cons_ne_nil _ _) e he

-- A pass that begins waits for the source that is remembered, and has the other one left.
theorem Begins.asks_preferred {p : Provider} (h : x.Begins a place p) (hpass : a ≠ .bootstrap) :
    x.fetched a = some p.preferred ∧
      (x.step a).jobs[place]? =
        some (.refreshing p.table.isSome (.start p.preferred)) := by
  cases h with
  | bootstrap => exact absurd rfl hpass
  | first hjob =>
    have hlt := (List.getElem?_eq_some_iff.mp hjob).1
    simp only [fetched, step, hjob, Provider.resume_queued, replaced]
    exact ⟨rfl, List.getElem?_set_self hlt⟩
  | again hleft hpending =>
    obtain ⟨_, _, hadTable, acquisition, heq, hjob, hafter⟩ := leftByPass_cases hleft
    cases heq
    have hlt := (List.getElem?_eq_some_iff.mp hjob).1
    simp only [fetched, step, hjob, Provider.resume_of_afterPass? hafter,
      Provider.endPass_of_pending hpending, replaced]
    exact ⟨rfl, List.getElem?_set_self hlt⟩

end Passes

/-- With sources that report themselves to be what they are, a provider remembers a source exactly
if a table is in force: the one whose table was accepted last from a fetch, or the binary one if
only pushed tables were accepted; all else leaves it alone. A pass of a refresh asks the remembered
source first, or the binary one, then the other one exactly if its first attempt fails, and nobody
after that. -/
theorem remembered_and_asked_first (maxReplicas : Nat) (as : List Action) :
    let start := start maxReplicas .binary .http
    let x := start.run as
    (x.provider.lastSource = none ↔ x.provider.table = none) ∧
      x.provider.lastSource =
        x.provider.table.map (fun _ => (start.suppliers as).getLast?.getD .binary) ∧
      (∀ a source, x.supplier? a = some source ↔ x.Accepts a source) ∧
      (∀ a, x.provider.table ≠ none → (∀ source, ¬ x.Accepts a source) →
        (x.step a).provider.lastSource = x.provider.lastSource) ∧
      ∀ a place p, x.Begins a place p → a ≠ .bootstrap →
        let first := p.lastSource.getD .binary
        x.fetched a = some first ∧ ∀ later,
          let ms := (x.step a).moments place later
          (ms.filterMap (·.fetched) = [first.other] ∧ FirstFailed ms) ∨
            (ms.filterMap (·.fetched) = [] ∧ ¬ FirstFailed ms) := by
  intro start x
  have hstart : start.provider.IsHonest := isHonest_start maxReplicas
  have hx : x.provider.IsHonest := isHonest_run hstart as
  have hempty : Remembers start.provider [] := ⟨rfl, fun _ => rfl⟩
  have hremembers : Remembers x.provider (start.suppliers as) := hempty.run hstart as
  refine ⟨?_, hremembers.lastSource, fun a source => supplier?_eq_some_iff hx,
    fun a htable hnot => lastSource_of_not_accepts hx hremembers htable hnot, ?_⟩
  · rw [hremembers.lastSource, Option.map_eq_none_iff]
  · intro a place p hbegins hpass
    obtain ⟨hfetched, hjob⟩ := hbegins.asks_preferred hpass
    exact ⟨hfetched, fetches_of_first rfl hjob⟩

/-- A table is pushed, and a refresh gets a newer one from its second source, whose only node is
then marked. A second refresh has been started. -/
def suppliedRun : List Action :=
  [.reconfigure (soloText "4"), .signal, unanswered 0, unanswered 0,
    .resume 0 (.descriptors [⟨"h", soloText "7"⟩]), .mark "a:11210" .inactive, .signal]

-- The second refresh asks the source first that came second before, and when that fails the other.
theorem remembered_and_asked_first_other :
    let x := (start 3 .binary .http).run suppliedRun
    x.provider.lastSource = some .http ∧ x.Begins (unanswered 0) 0 x.provider ∧
      x.fetched (unanswered 0) = some .http ∧
      let ms := (x.step (unanswered 0)).moments 0 [.reconfigure (soloText "9"), unanswered 0]
      FirstFailed ms ∧ ms.filterMap (·.fetched) = [.binary] := by
  intro x
  obtain ⟨-, hsource, -, -, hpasses⟩ := remembered_and_asked_first 3 suppliedRun
  have htable : x.provider.table.isSome = true := by decide +kernel
  obtain ⟨t, ht⟩ := Option.isSome_iff_exists.mp htable
  have hsuppliers : (start 3 .binary .http).suppliers suppliedRun = [.http] := by decide +kernel
  have hlast : x.provider.lastSource = some .http := by
    rw [show x.provider.lastSource = _ from hsource, ht, hsuppliers]
    rfl
  have hqueued : x.jobs[0]? = some .queued := by decide +kernel
  have hbegins : x.Begins (unanswered 0) 0 x.provider := .first hqueued
  obtain ⟨hfetched, hlater⟩ := hpasses _ _ _ hbegins nofun
  rw [hlast] at hfetched hlater
  refine ⟨hlast, hbegins, hfetched, ?_⟩
  intro ms
  rcases hlater [.reconfigure (soloText "9"), unanswered 0] with ⟨hfetches, hfailed⟩ | ⟨hfetches, -⟩
  · exact ⟨hfailed, hfetches⟩
  · have hone : (ms.filterMap (·.fetched)).length = 1 := by decide +kernel
    rw [show ms.filterMap (·.fetched) = [] from hfetches] at hone
    cases hone

end System

end ClusterClient
