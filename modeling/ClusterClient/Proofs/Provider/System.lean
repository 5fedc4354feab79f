import ClusterClient.Provider.Job
import Mathlib.Data.List.Basic
/-!
# Runs of a provider

A provider is used by many at once: bootstraps and refreshes wait for their sources, and meanwhile
descriptors are pushed, nodes are marked and signals come in. Between two waits nothing interrupts a
piece of work, so a run is a sequence of actions, each of which is done as a whole, in any order.
-/

namespace ClusterClient

def Job.isRefresh : Job → Bool
  | queued => true
  | refreshing _ _ => true
  | bootstrapping _ => false

/-- What happens to a provider between two moments at which everything waits. -/
inductive Action where
  -- A bootstrap is started, up to its first wait.
  | bootstrap
  | signal
  -- The job in a place goes on, up to its next wait, with what came of asking its source.
  | resume (place : Nat) (result : FetchResult)
  -- Whoever waits for the bootstrap in a place lets go of it.
  | leave (place : Nat)
  -- The refresh in a place is aborted.
  | abort (place : Nat)
  | reconfigure (text : String)
  | mark (address : String) (state : NodeState)
  deriving DecidableEq

/-- A provider with the jobs on it that wait. -/
structure System where
  provider : Provider
  jobs : List Job
  deriving DecidableEq

namespace System

-- A new provider, on which nothing waits.
def start (maxReplicas : Nat) (binaryReports httpReports : Source) : System :=
  ⟨{ maxReplicas, binaryReports, httpReports }, []⟩

/-- The refreshes that have been started and are not over. -/
def refreshes (x : System) : List Job := x.jobs.filter (·.isRefresh)

/-- The jobs after the one in a place has gone on: it waits again, or it is gone. -/
def replaced (jobs : List Job) (place : Nat) : Progress → List Job
  | .waits job => jobs.set place job
  | _ => jobs.eraseIdx place

def step (x : System) : Action → System
  | .bootstrap =>
    let (p, job) := x.provider.beginBootstrap
    ⟨p, x.jobs ++ [job]⟩
  | .signal =>
    let (p, starts) := x.provider.signalOutdated
    ⟨p, if starts then x.jobs ++ [.queued] else x.jobs⟩
  | .resume place result =>
    match x.jobs[place]? with
    | some job =>
      let (p, progress) := x.provider.resume job result
      ⟨p, replaced x.jobs place progress⟩
    | none => x
  | .leave place =>
    if x.jobs[place]?.any (!·.isRefresh) then { x with jobs := x.jobs.eraseIdx place } else x
  | .abort place =>
    if x.jobs[place]?.any (·.isRefresh) then { x with jobs := x.jobs.eraseIdx place } else x
  | .reconfigure text =>
    match x.provider.reconfigure text with
    | .ok (p, _) => { x with provider := p }
    | .error _ => x
  | .mark address state =>
    match x.provider.markNode? address state with
    | some p => { x with provider := p }
    | none => x

def run (x : System) (as : List Action) : System := as.foldl step x

theorem run_cons (x : System) (a : Action) (as : List Action) :
    x.run (a :: as) = (x.step a).run as := rfl

end System

/-! ## What an attempt gives -/

namespace Acquisition

-- What an attempt leads to: a table ends the acquisition, a failure leads to the next source or,
-- after the last one, to the end.
theorem resume_cases (a : Acquisition) (attempt : Except AttemptError Table) :
    (∃ t, attempt = .ok t ∧ a.resume attempt = .found t) ∨
      (∃ source rest failures e, attempt = .error e ∧ a.next = source :: rest ∧ failures ≠ [] ∧
        a.resume attempt = .again ⟨source, rest, failures⟩) ∨
      ∃ failures e, attempt = .error e ∧ a.next = [] ∧ a.resume attempt = .failed failures := by
  cases attempt with
  | ok t => exact .inl ⟨t, rfl, rfl⟩
  | error e =>
    have hne : a.failures ++ [⟨a.asked, e⟩] ≠ [] := List.append_ne_nil_of_right_ne_nil _ (by simp)
    cases hnext : a.next with
    | nil =>
      refine .inr (.inr ⟨a.failures ++ [⟨a.asked, e⟩], e, rfl, rfl, ?_⟩)
      simp only [resume, hnext]
    | cons source rest =>
      refine .inr (.inl ⟨source, rest, _, e, rfl, rfl, hne, ?_⟩)
      simp only [resume, hnext]

end Acquisition

namespace Provider

/-- The table that an attempt gives, if it gives one. -/
def found? (p : Provider) (a : Acquisition) (result : FetchResult) : Option Table :=
  (p.attempt a result).bind (·.toOption)

-- A table that an attempt gives is one that a text describes.
theorem parse_of_attempt {p : Provider} {a : Acquisition} {result : FetchResult} {t : Table}
    (h : p.attempt a result = some (.ok t)) : ∃ text, Table.parse text p.maxReplicas = .ok t := by
  cases result with
  | failed e => cases h
  | crashed => cases h
  | descriptors found =>
    have htable := Option.some.inj h
    unfold tableOf at htable
    split at htable
    · cases htable
    · split at htable
      · rename_i hparse
        cases htable
        exact ⟨_, hparse⟩
      · cases htable

/-! ## Steps of a job

What a step of a job can do to the provider, said once for all facts about runs. -/

/-- What a step does to the table in force: it stays, or one other table is published, which a text
describes or which is a copy with another node state. -/
inductive Publishes (p q : Provider) : Prop where
  | nothing (htable : q.table = p.table) (hnumber : q.publications = p.publications)
  | parsed {text : String} {t : Table} (hparse : Table.parse text p.maxReplicas = .ok t)
      (htable : q.table = some t) (hnumber : q.publications = p.publications + 1)
  | marked {old t : Table} {address : String} {state : NodeState} (hold : p.table = some old)
      (hmark : old.setNodeState? address state = some t) (htable : q.table = some t)
      (hnumber : q.publications = p.publications + 1)

/-- The table in force stays, with what is known of its source, and nothing is published. -/
structure Keeps (p q : Provider) : Prop where
  table : q.table = p.table
  publications : q.publications = p.publications
  lastSource : q.lastSource = p.lastSource

theorem Keeps.refl (p : Provider) : p.Keeps p := ⟨rfl, rfl, rfl⟩

/-- The end of an acquisition changes the table, its source and the phase at most. -/
structure Concludes (p q : Provider) : Prop where
  maxReplicas : q.maxReplicas = p.maxReplicas
  isRefreshing : q.isRefreshing = p.isRefreshing
  isPending : q.isPending = p.isPending
  publishes : p.Publishes q

theorem publishIfNewer_spec {p q : Provider} {t : Table} {source : Source}
    (h : p.publishIfNewer t source = .ok q) : q = p.publish t source := by
  unfold publishIfNewer at h
  split at h
  · split at h
    · cases h
    · cases h
      rfl
  · cases h
    rfl

theorem reconfigure_spec {p q : Provider} {text : String} {t : Table}
    (h : p.reconfigure text = .ok (q, t)) :
    Table.parse text p.maxReplicas = .ok t ∧ q = p.publish t p.preferred := by
  unfold reconfigure at h
  split at h
  · cases h
  · rename_i t' hparse
    cases hnewer : p.publishIfNewer t' p.preferred with
    | error e =>
      rw [hnewer] at h
      cases h
    | ok q' =>
      rw [hnewer] at h
      cases h
      exact ⟨hparse, publishIfNewer_spec hnewer⟩

theorem acceptRefreshed_concludes {p : Provider} {t : Table} {text : String}
    (h : Table.parse text p.maxReplicas = .ok t) (source : Source) (phase : Phase) :
    p.Concludes { p.acceptRefreshed t source with phase } := by
  unfold acceptRefreshed
  split
  · rename_i q hq
    rw [publishIfNewer_spec hq]
    exact ⟨rfl, rfl, rfl, .parsed h rfl rfl⟩
  · exact ⟨rfl, rfl, rfl, .nothing rfl rfl⟩

theorem endPass_of_pending {p : Provider} (h : p.isPending = true) :
    p.endPass = (p.beginPass.1, .waits p.beginPass.2) := by
  unfold endPass
  rw [if_pos h]

theorem endPass_of_not_pending {p : Provider} (h : p.isPending = false) :
    p.endPass = ({ p with isRefreshing := false }, .refreshed) := by
  unfold endPass
  rw [if_neg (by rw [h]; decide)]

-- After a pass the provider only turns to the next one, or to rest.
theorem keeps_endPass (p : Provider) : p.Keeps p.endPass.1 := by
  cases hpending : p.isPending with
  | true => rw [endPass_of_pending hpending]; exact ⟨rfl, rfl, rfl⟩
  | false => rw [endPass_of_not_pending hpending]; exact ⟨rfl, rfl, rfl⟩

/-- What a pass leaves that ends with a result of its source, before another one begins. -/
def afterPass? (p : Provider) (hadTable : Bool) (a : Acquisition) (result : FetchResult) :
    Option Provider :=
  match p.attempt a result with
  | none => none
  | some (.ok t) =>
    some { p.acceptRefreshed t (p.reported a.asked) with phase := phaseAfter hadTable true }
  | some (.error _) =>
    if a.next.isEmpty then some { p with phase := phaseAfter hadTable false } else none

-- A pass ends with the table that it found, or with none.
theorem afterPass?_cases {p q : Provider} {hadTable : Bool} {a : Acquisition}
    {result : FetchResult} (h : p.afterPass? hadTable a result = some q) :
    (∃ t, p.found? a result = some t ∧
        q = { p.acceptRefreshed t (p.reported a.asked) with phase := phaseAfter hadTable true }) ∨
      (p.found? a result = none ∧ q = { p with phase := phaseAfter hadTable false }) := by
  unfold afterPass? at h
  rw [found?]
  split at h
  · cases h
  · rename_i t hattempt
    rw [hattempt]
    cases h
    exact .inl ⟨t, rfl, rfl⟩
  · rename_i e hattempt
    rw [hattempt]
    split at h
    · cases h
      exact .inr ⟨rfl, rfl⟩
    · cases h

/-- How a pass that waits goes on: it breaks down with its source, it asks the next source, or it
ends. -/
inductive PassStep (p : Provider) (hadTable : Bool) (a : Acquisition) (result : FetchResult) :
    Provider × Progress → Prop where
  | breaks (h : result = .crashed) : PassStep p hadTable a result (p, .crashed)
  | asks {source : Source} {rest : List Source} {failures : List Failure}
      (hnext : a.next = source :: rest) (hfailures : failures ≠ [])
      (hfound : p.found? a result = none) (hafter : p.afterPass? hadTable a result = none) :
      PassStep p hadTable a result (p, .waits (.refreshing hadTable ⟨source, rest, failures⟩))
  | ends {q : Provider} (hq : p.Concludes q) (hafter : p.afterPass? hadTable a result = some q) :
      PassStep p hadTable a result q.endPass

theorem resume_refreshing (p : Provider) (hadTable : Bool) (a : Acquisition)
    (result : FetchResult) :
    p.PassStep hadTable a result (p.resume (.refreshing hadTable a) result) := by
  cases hattempt : p.attempt a result with
  | none =>
    have hresume : p.resume (.refreshing hadTable a) result = (p, .crashed) := by
      simp only [resume, hattempt]
    rw [hresume]
    refine .breaks ?_
    cases result with
    | descriptors found => cases hattempt
    | failed e => cases hattempt
    | crashed => rfl
  | some attempt =>
    have hresume : p.resume (.refreshing hadTable a) result =
        p.resumeRefresh hadTable a attempt := by simp only [resume, hattempt]
    rw [hresume]
    unfold resumeRefresh
    obtain ⟨t, rfl, h⟩ | ⟨source, rest, failures, e, rfl, hnext, hf, h⟩ |
        ⟨failures, e, rfl, hnext, h⟩ := a.resume_cases attempt
    · rw [h]
      obtain ⟨text, htext⟩ := parse_of_attempt hattempt
      exact .ends (acceptRefreshed_concludes htext _ _) (by rw [afterPass?, hattempt])
    · rw [h]
      refine .asks hnext hf ?_ ?_
      · rw [found?, hattempt]
        rfl
      · rw [afterPass?, hattempt, hnext]
        rfl
    · rw [h]
      refine .ends ⟨rfl, rfl, rfl, .nothing rfl rfl⟩ ?_
      rw [afterPass?, hattempt, hnext]
      rfl

theorem resume_of_afterPass? {p q : Provider} {hadTable : Bool} {a : Acquisition}
    {result : FetchResult} (h : p.afterPass? hadTable a result = some q) :
    p.resume (.refreshing hadTable a) result = q.endPass := by
  have hstep := p.resume_refreshing hadTable a result
  generalize p.resume (.refreshing hadTable a) result = after at hstep ⊢
  cases hstep with
  | breaks hcrashed =>
    subst hcrashed
    cases h
  | asks _ _ _ hafter => cases h.symm.trans hafter
  | ends _ hafter =>
    cases h.symm.trans hafter
    rfl

/-- How a bootstrap that waits goes on: it breaks down, it asks the next source, or it ends. -/
inductive BootstrapStep (p : Provider) (a : Acquisition) (result : FetchResult) :
    Provider × Progress → Prop where
  | breaks (hfound : p.found? a result = none) : BootstrapStep p a result (p, .crashed)
  | asks (b : Acquisition) (hfound : p.found? a result = none) :
      BootstrapStep p a result (p, .waits (.bootstrapping b))
  | ends {q : Provider} (hq : p.Concludes q) (answer : Except ConfigurationError Table)
      (hafter : (∃ t, p.found? a result = some t ∧
          q = { p.publish t (p.reported a.asked) with phase := .ready }) ∨
        (p.found? a result = none ∧ q = { p with phase := .failed })) :
      BootstrapStep p a result (q, .bootstrapped answer)

theorem resume_bootstrapping (p : Provider) (a : Acquisition) (result : FetchResult) :
    p.BootstrapStep a result (p.resume (.bootstrapping a) result) := by
  cases hattempt : p.attempt a result with
  | none =>
    have hresume : p.resume (.bootstrapping a) result = (p, .crashed) := by
      simp only [resume, hattempt]
    rw [hresume]
    exact .breaks (by rw [found?, hattempt]; rfl)
  | some attempt =>
    have hresume : p.resume (.bootstrapping a) result = p.resumeBootstrap a attempt := by
      simp only [resume, hattempt]
    have hfound : p.found? a result = attempt.toOption := by rw [found?, hattempt]; rfl
    rw [hresume]
    unfold resumeBootstrap
    obtain ⟨t, rfl, h⟩ | ⟨source, rest, failures, e, rfl, -, -, h⟩ | ⟨failures, e, rfl, -, h⟩ :=
      a.resume_cases attempt
    · rw [h]
      obtain ⟨text, htext⟩ := parse_of_attempt hattempt
      have hq : p.Concludes { p.publish t (p.reported a.asked) with phase := .ready } :=
        ⟨rfl, rfl, rfl, .parsed htext rfl rfl⟩
      exact .ends hq _ (.inl ⟨t, hfound, rfl⟩)
    · rw [h]
      exact .asks _ hfound
    · rw [h]
      have hq : p.Concludes { p with phase := .failed } := ⟨rfl, rfl, rfl, .nothing rfl rfl⟩
      exact .ends hq _ (.inr ⟨hfound, rfl⟩)

theorem resume_queued (p : Provider) (result : FetchResult) :
    p.resume .queued result = (p.beginPass.1, .waits p.beginPass.2) := rfl

-- Only a bootstrap answers: with the table that it has taken over, or with an error.
theorem resume_of_answer {p : Provider} {job : Job} {result : FetchResult}
    {answer : Except ConfigurationError Table}
    (h : (p.resume job result).2 = .bootstrapped answer) :
    (∃ t source, answer = .ok t ∧
        (p.resume job result).1 = { p.publish t source with phase := .ready }) ∨
      ∃ e, answer = .error e ∧ (p.resume job result).1 = { p with phase := .failed } := by
  cases job with
  | queued => cases h
  | refreshing hadTable a =>
    have hstep := p.resume_refreshing hadTable a result
    generalize p.resume (.refreshing hadTable a) result = after at hstep h
    cases hstep with
    | breaks => cases h
    | asks => cases h
    | @ends q =>
      cases hpending : q.isPending with
      | true =>
        rw [endPass_of_pending hpending] at h
        cases h
      | false =>
        rw [endPass_of_not_pending hpending] at h
        cases h
  | bootstrapping a =>
    cases hattempt : p.attempt a result with
    | none =>
      simp only [resume, hattempt] at h
      cases h
    | some attempt =>
      simp only [resume, hattempt, resumeBootstrap] at h ⊢
      cases houtcome : a.resume attempt with
      | again b =>
        rw [houtcome] at h
        cases h
      | found t =>
        rw [houtcome] at h
        cases h
        exact .inl ⟨t, _, rfl, rfl⟩
      | failed failures =>
        rw [houtcome] at h
        cases h
        exact .inr ⟨_, rfl, rfl⟩

end Provider

end ClusterClient
