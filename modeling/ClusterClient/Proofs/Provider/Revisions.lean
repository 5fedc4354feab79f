import ClusterClient.Proofs.Provider.Published
/-!
# Revisions

A table that a refresh has found, or that was pushed, is compared with the one in force at the
moment at which it would take its place. Only a bootstrap does not compare, so nothing else lowers
the revision.
-/

namespace ClusterClient

namespace Provider

variable {p q r : Provider} {t : Table}

/-! ## Taking over a table -/

/-- The table in force, if there is one, has no higher revision. -/
def Admits (p : Provider) (t : Table) : Prop :=
  ∀ current, p.table = some current → current.rev ≤ t.rev

/-- A table is published and in force. -/
structure Takes (p : Provider) (t : Table) (q : Provider) : Prop where
  table : q.table = some t
  publications : q.publications = p.publications + 1

/-- A table is taken over if it is admitted, and else nothing comes of it. -/
structure Weighs (p : Provider) (t : Table) (q : Provider) : Prop where
  takes : p.Admits t → p.Takes t q
  keeps : ¬ p.Admits t → p.Keeps q

theorem Takes.keeps (h : p.Takes t q) (hq : q.Keeps r) : p.Takes t r :=
  ⟨hq.table.trans h.table, hq.publications.trans h.publications⟩

theorem Keeps.trans (h : p.Keeps q) (hq : q.Keeps r) : p.Keeps r :=
  ⟨hq.table.trans h.table, hq.publications.trans h.publications, hq.lastSource.trans h.lastSource⟩

theorem Weighs.keepsAfter (h : p.Weighs t q) (hq : q.Keeps r) : p.Weighs t r :=
  ⟨fun hadmits => (h.takes hadmits).keeps hq, fun hadmits => (h.keeps hadmits).trans hq⟩

theorem Weighs.takes_iff (h : p.Weighs t q) : p.Takes t q ↔ p.Admits t := by
  refine ⟨fun htakes => ?_, h.takes⟩
  by_contra hadmits
  have hkept := (h.keeps hadmits).publications
  have htaken := htakes.publications
  omega

-- A table that is weighed leaves one in force: itself, or one of a higher revision.
theorem Weighs.isSome_table (h : p.Weighs t q) : q.table.isSome = true := by
  by_cases hadmits : p.Admits t
  · rw [(h.takes hadmits).table, Option.isSome_some]
  · rw [(h.keeps hadmits).table]
    cases htable : p.table with
    | some current => rfl
    | none =>
      refine absurd (fun current hcurrent => ?_) hadmits
      cases htable.symm.trans hcurrent

theorem publishIfNewer_of_admits (h : p.Admits t) (source : Source) :
    p.publishIfNewer t source = .ok (p.publish t source) := by
  unfold publishIfNewer
  cases htable : p.table with
  | none => rfl
  | some current =>
    have hle := h current htable
    exact if_neg (by omega)

theorem publishIfNewer_of_not_admits (h : ¬ p.Admits t) (source : Source) :
    ∃ e, p.publishIfNewer t source = .error e := by
  unfold publishIfNewer
  cases htable : p.table with
  | none =>
    refine absurd ?_ h
    intro current hcurrent
    cases htable.symm.trans hcurrent
  | some current =>
    refine ⟨.stale t.rev current.rev, if_pos ?_⟩
    by_contra hle
    refine h fun other hother => ?_
    cases htable.symm.trans hother
    omega

theorem takes_publish (p : Provider) (t : Table) (source : Source) :
    p.Takes t (p.publish t source) := ⟨rfl, rfl⟩

theorem acceptRefreshed_weighs (p : Provider) (t : Table) (source : Source) (phase : Phase) :
    p.Weighs t { p.acceptRefreshed t source with phase } := by
  by_cases h : p.Admits t
  · have haccept : p.acceptRefreshed t source = p.publish t source := by
      rw [acceptRefreshed, publishIfNewer_of_admits h]
    rw [haccept]
    exact ⟨fun _ => ⟨rfl, rfl⟩, fun hnot => absurd h hnot⟩
  · obtain ⟨e, he⟩ := publishIfNewer_of_not_admits h source
    have haccept : p.acceptRefreshed t source = p := by rw [acceptRefreshed, he]
    rw [haccept]
    exact ⟨fun hadmits => absurd hadmits h, fun _ => ⟨rfl, rfl, rfl⟩⟩

theorem reconfigure_of_admits {text : String} (hparse : Table.parse text p.maxReplicas = .ok t)
    (h : p.Admits t) : p.reconfigure text = .ok (p.publish t p.preferred, t) := by
  simp only [reconfigure, hparse, publishIfNewer_of_admits h]
  rfl

theorem reconfigure_of_not_admits {text : String}
    (hparse : Table.parse text p.maxReplicas = .ok t) (h : ¬ p.Admits t) :
    ∃ e, p.reconfigure text = .error e := by
  obtain ⟨e, he⟩ := publishIfNewer_of_not_admits h p.preferred
  refine ⟨e, ?_⟩
  simp only [reconfigure, hparse, he]
  rfl

end Provider

namespace System

variable {x : System} {a : Action} {t : Table}

/-! ## What a step does about the table in force -/

/-- The table that a pass of a refresh finds in a step, or that is pushed in it. -/
def offered (x : System) : Action → Option Table
  | .reconfigure text => (Table.parse text x.provider.maxReplicas).toOption
  | .resume place result =>
    match x.jobs[place]? with
    | some (.refreshing _ a) => x.provider.found? a result
    | _ => none
  | _ => none

/-- The table that a bootstrap finds in a step. -/
def bootstrapped (x : System) : Action → Option Table
  | .resume place result =>
    match x.jobs[place]? with
    | some (.bootstrapping a) => x.provider.found? a result
    | _ => none
  | _ => none

/-- What a step does about the table in force, and why: nothing, it weighs a table against it, it
takes over the table of a bootstrap, or it publishes a copy with another node state. -/
inductive TableStep (x : System) (a : Action) (q : Provider) : Prop where
  | idles (hoffered : x.offered a = none) (hbootstrapped : x.bootstrapped a = none)
      (hkeeps : x.provider.Keeps q)
  | weighs {t : Table} (hoffered : x.offered a = some t) (hbootstrapped : x.bootstrapped a = none)
      (hweighs : x.provider.Weighs t q)
  | boots {t : Table} (hoffered : x.offered a = none) (hbootstrapped : x.bootstrapped a = some t)
      (htakes : x.provider.Takes t q)
  | marks {old t : Table} {address : String} {state : NodeState}
      (hoffered : x.offered a = none) (hbootstrapped : x.bootstrapped a = none)
      (hold : x.provider.table = some old) (hmark : old.setNodeState? address state = some t)
      (htakes : x.provider.Takes t q)

theorem resume_tableStep {place : Nat} {job : Job} (hjob : x.jobs[place]? = some job)
    (result : FetchResult) :
    x.TableStep (.resume place result) (x.provider.resume job result).1 := by
  cases job with
  | queued =>
    have hoffered : x.offered (.resume place result) = none := by simp only [offered, hjob]
    have hbootstrapped : x.bootstrapped (.resume place result) = none := by
      simp only [bootstrapped, hjob]
    exact .idles hoffered hbootstrapped ⟨rfl, rfl, rfl⟩
  | refreshing hadTable a =>
    have hoffered : x.offered (.resume place result) = x.provider.found? a result := by
      simp only [offered, hjob]
    have hbootstrapped : x.bootstrapped (.resume place result) = none := by
      simp only [bootstrapped, hjob]
    have hstep := x.provider.resume_refreshing hadTable a result
    generalize x.provider.resume (.refreshing hadTable a) result = after at hstep ⊢
    cases hstep with
    | breaks hcrashed =>
      subst hcrashed
      exact .idles hoffered hbootstrapped (.refl _)
    | asks hnext hfailures hfound => exact .idles (hoffered.trans hfound) hbootstrapped (.refl _)
    | @ends q hq hafter =>
      obtain ⟨t, hfound, rfl⟩ | ⟨hfound, rfl⟩ := Provider.afterPass?_cases hafter
      · have hweighs := x.provider.acceptRefreshed_weighs t (x.provider.reported a.asked)
          (Provider.phaseAfter hadTable true)
        exact .weighs (hoffered.trans hfound) hbootstrapped
          (hweighs.keepsAfter (Provider.keeps_endPass _))
      · have hkeeps : x.provider.Keeps
            { x.provider with phase := Provider.phaseAfter hadTable false } := ⟨rfl, rfl, rfl⟩
        exact .idles (hoffered.trans hfound) hbootstrapped
          (hkeeps.trans (Provider.keeps_endPass _))
  | bootstrapping a =>
    have hoffered : x.offered (.resume place result) = none := by simp only [offered, hjob]
    have hbootstrapped : x.bootstrapped (.resume place result) = x.provider.found? a result := by
      simp only [bootstrapped, hjob]
    have hstep := x.provider.resume_bootstrapping a result
    generalize x.provider.resume (.bootstrapping a) result = after at hstep ⊢
    cases hstep with
    | breaks hfound => exact .idles hoffered (hbootstrapped.trans hfound) (.refl _)
    | asks b hfound => exact .idles hoffered (hbootstrapped.trans hfound) (.refl _)
    | @ends q hq answer hafter =>
      obtain ⟨t, hfound, rfl⟩ | ⟨hfound, rfl⟩ := hafter
      · exact .boots hoffered (hbootstrapped.trans hfound) ⟨rfl, rfl⟩
      · exact .idles hoffered (hbootstrapped.trans hfound) ⟨rfl, rfl, rfl⟩

theorem step_tableStep (x : System) (a : Action) : x.TableStep a (x.step a).provider := by
  cases a with
  | bootstrap => exact .idles rfl rfl ⟨rfl, rfl, rfl⟩
  | signal =>
    refine .idles rfl rfl ?_
    simp only [step, Provider.signalOutdated]
    split <;> exact ⟨rfl, rfl, rfl⟩
  | resume place result =>
    cases hjob : x.jobs[place]? with
    | none =>
      have hstep : x.step (.resume place result) = x := by simp only [step, hjob]
      rw [hstep]
      exact .idles (by simp only [offered, hjob]) (by simp only [bootstrapped, hjob]) (.refl _)
    | some job =>
      simp only [step, hjob]
      exact resume_tableStep hjob result
  | leave place =>
    refine .idles rfl rfl ?_
    simp only [step]
    split <;> exact .refl _
  | abort place =>
    refine .idles rfl rfl ?_
    simp only [step]
    split <;> exact .refl _
  | reconfigure text =>
    cases hparse : Table.parse text x.provider.maxReplicas with
    | error e =>
      have hstep : x.step (.reconfigure text) = x := by
        simp only [step, Provider.reconfigure, hparse]
      rw [hstep]
      exact .idles (by rw [offered, hparse]; rfl) rfl (.refl _)
    | ok t =>
      have hoffered : x.offered (.reconfigure text) = some t := by rw [offered, hparse]; rfl
      refine .weighs hoffered rfl ⟨fun hadmits => ?_, fun hadmits => ?_⟩
      · simp only [step, Provider.reconfigure_of_admits hparse hadmits]
        exact x.provider.takes_publish t _
      · obtain ⟨e, he⟩ := Provider.reconfigure_of_not_admits hparse hadmits
        simp only [step, he]
        exact .refl _
  | mark address state =>
    cases hmark : x.provider.markNode? address state with
    | none =>
      simp only [step, hmark]
      exact .idles rfl rfl (.refl _)
    | some p =>
      simp only [step, hmark]
      obtain ⟨t, hbind, rfl⟩ := Option.map_eq_some_iff.mp hmark
      obtain ⟨old, hold, hset⟩ := Option.bind_eq_some_iff.mp hbind
      exact .marks rfl rfl hold hset ⟨rfl, rfl⟩

/-! ## Runs -/

/-- The tables that bootstraps find in a run. -/
def bootstraps (x : System) : List Action → List Table
  | [] => []
  | a :: as => (x.bootstrapped a).toList ++ (x.step a).bootstraps as

theorem isSome_table_step (a : Action) (h : x.provider.table.isSome = true) :
    (x.step a).provider.table.isSome = true := by
  cases x.step_tableStep a with
  | idles _ _ hkeeps => rw [hkeeps.table, h]
  | boots _ _ htakes => rw [htakes.table, Option.isSome_some]
  | marks _ _ _ _ htakes => rw [htakes.table, Option.isSome_some]
  | weighs _ _ hweighs => exact hweighs.isSome_table

theorem isSome_table_run (as : List Action) (h : x.provider.table.isSome = true) :
    (x.run as).provider.table.isSome = true := by
  induction as generalizing x with
  | nil => exact h
  | cons a as ih => exact ih (isSome_table_step a h)

theorem rev_step {a : Action} (hbootstrapped : x.bootstrapped a = none)
    (ht : x.provider.table = some t) :
    ∃ u, (x.step a).provider.table = some u ∧ t.rev ≤ u.rev := by
  cases x.step_tableStep a with
  | idles _ _ hkeeps => exact ⟨t, hkeeps.table.trans ht, Int.le_refl _⟩
  | boots _ hfound _ => cases hbootstrapped.symm.trans hfound
  | @marks old u _ _ _ _ hold hmark htakes =>
    cases ht.symm.trans hold
    exact ⟨u, htakes.table, Int.le_of_eq (Table.sameLayout_of_setNodeState? hmark).rev.symm⟩
  | @weighs u _ _ hweighs =>
    by_cases hadmits : x.provider.Admits u
    · exact ⟨u, (hweighs.takes hadmits).table, hadmits t ht⟩
    · exact ⟨t, (hweighs.keeps hadmits).table.trans ht, Int.le_refl _⟩

theorem rev_run {as : List Action} (hbootstraps : x.bootstraps as = [])
    (ht : x.provider.table = some t) :
    ∃ u, (x.run as).provider.table = some u ∧ t.rev ≤ u.rev := by
  induction as generalizing x t with
  | nil => exact ⟨t, ht, Int.le_refl _⟩
  | cons a as ih =>
    obtain ⟨hfirst, hlater⟩ := List.append_eq_nil_iff.mp hbootstraps
    obtain ⟨u, hu, hle⟩ := rev_step (Option.toList_eq_nil_iff.mp hfirst) ht
    obtain ⟨v, hv, hle'⟩ := ih hlater hu
    exact ⟨v, hv, Int.le_trans hle hle'⟩

/-- Once a table is published there is always one, and in a run in which no bootstrap finds one its
revision does not fall. A table that a refresh has found or that was pushed is taken over exactly if
the table in force at that moment has no higher revision or there is none, and else the provider
keeps what it has. A bootstrap takes over whatever it finds. -/
theorem takes_iff_admits (x : System) :
    (x.provider.table.isSome = true → ∀ as, (x.run as).provider.table.isSome = true) ∧
      (∀ as t, x.bootstraps as = [] → x.provider.table = some t →
        ∃ u, (x.run as).provider.table = some u ∧ t.rev ≤ u.rev) ∧
      (∀ a t, x.offered a = some t →
        (x.provider.Takes t (x.step a).provider ↔ x.provider.Admits t) ∧
          (¬ x.provider.Admits t → x.provider.Keeps (x.step a).provider)) ∧
      ∀ a t, x.bootstrapped a = some t → x.provider.Takes t (x.step a).provider := by
  refine ⟨fun h as => isSome_table_run as h, fun as t => rev_run, fun a t ha => ?_,
    fun a t ha => ?_⟩
  · cases x.step_tableStep a with
    | idles hoffered => cases ha.symm.trans hoffered
    | boots hoffered => cases ha.symm.trans hoffered
    | marks hoffered => cases ha.symm.trans hoffered
    | weighs hoffered _ hweighs =>
      cases ha.symm.trans hoffered
      exact ⟨hweighs.takes_iff, hweighs.keeps⟩
  · cases x.step_tableStep a with
    | idles _ hbootstrapped => cases ha.symm.trans hbootstrapped
    | weighs _ hbootstrapped => cases ha.symm.trans hbootstrapped
    | marks _ hbootstrapped => cases ha.symm.trans hbootstrapped
    | boots _ hbootstrapped htakes =>
      cases ha.symm.trans hbootstrapped
      exact htakes

/-- A descriptor of one node, of a revision. -/
def soloText (rev : String) : String :=
  "\x7b\"rev\":" ++ rev ++ ",\"nodes\":[\x7b\"hostname\":\"a\"\x7d]\x7d"

def soloTable (rev : Int) : Table :=
  { kind := .simple, name := "", rev, replicaCount := 0, partitions := [⟨some 0, []⟩]
    registry := .ofAddresses ["a:11210"] }

/-- A table is pushed while a refresh waits for its source. -/
def overtakenRun : List Action :=
  [.reconfigure (soloText "4"), .signal, .resume 0 (.failed .noResponse),
    .reconfigure (soloText "9")]

-- What the refresh finds is newer than the table with which it began, and older than the one in
-- force.
theorem keeps_overtaking :
    let x := (start 3 .binary .http).run overtakenRun
    let finds := .resume 0 (.descriptors [⟨"h", soloText "7"⟩])
    x.offered finds = some (soloTable 7) ∧ ¬ x.provider.Admits (soloTable 7) ∧
      x.provider.Keeps (x.step finds).provider ∧
      ∃ u, (x.step finds).provider.table = some u ∧ 9 ≤ u.rev := by
  intro x finds
  have hx : x.provider.table = some (soloTable 9) := by decide +kernel
  have hoffered : x.offered finds = some (soloTable 7) := by decide +kernel
  have hbootstraps : x.bootstraps [finds] = [] := by decide +kernel
  have hadmits : ¬ x.provider.Admits (soloTable 7) := fun hadmits =>
    absurd (hadmits (soloTable 9) hx) (by decide)
  obtain ⟨-, hrev, hoffers, -⟩ := takes_iff_admits x
  exact ⟨hoffered, hadmits, (hoffers finds _ hoffered).2 hadmits, hrev [finds] _ hbootstraps hx⟩

end System

end ClusterClient
