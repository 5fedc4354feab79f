import ClusterClient.Proofs.Provider.System
import ClusterClient.Proofs.Topology.WellFormed
/-!
# Published tables

However its users interleave, a provider publishes well-formed tables only. One step publishes one
table at most, so the tables of a run are those in force after its steps.
-/

namespace ClusterClient

namespace Provider

/-! ## What one operation publishes -/

-- The end of a pass leaves the table in force.
theorem Publishes.endPass {p q : Provider} (h : p.Publishes q) : p.Publishes q.endPass.1 := by
  obtain ⟨htable, hnumber, -⟩ := q.keeps_endPass
  cases h with
  | nothing ht hn => exact .nothing (htable.trans ht) (hnumber.trans hn)
  | parsed hparse ht hn => exact .parsed hparse (htable.trans ht) (hnumber.trans hn)
  | marked hold hmark ht hn => exact .marked hold hmark (htable.trans ht) (hnumber.trans hn)

theorem maxReplicas_endPass (p : Provider) : p.endPass.1.maxReplicas = p.maxReplicas := by
  cases hpending : p.isPending with
  | true => rw [endPass_of_pending hpending]; rfl
  | false => rw [endPass_of_not_pending hpending]

theorem resume_publishes (p : Provider) (job : Job) (result : FetchResult) :
    p.Publishes (p.resume job result).1 ∧ (p.resume job result).1.maxReplicas = p.maxReplicas := by
  cases job with
  | queued =>
    rw [resume_queued]
    exact ⟨.nothing rfl rfl, rfl⟩
  | refreshing hadTable a =>
    have hstep := p.resume_refreshing hadTable a result
    generalize p.resume (.refreshing hadTable a) result = s at hstep ⊢
    cases hstep with
    | breaks => exact ⟨.nothing rfl rfl, rfl⟩
    | asks => exact ⟨.nothing rfl rfl, rfl⟩
    | @ends q hq => exact ⟨hq.publishes.endPass, (maxReplicas_endPass q).trans hq.maxReplicas⟩
  | bootstrapping a =>
    have hstep := p.resume_bootstrapping a result
    generalize p.resume (.bootstrapping a) result = s at hstep ⊢
    cases hstep with
    | breaks => exact ⟨.nothing rfl rfl, rfl⟩
    | asks => exact ⟨.nothing rfl rfl, rfl⟩
    | ends hq => exact ⟨hq.publishes, hq.maxReplicas⟩

theorem reconfigure_publishes {p q : Provider} {text : String} {t : Table}
    (h : p.reconfigure text = .ok (q, t)) :
    p.Publishes q ∧ q.maxReplicas = p.maxReplicas := by
  obtain ⟨hparse, rfl⟩ := reconfigure_spec h
  exact ⟨.parsed hparse rfl rfl, rfl⟩

theorem markNode?_publishes {p q : Provider} {address : String} {state : NodeState}
    (h : p.markNode? address state = some q) :
    p.Publishes q ∧ q.maxReplicas = p.maxReplicas := by
  obtain ⟨t, ht, rfl⟩ := Option.map_eq_some_iff.mp h
  obtain ⟨old, hold, hmark⟩ := Option.bind_eq_some_iff.mp ht
  exact ⟨.marked hold hmark rfl rfl, rfl⟩

/-- The table in force is well formed. -/
structure ServesWell (p : Provider) : Prop where
  table : ∀ t, p.table = some t → t.WellFormed p.maxReplicas

theorem Publishes.servesWell {p q : Provider} (h : p.Publishes q)
    (hmax : q.maxReplicas = p.maxReplicas) (hp : p.ServesWell) : q.ServesWell := by
  refine ⟨fun t ht => ?_⟩
  rw [hmax]
  cases h with
  | nothing htable _ =>
    rw [htable] at ht
    exact hp.table t ht
  | parsed hparse htable _ =>
    rw [htable] at ht
    cases ht
    exact Table.wellFormed_of_parse hparse
  | marked hold hmark htable _ =>
    rw [htable] at ht
    cases ht
    exact (hp.table _ hold).setNodeState hmark

end Provider

namespace System

/-! ## Runs -/

theorem step_publishes (x : System) (a : Action) :
    x.provider.Publishes (x.step a).provider ∧
      (x.step a).provider.maxReplicas = x.provider.maxReplicas := by
  have hsame : x.provider.Publishes x.provider := .nothing rfl rfl
  cases a with
  | bootstrap => exact ⟨.nothing rfl rfl, rfl⟩
  | signal =>
    simp only [step, Provider.signalOutdated]
    split
    · exact ⟨.nothing rfl rfl, rfl⟩
    · exact ⟨.nothing rfl rfl, rfl⟩
  | resume place result =>
    simp only [step]
    split
    · exact x.provider.resume_publishes _ result
    · exact ⟨hsame, rfl⟩
  | leave place =>
    simp only [step]
    split
    · exact ⟨hsame, rfl⟩
    · exact ⟨hsame, rfl⟩
  | abort place =>
    simp only [step]
    split
    · exact ⟨hsame, rfl⟩
    · exact ⟨hsame, rfl⟩
  | reconfigure text =>
    simp only [step]
    split
    · rename_i h
      exact Provider.reconfigure_publishes h
    · exact ⟨hsame, rfl⟩
  | mark address state =>
    simp only [step]
    split
    · rename_i h
      exact Provider.markNode?_publishes h
    · exact ⟨hsame, rfl⟩

/-- The tables that a run publishes, in order: those in force after the steps that raise the number
of publications. -/
def published (x : System) : List Action → List Table
  | [] => []
  | a :: as =>
    let y := x.step a
    if x.provider.publications < y.provider.publications then
      y.provider.table.toList ++ y.published as
    else y.published as

-- None is left out: there are as many as were published, and the last one is in force.
theorem published_complete (x : System) (as : List Action) :
    (x.published as).length + x.provider.publications = (x.run as).provider.publications ∧
      (x.run as).provider.table = (x.published as).getLast?.or x.provider.table := by
  induction as generalizing x with
  | nil => exact ⟨Nat.zero_add _, rfl⟩
  | cons a as ih =>
    obtain ⟨hlength, hlast⟩ := ih (x.step a)
    -- a step that publishes adds the table that it leaves in force
    have hpublished : ∀ t, (x.step a).provider.table = some t →
        (x.step a).provider.publications = x.provider.publications + 1 →
        (x.published (a :: as)).length + x.provider.publications =
            (x.run (a :: as)).provider.publications ∧
          (x.run (a :: as)).provider.table =
            (x.published (a :: as)).getLast?.or x.provider.table := by
      intro t ht hn
      have heq : x.published (a :: as) = t :: (x.step a).published as := by
        simp only [published, hn, Nat.lt_succ_self, if_true, ht, Option.toList_some,
          List.singleton_append]
      rw [heq, run_cons, hlast, ht, List.length_cons]
      refine ⟨by omega, ?_⟩
      cases (x.step a).published as with
      | nil => rfl
      | cons u us => rw [List.getLast?_cons_cons]; simp only [List.getLast?_cons, Option.some_or]
    cases (x.step_publishes a).1 with
    | nothing ht hn =>
      have heq : x.published (a :: as) = (x.step a).published as := by
        simp only [published, hn, Nat.lt_irrefl, if_false]
      rw [heq, run_cons, hlast, ht]
      exact ⟨by omega, rfl⟩
    | parsed _ ht hn => exact hpublished _ ht hn
    | marked _ _ ht hn => exact hpublished _ ht hn

theorem wellFormed_of_mem_published {x : System} {as : List Action} {t : Table}
    (hx : x.provider.ServesWell) (ht : t ∈ x.published as) :
    t.WellFormed x.provider.maxReplicas := by
  induction as generalizing x with
  | nil => cases ht
  | cons a as ih =>
    obtain ⟨hpublishes, hmax⟩ := x.step_publishes a
    have hy := hpublishes.servesWell hmax hx
    rw [← hmax]
    simp only [published] at ht
    split at ht
    · rcases List.mem_append.mp ht with ht | ht
      · exact hy.table t (Option.mem_toList.mp ht)
      · exact ih hy ht
    · exact ih hy ht

theorem servesWell_start (maxReplicas : Nat) (binaryReports httpReports : Source) :
    (start maxReplicas binaryReports httpReports).provider.ServesWell :=
  ⟨fun _ ht => by cases ht⟩

theorem servesWell_run {x : System} (hx : x.provider.ServesWell) (as : List Action) :
    (x.run as).provider.ServesWell := by
  induction as generalizing x with
  | nil => exact hx
  | cons a as ih =>
    obtain ⟨hpublishes, hmax⟩ := x.step_publishes a
    exact ih (hpublishes.servesWell hmax hx)

/-- Whatever happens to a new provider, each of its tables is well formed, and routing a key in one
of fewer than 2^32 partitions finds every place that it looks up. -/
theorem published_wellFormed (maxReplicas : Nat) (binaryReports httpReports : Source)
    (as : List Action) :
    let x := start maxReplicas binaryReports httpReports
    (x.published as).length = (x.run as).provider.publications ∧
      (x.run as).provider.table = (x.published as).getLast? ∧
      ∀ t ∈ x.published as, t.WellFormed maxReplicas ∧
        (t.partitionCount < UInt32.size → ∀ key, t.Covers key) := by
  intro x
  obtain ⟨hlength, hlast⟩ := x.published_complete as
  refine ⟨hlength, ?_, fun t ht => ?_⟩
  · rw [hlast]
    exact Option.or_none
  · have hwell := wellFormed_of_mem_published (servesWell_start _ _ _) ht
    exact ⟨hwell, hwell.covers⟩

/-- A descriptor of two partitions on two nodes is pushed, and then the second node is suspected. -/
def pairRun : List Action :=
  let servers := "\"serverList\":[\"a:1\",\"a:2\"],\"vBucketMap\":[[0,1],[1,-1]]"
  [.reconfigure ("\x7b\"rev\":4,\"vBucketServerMap\":\x7b\"numReplicas\":1," ++ servers ++
      "\x7d\x7d"),
    .mark "a:2" .suspected]

def pairTable : Table :=
  { kind := .partitioned, name := "", rev := 4, replicaCount := 1
    partitions := [⟨some 0, [some 1]⟩, ⟨some 1, [none]⟩]
    registry := ⟨[⟨0, "a:1", .active⟩, ⟨1, "a:2", .suspected⟩]⟩ }

theorem published_wellFormed_pair :
    pairTable ∈ (start 3 .binary .http).published pairRun ∧ pairTable.WellFormed 3 ∧
      pairTable.partitionCount < UInt32.size ∧ pairTable.Covers "k" := by
  have hmem : pairTable ∈ (start 3 .binary .http).published pairRun := by decide +kernel
  have hcount : pairTable.partitionCount < UInt32.size := by decide
  obtain ⟨hwell, hcovers⟩ := (published_wellFormed 3 .binary .http pairRun).2.2 pairTable hmem
  exact ⟨hmem, hwell, hcount, hcovers hcount "k"⟩

end System

end ClusterClient
