import ClusterClient.Proofs.Provider.Moments
/-!
# Operations that publish nothing

A pushed descriptor can be malformed or outdated, a marked node unknown, and a refresh or a
bootstrap can find no table or one that is too old. Whatever others do while such an operation is
under way, none of its steps changes the table in force, what is known of its source, or the number
of tables that have been published.
-/

namespace ClusterClient

namespace Provider

variable {p : Provider}

theorem not_admits_iff {t : Table} :
    ¬ p.Admits t ↔ ∃ current, p.table = some current ∧ t.rev < current.rev := by
  simp only [Admits, not_forall, Int.not_le, exists_prop]

theorem markNode?_eq_none_iff {address : String} {state : NodeState} :
    p.markNode? address state = none ↔
      ∀ t, p.table = some t → ∀ n ∈ t.registry.nodes, n.address ≠ address := by
  rw [markNode?, Option.map_eq_none_iff, Option.bind_eq_none_iff]
  refine forall₂_congr fun t _ => ?_
  rw [Table.setNodeState?, Registry.setState?, Option.map_eq_none_iff, Option.map_eq_none_iff,
    List.findIdx?_eq_none_iff]
  simp only [beq_eq_false_iff_ne]

theorem keeps_of_answer {job : Job} {result : FetchResult} {e : ConfigurationError}
    (h : (p.resume job result).2 = .bootstrapped (.error e)) : p.Keeps (p.resume job result).1 := by
  obtain ⟨t, source, hanswer, -⟩ | ⟨-, -, hafter⟩ := resume_of_answer h
  · cases hanswer
  · rw [hafter]
    exact ⟨rfl, rfl, rfl⟩

end Provider

namespace System

variable {x : System} {a : Action}

/-- An operation comes to its end in an action and has no table to publish. -/
inductive Fruitless (x : System) : Action → Prop where
  -- The text describes no table.
  | malformed {text : String} {e : Malformed}
      (hparse : Table.parse text x.provider.maxReplicas = .error e) :
      x.Fruitless (.reconfigure text)
  -- The table is older than the one in force.
  | outdated {text : String} {t current : Table}
      (hparse : Table.parse text x.provider.maxReplicas = .ok t)
      (htable : x.provider.table = some current) (hrev : t.rev < current.rev) :
      x.Fruitless (.reconfigure text)
  -- There is no table, or none of its nodes has the address.
  | unknown {address : String} {state : NodeState}
      (hunknown : ∀ t, x.provider.table = some t → ∀ n ∈ t.registry.nodes, n.address ≠ address) :
      x.Fruitless (.mark address state)
  -- Both attempts of a pass have failed.
  | missed {place : Nat} {result : FetchResult} {q : Provider}
      (hleft : x.leftByPass (.resume place result) = some q)
      (hoffered : x.offered (.resume place result) = none) : x.Fruitless (.resume place result)
  -- The table that a pass has found is older than the one in force.
  | overtaken {place : Nat} {result : FetchResult} {t current : Table}
      (hoffered : x.offered (.resume place result) = some t)
      (htable : x.provider.table = some current) (hrev : t.rev < current.rev) :
      x.Fruitless (.resume place result)
  -- A bootstrap answers with an error.
  | failed {place : Nat} {result : FetchResult} {job : Job} {e : ConfigurationError}
      (hjob : x.jobs[place]? = some job)
      (hanswer : (x.provider.resume job result).2 = .bootstrapped (.error e)) :
      x.Fruitless (.resume place result)

theorem fruitless_reconfigure_iff {text : String} :
    x.Fruitless (.reconfigure text) ↔ ∃ e, x.provider.reconfigure text = .error e := by
  constructor
  · intro h
    cases h with
    | @malformed _ e hparse => exact ⟨.malformed e, by rw [Provider.reconfigure, hparse]⟩
    | outdated hparse htable hrev =>
      exact Provider.reconfigure_of_not_admits hparse
        (Provider.not_admits_iff.mpr ⟨_, htable, hrev⟩)
  · rintro ⟨e, he⟩
    cases hparse : Table.parse text x.provider.maxReplicas with
    | error e => exact .malformed hparse
    | ok t =>
      have hadmits : ¬ x.provider.Admits t := by
        intro hadmits
        rw [Provider.reconfigure_of_admits hparse hadmits] at he
        cases he
      obtain ⟨current, htable, hrev⟩ := Provider.not_admits_iff.mp hadmits
      exact .outdated hparse htable hrev

theorem fruitless_mark_iff {address : String} {state : NodeState} :
    x.Fruitless (.mark address state) ↔ x.provider.markNode? address state = none := by
  rw [Provider.markNode?_eq_none_iff]
  constructor
  · intro h
    cases h with
    | unknown hunknown => exact hunknown
  · exact .unknown

theorem step_ne_of_publications
    (h : (x.step a).provider.publications = x.provider.publications + 1) : x.step a ≠ x := by
  intro hsame
  rw [hsame] at h
  omega

-- What is refused at once leaves everything as it is, and what is not publishes a table.
theorem step_reconfigure_eq_iff {text : String} :
    x.step (.reconfigure text) = x ↔ x.Fruitless (.reconfigure text) := by
  rw [fruitless_reconfigure_iff]
  cases hanswer : x.provider.reconfigure text with
  | error e =>
    rw [step, hanswer]
    exact iff_of_true rfl ⟨e, rfl⟩
  | ok after =>
    obtain ⟨q, t⟩ := after
    obtain ⟨-, rfl⟩ := Provider.reconfigure_spec hanswer
    have hnumber : (x.step (.reconfigure text)).provider.publications =
        x.provider.publications + 1 := by
      rw [step, hanswer]
      rfl
    apply iff_of_false (step_ne_of_publications hnumber)
    rintro ⟨e, he⟩
    cases he

theorem step_mark_eq_iff {address : String} {state : NodeState} :
    x.step (.mark address state) = x ↔ x.Fruitless (.mark address state) := by
  rw [fruitless_mark_iff]
  cases hmark : x.provider.markNode? address state with
  | none =>
    rw [step, hmark]
    exact iff_of_true rfl rfl
  | some q =>
    obtain ⟨t, -, rfl⟩ := Option.map_eq_some_iff.mp hmark
    have hnumber : (x.step (.mark address state)).provider.publications =
        x.provider.publications + 1 := by
      rw [step, hmark]
      rfl
    apply iff_of_false (step_ne_of_publications hnumber)
    intro h
    cases h

-- A pass that has found no table leaves the one in force, and turns to the next pass or to rest.
theorem keeps_of_missed {q : Provider} (hleft : x.leftByPass a = some q)
    (hoffered : x.offered a = none) : x.provider.Keeps (x.step a).provider := by
  rw [step_of_leftByPass hleft]
  obtain ⟨place, result, hadTable, acquisition, rfl, hjob, hafter⟩ := leftByPass_cases hleft
  simp only [offered, hjob] at hoffered
  obtain ⟨t, hfound, -⟩ | ⟨-, rfl⟩ := Provider.afterPass?_cases hafter
  · cases hfound.symm.trans hoffered
  · have hkeeps : x.provider.Keeps
        { x.provider with phase := Provider.phaseAfter hadTable false } := ⟨rfl, rfl, rfl⟩
    exact hkeeps.trans (Provider.keeps_endPass _)

theorem weighs_of_offered {t : Table} (h : x.offered a = some t) :
    x.provider.Weighs t (x.step a).provider := by
  cases x.step_tableStep a with
  | idles hnone => cases h.symm.trans hnone
  | boots hnone => cases h.symm.trans hnone
  | marks hnone => cases h.symm.trans hnone
  | weighs hsome _ hweighs =>
    cases h.symm.trans hsome
    exact hweighs

theorem takes_of_bootstrapped {t : Table} (h : x.bootstrapped a = some t) :
    x.provider.Takes t (x.step a).provider := by
  cases x.step_tableStep a with
  | idles _ hnone => cases h.symm.trans hnone
  | weighs _ hnone => cases h.symm.trans hnone
  | marks _ hnone => cases h.symm.trans hnone
  | boots _ hsome htakes =>
    cases h.symm.trans hsome
    exact htakes

theorem Fruitless.keeps (h : x.Fruitless a) : x.provider.Keeps (x.step a).provider := by
  cases h with
  | malformed hparse =>
    rw [step_reconfigure_eq_iff.mpr (.malformed hparse)]
    exact .refl _
  | outdated hparse htable hrev =>
    rw [step_reconfigure_eq_iff.mpr (.outdated hparse htable hrev)]
    exact .refl _
  | unknown hunknown =>
    rw [step_mark_eq_iff.mpr (.unknown hunknown)]
    exact .refl _
  | missed hleft hoffered => exact keeps_of_missed hleft hoffered
  | overtaken hoffered htable hrev =>
    exact (weighs_of_offered hoffered).keeps (Provider.not_admits_iff.mpr ⟨_, htable, hrev⟩)
  | failed hjob hanswer =>
    simp only [step, hjob]
    exact Provider.keeps_of_answer hanswer

/-! ## From the start to the end -/

/-- A bootstrap or a pass begins in an action; it stands in a place, and begins with a provider. -/
inductive Begins (x : System) : Action → Nat → Provider → Prop where
  | bootstrap : x.Begins .bootstrap x.jobs.length x.provider
  -- The first pass of a refresh.
  | first {place : Nat} {result : FetchResult} (hjob : x.jobs[place]? = some .queued) :
      x.Begins (.resume place result) place x.provider
  -- One more pass, after one during which a signal came.
  | again {place : Nat} {result : FetchResult} {q : Provider}
      (hleft : x.leftByPass (.resume place result) = some q) (hpending : q.isPending = true) :
      x.Begins (.resume place result) place q

theorem Begins.keeps {place : Nat} {p : Provider} (h : x.Begins a place p) :
    p.Keeps (x.step a).provider := by
  cases h with
  | bootstrap => exact ⟨rfl, rfl, rfl⟩
  | first hjob =>
    simp only [step, hjob]
    exact ⟨rfl, rfl, rfl⟩
  | again hleft =>
    rw [step_of_leftByPass hleft]
    exact p.keeps_endPass

theorem Begins.waits {place : Nat} {p : Provider} (h : x.Begins a place p) :
    ∃ job, (x.step a).jobs[place]? = some job ∧ job.asked.isSome = true := by
  cases h with
  | bootstrap => exact ⟨_, List.getElem?_concat_length, rfl⟩
  | first hjob =>
    have hlt := (List.getElem?_eq_some_iff.mp hjob).1
    simp only [step, hjob, Provider.resume_queued, replaced]
    exact ⟨_, List.getElem?_set_self hlt, rfl⟩
  | again hleft hpending =>
    obtain ⟨_, _, hadTable, acquisition, heq, hjob, hafter⟩ := leftByPass_cases hleft
    cases heq
    have hlt := (List.getElem?_eq_some_iff.mp hjob).1
    simp only [step, hjob, Provider.resume_of_afterPass? hafter,
      Provider.endPass_of_pending hpending, replaced]
    exact ⟨_, List.getElem?_set_self hlt, rfl⟩

/-- A pushed descriptor is refused and a mark is without effect exactly if they are fruitless, and
just then everything stays as it is. A signal, and a bootstrap or a pass that begins, leave the
table in force, and so does the piece of work until its last moment, whatever others do in between;
in the last one, too, if it is fruitless. A table that it has found by then is taken over, unless it
was found by a pass and is older. -/
theorem keeps_of_fruitless (x : System) :
    (∀ text, (x.Fruitless (.reconfigure text) ↔ ∃ e, x.provider.reconfigure text = .error e) ∧
        (x.step (.reconfigure text) = x ↔ x.Fruitless (.reconfigure text))) ∧
      (∀ address state, (x.Fruitless (.mark address state) ↔
          x.provider.markNode? address state = none) ∧
        (x.step (.mark address state) = x ↔ x.Fruitless (.mark address state))) ∧
      x.provider.Keeps (x.step .signal).provider ∧
      ∀ a place p, x.Begins a place p → p.Keeps (x.step a).provider ∧
        ∀ as before last, (x.step a).moments place as = before ++ [last] →
          let y := last.system
          (∀ m ∈ before, m.Keeps) ∧
            (y.Fruitless last.action → ∀ m ∈ (x.step a).moments place as, m.Keeps) ∧
            (∀ t, y.bootstrapped last.action = some t →
              y.provider.Takes t (y.step last.action).provider) ∧
            ∀ t, y.offered last.action = some t → y.provider.Admits t →
              y.provider.Takes t (y.step last.action).provider := by
  refine ⟨fun text => ⟨fruitless_reconfigure_iff, step_reconfigure_eq_iff⟩,
    fun address state => ⟨fruitless_mark_iff, step_mark_eq_iff⟩, ?_, ?_⟩
  · simp only [step, Provider.signalOutdated]
    split <;> exact ⟨rfl, rfl, rfl⟩
  · intro a place p hbegins
    refine ⟨hbegins.keeps, fun as before last hmoments => ?_⟩
    obtain ⟨job, hjob, hasked⟩ := hbegins.waits
    have hbefore := keeps_before_last hjob hasked as
    rw [hmoments, List.dropLast_concat] at hbefore
    refine ⟨hbefore, fun hlast m hm => ?_, fun t => takes_of_bootstrapped,
      fun t hoffered => (weighs_of_offered hoffered).takes⟩
    rw [hmoments] at hm
    rcases List.mem_append.mp hm with hm | hm
    · exact hbefore m hm
    · rw [List.mem_singleton.mp hm]
      exact hlast.keeps

/-- The source that the job in a place has asked does not answer. -/
def unanswered (place : Nat) : Action := .resume place (.failed .noResponse)

/-- A bootstrap and a refresh are started on a provider that has a table. -/
def busyRun : List Action := [.reconfigure (soloText "4"), .bootstrap, .signal]

/-- Both find no table. The bootstrap is over first, which moves the refresh, and a newer table is
pushed before the refresh is over. -/
def missingRun : List Action :=
  [unanswered 0, unanswered 1, unanswered 0, .reconfigure (soloText "9"), unanswered 0]

-- The pass of the refresh goes on in its old place and in its new one. Before it begins, an
-- outdated table is refused.
theorem keeps_of_fruitless_busy :
    let x := (start 3 .binary .http).run busyRun
    let y := x.step (unanswered 1)
    let first : Moment := ⟨y.run (missingRun.take 1), unanswered 1⟩
    let last : Moment := ⟨y.run (missingRun.take 4), unanswered 0⟩
    x.Fruitless (.reconfigure (soloText "3")) ∧ x.step (.reconfigure (soloText "3")) = x ∧
      x.Begins (unanswered 1) 1 x.provider ∧ y.moments 1 missingRun = [first] ++ [last] ∧
      last.system.Fruitless last.action ∧ ∀ m ∈ y.moments 1 missingRun, m.Keeps := by
  intro x y first last
  have hparse : Table.parse (soloText "3") x.provider.maxReplicas = .ok (soloTable 3) := by
    decide +kernel
  have htable : x.provider.table = some (soloTable 4) := by decide +kernel
  have hrefused : x.Fruitless (.reconfigure (soloText "3")) :=
    .outdated hparse htable (by decide)
  have hqueued : x.jobs[1]? = some .queued := by decide +kernel
  have hbegins : x.Begins (unanswered 1) 1 x.provider := .first hqueued
  have hmoments : y.moments 1 missingRun = [first] ++ [last] := by decide +kernel
  have hleft : (last.system.leftByPass last.action).isSome = true := by decide +kernel
  have hoffered : last.system.offered last.action = none := by decide +kernel
  obtain ⟨q, hq⟩ := Option.isSome_iff_exists.mp hleft
  have hlast : last.system.Fruitless last.action := .missed hq hoffered
  obtain ⟨hreconfigure, -, -, hwork⟩ := keeps_of_fruitless x
  have hkeeps := ((hwork _ _ _ hbegins).2 _ _ _ hmoments).2.1 hlast
  exact ⟨hrefused, (hreconfigure _).2.mpr hrefused, hbegins, hmoments, hlast, hkeeps⟩

end System

end ClusterClient
