import ClusterClient.Connection
import ClusterClient.Proofs.Durability.Confirmed
import ClusterClient.Proofs.Provider.Revisions
/-!
# Kinds of connections and of tables

A connection records the kind of its first table. Tables of either kind are taken over later on,
and the kind of the table in force decides which durabilities can be confirmed. The two kinds agree
as long as every table that is taken over has the kind of the first one.
-/

namespace ClusterClient

namespace DurabilityRequest

variable {r : DurabilityRequest}

theorem replicasNeeded_pos (hpersist : r.persistTo = .zero) (h : r.isTrivial = false) :
    0 < r.replicasNeeded := by
  have hreplicate : 0 < r.replicateTo.count := by
    cases hcount : r.replicateTo with
    | zero =>
      rw [isTrivial, hpersist, hcount] at h
      cases h
    | one => decide
    | two => decide
    | three => decide
  exact Nat.lt_of_lt_of_le hreplicate (Nat.le_max_left _ _)

-- Without partitions nothing can be confirmed but what needs no confirmation.
theorem not_isSatisfiable_of_simple {route : Route} (hkind : route.table.kind = .simple)
    (h : r.isTrivial = false) : r.isSatisfiable route = false := by
  have havailable : available route = 0 := by rw [available, hkind]
  rw [isSatisfiable, havailable, hkind]
  by_cases hpersist : r.persistTo = .zero
  · have hneeded := replicasNeeded_pos hpersist h
    rw [decide_eq_false (by omega), Bool.and_false]
  · rw [bne_iff_ne.mpr hpersist]
    rfl

end DurabilityRequest

namespace System

variable {x : System} {a : Action}

/-! ## The kind of the table in force -/

def kind? (x : System) : Option TableKind := x.provider.table.map (·.kind)

/-- The table of a descriptor that a step takes over. -/
def adopted? (x : System) (a : Action) : Option Table :=
  if x.provider.publications < (x.step a).provider.publications
  then (x.offered a).or (x.bootstrapped a) else none

/-- The tables of descriptors that a run takes over. -/
def adopted (x : System) : List Action → List Table
  | [] => []
  | a :: as => (x.adopted? a).toList ++ (x.step a).adopted as

theorem adopted?_of_keeps (h : x.provider.Keeps (x.step a).provider) : x.adopted? a = none := by
  have hnumber := h.publications
  rw [adopted?, if_neg (by omega)]

theorem adopted?_of_takes {t : Table} (h : x.provider.Takes t (x.step a).provider) :
    x.adopted? a = (x.offered a).or (x.bootstrapped a) := by
  have hnumber := h.publications
  rw [adopted?, if_pos (by omega)]

theorem kind?_of_keeps (h : x.provider.Keeps (x.step a).provider) : (x.step a).kind? = x.kind? := by
  rw [kind?, kind?, h.table]

theorem kind?_of_takes {t : Table} (h : x.provider.Takes t (x.step a).provider) :
    (x.step a).kind? = some t.kind := by
  rw [kind?, h.table]
  rfl

-- The kind changes with a table of a descriptor only: a mark copies a table with its kind.
theorem kind?_step (x : System) (a : Action) :
    (x.step a).kind? = ((x.adopted? a).map (·.kind)).or x.kind? := by
  cases x.step_tableStep a with
  | idles _ _ hkeeps =>
    rw [adopted?_of_keeps hkeeps, kind?_of_keeps hkeeps]
    rfl
  | @weighs t hoffered _ hweighs =>
    by_cases hadmits : x.provider.Admits t
    · have htakes := hweighs.takes hadmits
      rw [adopted?_of_takes htakes, kind?_of_takes htakes, hoffered]
      rfl
    · have hkeeps := hweighs.keeps hadmits
      rw [adopted?_of_keeps hkeeps, kind?_of_keeps hkeeps]
      rfl
  | boots hoffered hbootstrapped htakes =>
    rw [adopted?_of_takes htakes, kind?_of_takes htakes, hoffered, hbootstrapped]
    rfl
  | marks hoffered hbootstrapped hold hmark htakes =>
    rw [adopted?_of_takes htakes, kind?_of_takes htakes, hoffered, hbootstrapped, kind?, hold,
      (Table.sameLayout_of_setNodeState? hmark).kind]
    rfl

theorem kind?_run (x : System) (as : List Action) :
    (x.run as).kind? = ((x.adopted as).getLast?.map (·.kind)).or x.kind? := by
  induction as generalizing x with
  | nil => rfl
  | cons a as ih =>
    have hlast : (x.adopted? a).toList.getLast? = x.adopted? a := by
      cases x.adopted? a <;> rfl
    rw [run_cons, ih, kind?_step, adopted, List.getLast?_append, hlast, Option.map_or,
      Option.or_assoc]

theorem kind?_step_eq_iff {k : TableKind} (h : x.kind? = some k) :
    (x.step a).kind? = some k ↔ ∀ t ∈ (x.adopted? a).toList, t.kind = k := by
  rw [kind?_step, h]
  cases x.adopted? a with
  | none => exact iff_of_true rfl nofun
  | some t => simp only [Option.map_some, Option.some_or, Option.some.injEq, Option.toList_some,
      List.mem_singleton, forall_eq]

-- The kind stays the same all along a run if no table of the other kind is taken over.
theorem forall_kind?_run_iff {k : TableKind} (h : x.kind? = some k) (as : List Action) :
    (∀ bs, bs <+: as → (x.run bs).kind? = some k) ↔ ∀ t ∈ x.adopted as, t.kind = k := by
  induction as generalizing x with
  | nil =>
    refine iff_of_true (fun bs hbs => ?_) (fun t ht => absurd ht List.not_mem_nil)
    rw [List.prefix_nil.mp hbs]
    exact h
  | cons a as ih =>
    constructor
    · intro hall t ht
      have hstep : (x.step a).kind? = some k := hall [a] ⟨as, rfl⟩
      rcases List.mem_append.mp ht with ht | ht
      · exact (kind?_step_eq_iff h).mp hstep t ht
      · have hlater : ∀ bs, bs <+: as → ((x.step a).run bs).kind? = some k := fun bs hbs =>
          hall (a :: bs) (List.cons_prefix_cons.mpr ⟨rfl, hbs⟩)
        exact (ih hstep).mp hlater t ht
    · intro hall bs hbs
      have hstep : (x.step a).kind? = some k := by
        rw [kind?_step_eq_iff h]
        exact fun t ht => hall t (List.mem_append_left _ ht)
      rcases List.prefix_cons_iff.mp hbs with rfl | ⟨cs, rfl, hcs⟩
      · exact h
      · apply (ih hstep).mpr _ cs hcs
        exact fun t ht => hall t (List.mem_append_right _ ht)

/-! ## Connecting -/

/-- The bootstrap in the first place goes on with what comes of asking its sources, until it
answers; nothing if it breaks down or still waits. -/
def answered? (x : System) : List FetchResult → Option (System × Except ConfigurationError Table)
  | [] => none
  | result :: results =>
    let y := x.step (.resume 0 result)
    match x.jobs[0]?.map fun job => (x.provider.resume job result).2 with
    | some (.bootstrapped answer) => some (y, answer)
    | _ => y.answered? results

/-- Connect with a provider of its own, on which nothing else happens meanwhile: the provider
afterwards, and the connection or why there is none. -/
def connect? (maxReplicas : Nat) (binaryReports httpReports : Source)
    (results : List FetchResult) : Option (System × Except ConfigurationError Connection) :=
  (((start maxReplicas binaryReports httpReports).step .bootstrap).answered? results).map
    fun (x, answer) => (x, Connection.ofBootstrap answer)

theorem table_of_answered? {y : System} {t : Table} {results : List FetchResult}
    (h : x.answered? results = some (y, .ok t)) : y.provider.table = some t := by
  induction results generalizing x with
  | nil => cases h
  | cons result results ih =>
    rw [answered?] at h
    split at h
    · rename_i answer hanswer
      cases h
      obtain ⟨job, hjob, hbootstrapped⟩ := Option.map_eq_some_iff.mp hanswer
      simp only [step, hjob]
      obtain ⟨u, source, hu, hafter⟩ | ⟨e, he, -⟩ := Provider.resume_of_answer hbootstrapped
      · cases hu
        rw [hafter]
        rfl
      · cases he
    · exact ih h

-- A connection has the kind of the table that is in force when it is made.
theorem kind?_of_connect? {maxReplicas : Nat} {binaryReports httpReports : Source}
    {results : List FetchResult} {c : Connection}
    (h : connect? maxReplicas binaryReports httpReports results = some (x, .ok c)) :
    x.kind? = some c.kind := by
  obtain ⟨⟨y, answer⟩, hanswered, hconnection⟩ := Option.map_eq_some_iff.mp h
  cases answer with
  | error e => cases hconnection
  | ok t =>
    cases hconnection
    rw [kind?, table_of_answered? hanswered]
    rfl

/-- The kind of a connection is that of the table in force exactly if the last table that was taken
over from a descriptor since has it, and it never differs if they all have it. What a durability can
be confirmed for depends on the table in force: if that is simple, on nothing that needs it. -/
theorem connection_kind_iff {maxReplicas : Nat} {binaryReports httpReports : Source}
    {results : List FetchResult} {x : System} {c : Connection}
    (h : connect? maxReplicas binaryReports httpReports results = some (x, .ok c))
    (as : List Action) :
    ((x.run as).kind? = some c.kind ↔
        ∀ t, (x.adopted as).getLast? = some t → t.kind = c.kind) ∧
      ((∀ bs, bs <+: as → (x.run bs).kind? = some c.kind) ↔
        ∀ t ∈ x.adopted as, t.kind = c.kind) ∧
      ∀ key route, ClusterClient.route (x.run as).provider.table key = .ok route →
        (x.run as).kind? = some route.table.kind ∧
          (route.table.kind = .simple → ∀ r : DurabilityRequest, r.isTrivial = false →
            r.isSatisfiable route = false) := by
  have hkind := kind?_of_connect? h
  refine ⟨?_, forall_kind?_run_iff hkind as, fun key route hroute => ⟨?_, fun hsimple r hr => ?_⟩⟩
  · rw [kind?_run, hkind]
    cases (x.adopted as).getLast? with
    | none => exact iff_of_true rfl nofun
    | some t => simp only [Option.map_some, Option.some_or, Option.some.injEq, forall_eq']
  · rw [kind?, (route_spec hroute).1]
    rfl
  · exact DurabilityRequest.not_isSatisfiable_of_simple hsimple hr

/-- The binary source answers with a simple table. -/
def soloAnswer : List FetchResult := [.descriptors [⟨"h", soloText "1"⟩]]

def soloConnected : System :=
  ((start 3 .binary .http).step .bootstrap).run (soloAnswer.map (.resume 0))

theorem connect?_soloAnswer :
    connect? 3 .binary .http soloAnswer = some (soloConnected, .ok ⟨.simple⟩) := by
  decide +kernel

-- A newer table of the same kind is pushed, and the connection still has the kind of its table.
theorem connection_kind_solo :
    connect? 3 .binary .http soloAnswer = some (soloConnected, .ok ⟨.simple⟩) ∧
      soloConnected.adopted [.reconfigure (soloText "4")] = [soloTable 4] ∧
      (soloConnected.run [.reconfigure (soloText "4")]).kind? = some .simple := by
  have hadopted : soloConnected.adopted [.reconfigure (soloText "4")] = [soloTable 4] := by
    decide +kernel
  have hlast : ∀ t, (soloConnected.adopted [.reconfigure (soloText "4")]).getLast? = some t →
      t.kind = .simple := by
    intro t ht
    rw [hadopted] at ht
    cases ht
    rfl
  exact ⟨connect?_soloAnswer, hadopted, (connection_kind_iff connect?_soloAnswer _).1.mpr hlast⟩

-- A table with partitions is pushed to a connection that was made without.
theorem connection_kind_outlived :
    ¬ ∀ results x c as, connect? 3 .binary .http results = some (x, .ok c) →
      (x.run as).kind? = some c.kind := by
  intro h
  have hkind : (soloConnected.run pairRun).kind? = some .partitioned := by decide +kernel
  cases hkind.symm.trans (h _ _ _ _ connect?_soloAnswer)

end System

end ClusterClient
