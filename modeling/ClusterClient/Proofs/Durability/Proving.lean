import ClusterClient.Durability.Round
import ClusterClient.Proofs.Durability.Counts
/-!
# Rounds that prove durability

What it means that one round proves a durability: said of the replies of its nodes, without a tally.
A round is tallied correctly if its tally satisfies a request exactly when the round proves it.
-/

namespace ClusterClient

variable {α W : Type}

/-- A report is there within a window. -/
def Delivery.Brings (window : Nat) (d : Delivery (Except TransportError Observation))
    (o : Observation) : Prop :=
  ∃ t, d = ⟨some t, .ok o⟩ ∧ t ≤ window

theorem Delivery.within?_eq_some_iff {window : Nat} {d : Delivery α} {result : α} :
    d.within? window = some result ↔ ∃ t, d = ⟨some t, result⟩ ∧ t ≤ window := by
  unfold within? arrival?
  constructor
  · intro h
    obtain ⟨after, result'⟩ := d
    obtain ⟨t, ht, rfl⟩ := Option.map_eq_some_iff.mp h
    obtain ⟨rfl, hle⟩ := Option.filter_eq_some_iff.mp ht
    exact ⟨t, rfl, of_decide_eq_true hle⟩
  · rintro ⟨t, rfl, ht⟩
    rw [Option.filter_some, if_pos (decide_eq_true ht), Option.map_some]

namespace Observation

/-- The report is of another version than the one waited for, and not of the key's persisted
absence, for which its version does not matter. -/
def ShowsModified (cas : UInt64) (o : Observation) : Prop :=
  o.cas ≠ cas ∧ o.state ≠ .notFoundPersisted

/-- The mutation of a version has reached the node that reports: after a mutation it has found the
key in that version, after a delete it has not found it, persisted or not. -/
def ShowsReached (cas : UInt64) (isDelete : Bool) (o : Observation) : Prop :=
  if isDelete then o.state = .notFoundPersisted ∨ o.cas = cas ∧ o.state = .notFoundNotPersisted
  else o.cas = cas ∧ (o.state = .foundNotPersisted ∨ o.state = .foundPersisted)

/-- The node that reports has persisted the mutation of a version. -/
def ShowsPersisted (cas : UInt64) (isDelete : Bool) (o : Observation) : Prop :=
  if isDelete then o.state = .notFoundPersisted else o.cas = cas ∧ o.state = .foundPersisted

end Observation

/-- A property of reports is read off the outcomes that they stand for, and a missing report does
not have it. -/
structure Outcome.ReadsOff (cas : UInt64) (P : Observation → Prop) (p : Outcome → Bool) : Prop where
  report : ∀ (o : Observation) (x : Outcome), OfReport cas o.cas o.state x → (P o ↔ p x = true)
  error : p .error = false

namespace Observation

variable (cas : UInt64) (isDelete : Bool)

-- In each of these there is one case for each way in which a report stands for an outcome.
theorem readsOff_modified : Outcome.ReadsOff cas (ShowsModified cas) (· == .modified) where
  report := by
    rintro ⟨seen, state⟩ x hx
    cases hx <;> simp_all [ShowsModified]
  error := rfl

theorem readsOff_reached :
    Outcome.ReadsOff cas (ShowsReached cas isDelete) (·.isReached isDelete) where
  report := by
    rintro ⟨seen, state⟩ x hx
    cases hx <;> cases isDelete <;> simp_all [ShowsReached, Outcome.isReached]
  error := rfl

theorem readsOff_persisted :
    Outcome.ReadsOff cas (ShowsPersisted cas isDelete) (·.isPersisted isDelete) where
  report := by
    rintro ⟨seen, state⟩ x hx
    cases hx <;> cases isDelete <;> simp_all [ShowsPersisted, Outcome.isPersisted]
  error := rfl

end Observation

namespace Round

theorem outcome_of_brings {cas : UInt64} {window : Nat}
    {d : Delivery (Except TransportError Observation)} {o : Observation} (h : d.Brings window o) :
    Outcome.OfReport cas o.cas o.state (outcome cas window d) := by
  unfold outcome
  rw [Delivery.within?_eq_some_iff.mpr h]
  exact Outcome.classify_eq_iff.mp rfl

-- Without a report in time the outcome is an error.
theorem outcome_eq_error {cas : UInt64} {window : Nat}
    {d : Delivery (Except TransportError Observation)} (h : ∀ o, ¬ d.Brings window o) :
    outcome cas window d = .error := by
  unfold outcome
  split
  · rename_i o hwithin
    exact absurd (Delivery.within?_eq_some_iff.mp hwithin) (h o)
  · rfl
  · rfl

-- What an outcome shows, a report in time has shown.
theorem outcome_iff {cas : UInt64} {window : Nat}
    {d : Delivery (Except TransportError Observation)} {P : Observation → Prop} {p : Outcome → Bool}
    (hp : Outcome.ReadsOff cas P p) :
    p (outcome cas window d) = true ↔ ∃ o, d.Brings window o ∧ P o := by
  constructor
  · intro h
    by_cases hbrings : ∃ o, d.Brings window o
    · obtain ⟨o, ho⟩ := hbrings
      exact ⟨o, ho, (hp.report o _ (outcome_of_brings ho)).mpr h⟩
    · rw [outcome_eq_error (not_exists.mp hbrings), hp.error] at h
      cases h
  · rintro ⟨o, ho, h⟩
    exact (hp.report o _ (outcome_of_brings ho)).mp h

/-! ## Replica slots -/

/-- Entries for the slots that can be reached, put at the places of their slots. -/
def bySlot : List (Option Node) → List α → List (Option α)
  | [], _ => []
  | none :: slots, as => none :: bySlot slots as
  | some _ :: slots, a :: as => some a :: bySlot slots as
  | some _ :: slots, [] => none :: bySlot slots []

-- The entries stand at the slots that can be reached, in their order.
theorem filterMap_bySlot {slots : List (Option Node)} {as : List α}
    (h : as.length = (slots.filterMap id).length) : (bySlot slots as).filterMap id = as := by
  induction slots generalizing as with
  | nil => exact (List.eq_nil_of_length_eq_zero h).symm
  | cons slot slots ih =>
    cases slot with
    | none => exact ih h
    | some node =>
      cases as with
      | nil => cases h
      | cons a as => exact congrArg (a :: ·) (ih (Nat.succ.inj h))

theorem countP_bySlot {slots : List (Option Node)} {as : List α}
    (h : as.length = (slots.filterMap id).length) (p : α → Bool) :
    (bySlot slots as).countP (·.any p) = as.countP p := by
  have hany : ∀ x : Option α, x.any p = ((id x).map p).getD false := by
    intro x
    cases x <;> rfl
  rw [List.countP_congr fun x _ => by rw [hany], ← List.countP_filterMap, filterMap_bySlot h]

/-- The primary has answered in time, with a report that has a property. -/
def PrimaryAnswers (r : Round) (P : Observation → Prop) : Prop :=
  ∃ d, r.deliveries.head? = some d ∧ ∃ o, d.Brings r.window o ∧ P o

/-- The replica in a slot of the partition has answered in time, with a report that has a
property. -/
def SlotAnswers (r : Round) (P : Observation → Prop) (slot : Nat) : Prop :=
  ∃ d, (bySlot r.route.replicas r.deliveries.tail)[slot]? = some (some d) ∧
    ∃ o, d.Brings r.window o ∧ P o

/-- The replies of the round show, by themselves, the durability that is asked for. -/
structure Proves (r : Round) (request : DurabilityRequest) : Prop where
  notModified : ¬ r.PrimaryAnswers (·.ShowsModified request.cas)
  replicated : ∃ slots : Finset Nat, request.replicateTo.count ≤ slots.card ∧
    ∀ slot ∈ slots, r.SlotAnswers (·.ShowsReached request.cas request.isDelete) slot
  persisted : ∃ slots : Finset Nat, request.persistTo.count - 1 ≤ slots.card ∧
    ∀ slot ∈ slots, r.SlotAnswers (·.ShowsPersisted request.cas request.isDelete) slot
  primary : request.persistTo ≠ .zero →
    r.PrimaryAnswers (·.ShowsPersisted request.cas request.isDelete)

/-- Every target was asked. -/
def IsComplete (r : Round) : Prop := r.deliveries.length = r.route.targets.length

theorem length_broadcast (s : Surroundings W) (w : W) (now : Nat) (key : String) (cas : UInt64)
    (partition : Nat) (nodes : List Node) :
    (broadcast s w now key cas partition nodes).2.length = nodes.length := by
  induction nodes generalizing w with
  | nil => rfl
  | cons node rest ih => exact congrArg (· + 1) (ih _)

theorem isComplete_run (s : Surroundings W) (w : W) (now window : Nat) (key : String)
    (cas : UInt64) (r : Route) : (run s w now window key cas r).2.IsComplete :=
  length_broadcast s w now key cas r.partition r.targets

theorem exists_slots_iff {r : Round} (h : r.IsComplete) {cas : UInt64} {P : Observation → Prop}
    {p : Outcome → Bool} (hp : Outcome.ReadsOff cas P p) (n : Nat) :
    (∃ slots : Finset Nat, n ≤ slots.card ∧ ∀ slot ∈ slots, r.SlotAnswers P slot) ↔
      n ≤ (r.deliveries.tail.map (outcome cas r.window)).countP p := by
  have hlength : r.deliveries.tail.length = (r.route.replicas.filterMap id).length := by
    rw [List.length_tail, h, Route.targets, List.length_cons, Nat.add_sub_cancel]
  have hanswers : ∀ slot, r.SlotAnswers P slot ↔
      ∃ x, (bySlot r.route.replicas r.deliveries.tail)[slot]? = some x ∧
        x.any (fun d => p (outcome cas r.window d)) = true := by
    intro slot
    constructor
    · rintro ⟨d, hd, ho⟩
      exact ⟨some d, hd, (outcome_iff hp).mpr ho⟩
    · rintro ⟨x, hx, hany⟩
      obtain ⟨d, rfl, hd⟩ := (Option.any_eq_true _ _).mp hany
      exact ⟨d, hx, (outcome_iff hp).mp hd⟩
  simp only [hanswers]
  rw [exists_places_iff, countP_bySlot hlength, List.countP_map]
  rfl

theorem primaryAnswers_iff {r : Round} {d : Delivery (Except TransportError Observation)}
    {ds : List (Delivery (Except TransportError Observation))} (h : r.deliveries = d :: ds)
    {cas : UInt64} {P : Observation → Prop} {p : Outcome → Bool} (hp : Outcome.ReadsOff cas P p) :
    r.PrimaryAnswers P ↔ p (outcome cas r.window d) = true := by
  rw [outcome_iff hp, PrimaryAnswers, h]
  constructor
  · rintro ⟨d', hd, ho⟩
    cases hd
    exact ho
  · exact fun ho => ⟨d, rfl, ho⟩

-- The first outcome is marked as the primary's, the others as replicas'.
theorem mapIdx_isFirst (o : Outcome) (os : List Outcome) :
    (o :: os).mapIdx (fun i o => (i == 0, o)) = (true, o) :: os.map (false, ·) := by
  have hothers : os.mapIdx (fun i o => (i + 1 == 0, o)) = os.map (false, ·) := by
    induction os using List.reverseRecOn with
    | nil => rfl
    | append_singleton os o ih =>
      rw [List.mapIdx_concat, ih, List.map_append]
      rfl
  rw [List.mapIdx_cons, hothers]
  rfl

theorem marked_eq {r : Round} {d : Delivery (Except TransportError Observation)}
    {ds : List (Delivery (Except TransportError Observation))} (h : r.deliveries = d :: ds)
    (cas : UInt64) :
    r.marked cas =
      (true, outcome cas r.window d) :: (ds.map (outcome cas r.window)).map (false, ·) := by
  rw [marked, outcomes, h, List.map_cons, mapIdx_isFirst]

/-- The tally of a round says what its replies say. -/
theorem tally_satisfies_iff {r : Round} (h : r.IsComplete) (request : DurabilityRequest) :
    (r.tally request).masterModified = false ∧
        (r.tally request).satisfies request.persistTo request.replicateTo = true ↔
      r.Proves request := by
  cases hdeliveries : r.deliveries with
  | nil =>
    rw [IsComplete, hdeliveries] at h
    cases h
  | cons d ds =>
    have hmodified := primaryAnswers_iff hdeliveries (Observation.readsOff_modified request.cas)
    have hprimary := primaryAnswers_iff hdeliveries
      (Observation.readsOff_persisted request.cas request.isDelete)
    have hreplicated := exists_slots_iff h
      (Observation.readsOff_reached request.cas request.isDelete) request.replicateTo.count
    have hpersisted := exists_slots_iff h
      (Observation.readsOff_persisted request.cas request.isDelete) (request.persistTo.count - 1)
    rw [hdeliveries, List.tail_cons] at hreplicated hpersisted
    rw [tally, marked_eq hdeliveries, Tally.ofOutcomes_cons, Tally.satisfies]
    simp only [Bool.and_eq_true, decide_eq_true_eq, Bool.or_eq_true, beq_iff_eq]
    constructor
    · rintro ⟨hnot, ⟨hreached, hwritten⟩, hmaster⟩
      refine ⟨?_, hreplicated.mpr hreached, hpersisted.mpr hwritten, fun hne => ?_⟩
      · rw [hmodified, hnot]
        exact Bool.false_ne_true
      · exact hprimary.mpr (hmaster.resolve_left hne)
    · intro hproves
      refine ⟨?_, ⟨hreplicated.mp hproves.replicated, hpersisted.mp hproves.persisted⟩, ?_⟩
      · rw [← Bool.not_eq_true, ← hmodified]
        exact hproves.notModified
      · by_cases hzero : request.persistTo = .zero
        · exact .inl hzero
        · exact .inr (hprimary.mp (hproves.primary hzero))

end Round

end ClusterClient
