import ClusterClient.Proofs.Provider.PassPhase
/-!
# One piece of work in a run

A bootstrap or a pass goes on at a few moments of a run, and others act in between. A job is known
by its place, which changes when a job before it is gone. Before its last moment a piece of work
does nothing but turn to another source.
-/

namespace ClusterClient

-- The action lets the job in a place go on.
def Action.resumes : Action → Nat → Bool
  | resume place _, other => place == other
  | _, _ => false

theorem Action.eq_resume {a : Action} {place : Nat} (h : a.resumes place = true) :
    ∃ result, a = .resume place result := by
  cases a with
  | resume other result =>
    have hplace : other = place := eq_of_beq h
    exact ⟨result, by rw [hplace]⟩
  | _ => cases h

/-- An action in a run, with the system in which it is done. -/
structure Moment where
  system : System
  action : Action
  deriving DecidableEq

/-- The action leaves the table in force, with what is known of it. -/
def Moment.Keeps (m : Moment) : Prop :=
  m.system.provider.Keeps (m.system.step m.action).provider

namespace System

variable {x : System} {a : Action} {place place' : Nat}

/-! ## Places -/

/-- The place of the job that is gone after an action; the jobs behind it move up. -/
def vacated? (x : System) : Action → Option Nat
  | .resume place result =>
    match x.jobs[place]? with
    | some job => if (x.provider.resume job result).2.left.isEmpty then some place else none
    | none => none
  | .leave place => if x.jobs[place]?.any (!·.isRefresh) then some place else none
  | .abort place => if x.jobs[place]?.any (·.isRefresh) then some place else none
  | _ => none

/-- Where the job in a place stands after an action, unless it is gone. -/
def moved? (x : System) (place : Nat) (a : Action) : Option Nat :=
  match x.vacated? a with
  | none => some place
  | some other =>
    if other = place then none else if other < place then some (place - 1) else some place

-- Either one job goes away, or each stays in its place and only one that goes on changes.
theorem jobs_step (x : System) (a : Action) :
    (∃ place, x.vacated? a = some place ∧ (x.step a).jobs = x.jobs.eraseIdx place) ∨
      (x.vacated? a = none ∧ ∀ place, place < x.jobs.length → a.resumes place = false →
        (x.step a).jobs[place]? = x.jobs[place]?) := by
  cases a with
  | bootstrap => exact .inr ⟨rfl, fun place hlt _ => List.getElem?_append_left hlt⟩
  | signal =>
    refine .inr ⟨rfl, fun place hlt _ => ?_⟩
    simp only [step]
    split
    · exact List.getElem?_append_left hlt
    · rfl
  | resume place result =>
    cases hjob : x.jobs[place]? with
    | none =>
      have hvacated : x.vacated? (.resume place result) = none := by simp only [vacated?, hjob]
      have hstep : x.step (.resume place result) = x := by simp only [step, hjob]
      rw [hstep]
      exact .inr ⟨hvacated, fun _ _ _ => rfl⟩
    | some job =>
      simp only [vacated?, step, hjob]
      cases hprogress : (x.provider.resume job result).2 with
      | waits next =>
        exact .inr ⟨rfl, fun other _ hother => List.getElem?_set_ne (ne_of_beq_false hother)⟩
      | bootstrapped answer => exact .inl ⟨place, rfl, rfl⟩
      | refreshed => exact .inl ⟨place, rfl, rfl⟩
      | crashed => exact .inl ⟨place, rfl, rfl⟩
  | leave place =>
    rw [vacated?, step]
    by_cases hany : x.jobs[place]?.any (!·.isRefresh) = true
    · rw [if_pos hany, if_pos hany]
      exact .inl ⟨place, rfl, rfl⟩
    · rw [if_neg hany, if_neg hany]
      exact .inr ⟨rfl, fun _ _ _ => rfl⟩
  | abort place =>
    rw [vacated?, step]
    by_cases hany : x.jobs[place]?.any (·.isRefresh) = true
    · rw [if_pos hany, if_pos hany]
      exact .inl ⟨place, rfl, rfl⟩
    · rw [if_neg hany, if_neg hany]
      exact .inr ⟨rfl, fun _ _ _ => rfl⟩
  | reconfigure text =>
    refine .inr ⟨rfl, fun _ _ _ => ?_⟩
    simp only [step]
    split <;> rfl
  | mark address state =>
    refine .inr ⟨rfl, fun _ _ _ => ?_⟩
    simp only [step]
    split <;> rfl

-- The job is where it is said to be.
theorem getElem?_of_moved? (h : x.moved? place a = some place') (hlt : place < x.jobs.length)
    (hother : a.resumes place = false) : (x.step a).jobs[place']? = x.jobs[place]? := by
  rcases x.jobs_step a with ⟨other, hvacated, hjobs⟩ | ⟨hvacated, hjobs⟩
  · rw [hjobs, List.getElem?_eraseIdx]
    simp only [moved?, hvacated] at h
    by_cases hsame : other = place
    · rw [if_pos hsame] at h
      cases h
    · rw [if_neg hsame] at h
      by_cases hbefore : other < place
      · rw [if_pos hbefore] at h
        cases h
        rw [if_neg (by omega), Nat.sub_add_cancel (by omega)]
      · rw [if_neg hbefore] at h
        cases h
        rw [if_pos (by omega)]
  · simp only [moved?, hvacated] at h
    cases h
    exact hjobs place hlt hother

-- What goes on and is not gone waits where it was.
theorem waits_of_moved? {job : Job} {result : FetchResult} (hjob : x.jobs[place]? = some job)
    (h : x.moved? place (.resume place result) = some place') :
    place' = place ∧ ∃ next, (x.provider.resume job result).2 = .waits next ∧
      (x.step (.resume place result)).jobs[place]? = some next := by
  have hlt := (List.getElem?_eq_some_iff.mp hjob).1
  simp only [moved?, vacated?, hjob] at h
  simp only [step, hjob]
  generalize (x.provider.resume job result).2 = progress at h ⊢
  cases progress with
  | waits next =>
    cases h
    exact ⟨rfl, next, rfl, List.getElem?_set_self hlt⟩
  | _ =>
    have hgone : (if place = place then none else some place) = some place' := by
      simpa only [Progress.left, List.isEmpty_nil, if_true] using h
    rw [if_pos rfl] at hgone
    cases hgone

/-! ## Moments -/

/-- Where a bootstrap or a pass stands after an action, unless it is over. A pass can be over and
its job go on with another one. -/
def next? (x : System) (place : Nat) (a : Action) : Option Nat :=
  if a.resumes place && (x.leftByPass a).isSome then none else x.moved? place a

/-- The moments of a run at which the bootstrap or the pass in a place goes on, until it is over. -/
def moments (x : System) (place : Nat) : List Action → List Moment
  | [] => []
  | a :: as =>
    let later := match x.next? place a with
      | some place => (x.step a).moments place as
      | none => []
    if a.resumes place then ⟨x, a⟩ :: later else later

-- A piece of work that goes on and is not over has turned to another source.
theorem keeps_of_waits {job next : Job} {result : FetchResult} (hjob : x.jobs[place]? = some job)
    (hasked : job.asked.isSome = true)
    (hleft : (x.leftByPass (.resume place result)).isSome = false)
    (hwaits : (x.provider.resume job result).2 = .waits next) :
    next.asked.isSome = true ∧ x.provider.Keeps (x.provider.resume job result).1 := by
  cases job with
  | queued => cases hasked
  | bootstrapping a =>
    have hstep := x.provider.resume_bootstrapping a result
    generalize x.provider.resume (.bootstrapping a) result = after at hstep hwaits ⊢
    cases hstep with
    | breaks => cases hwaits
    | ends => cases hwaits
    | asks =>
      cases hwaits
      exact ⟨rfl, .refl _⟩
  | refreshing hadTable a =>
    simp only [leftByPass, hjob] at hleft
    have hstep := x.provider.resume_refreshing hadTable a result
    generalize x.provider.resume (.refreshing hadTable a) result = after at hstep hwaits ⊢
    cases hstep with
    | breaks => cases hwaits
    | ends _ hafter =>
      rw [hafter] at hleft
      cases hleft
    | asks =>
      cases hwaits
      exact ⟨rfl, .refl _⟩

theorem step_of_next? {job : Job} (hjob : x.jobs[place]? = some job)
    (hasked : job.asked.isSome = true) (h : x.next? place a = some place') :
    (∃ next, (x.step a).jobs[place']? = some next ∧ next.asked.isSome = true) ∧
      (a.resumes place = true → (Moment.mk x a).Keeps) := by
  unfold next? at h
  cases hown : a.resumes place with
  | false =>
    have hlt := (List.getElem?_eq_some_iff.mp hjob).1
    rw [hown] at h
    rw [getElem?_of_moved? h hlt hown]
    exact ⟨⟨job, hjob, hasked⟩, fun h => by cases h⟩
  | true =>
    obtain ⟨result, rfl⟩ := Action.eq_resume hown
    rw [hown, Bool.true_and] at h
    by_cases hleft : (x.leftByPass (.resume place result)).isSome = true
    · rw [if_pos hleft] at h
      cases h
    · rw [if_neg hleft] at h
      have hgoing : (x.leftByPass (.resume place result)).isSome = false :=
        Bool.eq_false_iff.mpr hleft
      obtain ⟨rfl, next, hwaits, hnext⟩ := waits_of_moved? hjob h
      obtain ⟨hasked', hkeeps⟩ := keeps_of_waits hjob hasked hgoing hwaits
      refine ⟨⟨next, hnext, hasked'⟩, fun _ => ?_⟩
      rw [Moment.Keeps, step, hjob]
      exact hkeeps

/-- Whatever others do meanwhile, a piece of work leaves the table in force before its last moment.
-/
theorem keeps_before_last {job : Job} (hjob : x.jobs[place]? = some job)
    (hasked : job.asked.isSome = true) (as : List Action) :
    ∀ m ∈ (x.moments place as).dropLast, m.Keeps := by
  induction as generalizing x place job with
  | nil => exact fun m hm => absurd hm List.not_mem_nil
  | cons a as ih =>
    intro m hm
    rw [moments] at hm
    cases hnext : x.next? place a with
    | none =>
      rw [hnext] at hm
      split at hm <;> cases hm
    | some place' =>
      obtain ⟨⟨next, hjob', hasked'⟩, hkeeps⟩ := step_of_next? hjob hasked hnext
      have hlater := ih hjob' hasked'
      rw [hnext] at hm
      by_cases hown : a.resumes place = true
      · simp only [if_pos hown] at hm
        by_cases hend : (x.step a).moments place' as = []
        · rw [hend] at hm
          cases hm
        · rw [List.dropLast_cons_of_ne_nil hend] at hm
          rcases List.mem_cons.mp hm with rfl | hm
          · exact hkeeps hown
          · exact hlater m hm
      · simp only [if_neg hown] at hm
        exact hlater m hm

end System

end ClusterClient
