import ClusterClient.Proofs.Provider.Attempts
import ClusterClient.Proofs.Provider.Revisions
import ClusterClient.Rehearsal.Play
/-!
# Bootstraps

A bootstrap asks the binary source, and the other one if that attempt gives no table. The first
table is published; after two failures there is none. Each attempt is given up at the time limit, so
a bootstrap takes two such limits at most.
-/

namespace ClusterClient

variable {limit : Duration} {q r after : Provider} {deliver : Source → Delivery FetchResult}
  {answer : Except ConfigurationError Table} {asked : List Source}

/-- How a bootstrap turns out whose sources deliver something: its answer, the provider that it
leaves, and the sources that it has asked. Others may use the provider meanwhile, which make `q` of
it up to the end of the first attempt and `r` up to that of the second. -/
inductive Bootstraps (limit : Duration) (q r : Provider)
    (deliver : Source → Delivery FetchResult) :
    Except ConfigurationError Table → Provider → List Source → Prop where
  | first {t : Table} (h : Attempted .binary q.maxReplicas limit (deliver .binary) (.ok t)) :
      Bootstraps limit q r deliver (.ok t) { q.publish t .binary with phase := .ready } [.binary]
  | second {e : AttemptError} {t : Table}
      (h : Attempted .binary q.maxReplicas limit (deliver .binary) (.error e))
      (h' : Attempted .http r.maxReplicas limit (deliver .http) (.ok t)) :
      Bootstraps limit q r deliver (.ok t) { r.publish t .http with phase := .ready }
        [.binary, .http]
  | neither {e e' : AttemptError}
      (h : Attempted .binary q.maxReplicas limit (deliver .binary) (.error e))
      (h' : Attempted .http r.maxReplicas limit (deliver .http) (.error e')) :
      Bootstraps limit q r deliver
        (.error (.noValidConfiguration [⟨.binary, e⟩, ⟨.http, e'⟩])) { r with phase := .failed }
        [.binary, .http]

namespace Bootstraps

-- What is delivered decides how a bootstrap turns out.
theorem unique {answer' : Except ConfigurationError Table} {after' : Provider}
    {asked' : List Source} (h : Bootstraps limit q r deliver answer after asked)
    (h' : Bootstraps limit q r deliver answer' after' asked') :
    answer' = answer ∧ after' = after ∧ asked' = asked := by
  cases h with
  | first h =>
    cases h' with
    | first g =>
      cases h.unique g
      exact ⟨rfl, rfl, rfl⟩
    | second g => cases h.unique g
    | neither g => cases h.unique g
  | second h k =>
    cases h' with
    | first g => cases h.unique g
    | second g l =>
      cases k.unique l
      exact ⟨rfl, rfl, rfl⟩
    | neither g l => cases k.unique l
  | neither h k =>
    cases h' with
    | first g => cases h.unique g
    | second g l => cases k.unique l
    | neither g l =>
      cases h.unique g
      cases k.unique l
      exact ⟨rfl, rfl, rfl⟩

-- A bootstrap gives a table exactly if one of its attempts does.
theorem ok_iff (h : Bootstraps limit q r deliver answer after asked) :
    (∃ t, answer = .ok t) ↔
      (∃ t, Attempted .binary q.maxReplicas limit (deliver .binary) (.ok t)) ∨
        ∃ t, Attempted .http r.maxReplicas limit (deliver .http) (.ok t) := by
  cases h with
  | first h => exact iff_of_true ⟨_, rfl⟩ (.inl ⟨_, h⟩)
  | second h k => exact iff_of_true ⟨_, rfl⟩ (.inr ⟨_, k⟩)
  | neither h k =>
    refine iff_of_false (by rintro ⟨t, ht⟩; cases ht) ?_
    rintro (⟨t, g⟩ | ⟨t, g⟩)
    · cases h.unique g
    · cases k.unique g

/-- The ticks that a bootstrap waits for its sources. -/
def ticks (limit : Duration) (deliver : Source → Delivery FetchResult) (asked : List Source) :
    Nat :=
  asked.foldr (fun source ticks => (deliver source).waited limit.ticks + ticks) 0

theorem ticks_le (h : Bootstraps limit q r deliver answer after asked) :
    ticks limit deliver asked ≤ 2 * limit.ticks := by
  have hwaited := fun source => (deliver source).waited_le limit.ticks
  have hbinary := hwaited .binary
  have hhttp := hwaited .http
  cases h with
  | first =>
    show (deliver .binary).waited limit.ticks + 0 ≤ _
    omega
  | second =>
    show (deliver .binary).waited limit.ticks + ((deliver .http).waited limit.ticks + 0) ≤ _
    omega
  | neither =>
    show (deliver .binary).waited limit.ticks + ((deliver .http).waited limit.ticks + 0) ≤ _
    omega

-- The provider that has begun a bootstrap differs in its phase only, which is overwritten.
theorem begun {p : Provider} (h : Bootstraps limit p p deliver answer after asked) :
    Bootstraps limit p.beginBootstrap.1 p.beginBootstrap.1 deliver answer after asked := by
  cases h with
  | first h => exact .first h
  | second h h' => exact .second h h'
  | neither h h' => exact .neither h h'

end Bootstraps

/-! ## The steps of a bootstrap -/

namespace Provider

/-- Each source reports itself to be what it is. -/
def IsHonest (p : Provider) : Prop := ∀ source, p.reported source = source

theorem IsHonest.begun {p : Provider} (h : p.IsHonest) : p.beginBootstrap.1.IsHonest
  | .binary => h .binary
  | .http => h .http

/-- The steps that the job of a bootstrap makes: one after the first attempt, which answers or asks
the second source, and then one after the second attempt. -/
inductive BootstrapSteps (limit : Duration) (q r : Provider)
    (deliver : Source → Delivery FetchResult) :
    Except ConfigurationError Table → Provider → List Source → Prop where
  | once {after : Provider} {answer : Except ConfigurationError Table}
      (h : q.resume (.bootstrapping (.start .binary))
        (FetchResult.await limit (deliver .binary)).2 = (after, .bootstrapped answer)) :
      BootstrapSteps limit q r deliver answer after [.binary]
  | twice {after : Provider} {answer : Except ConfigurationError Table} {b : Acquisition}
      (hasked : b.asked = .http)
      (h : q.resume (.bootstrapping (.start .binary))
        (FetchResult.await limit (deliver .binary)).2 = (q, .waits (.bootstrapping b)))
      (h' : r.resume (.bootstrapping b) (FetchResult.await limit (deliver .http)).2 =
        (after, .bootstrapped answer)) :
      BootstrapSteps limit q r deliver answer after [.binary, .http]

section Steps

variable {a : Acquisition} {d : Delivery FetchResult}

theorem resume_of_attempted {result : Except AttemptError Table}
    (hreports : q.reported a.asked = a.asked)
    (h : Attempted a.asked q.maxReplicas limit d result) :
    q.resume (.bootstrapping a) (FetchResult.await limit d).2 = q.resumeBootstrap a result := by
  simp only [resume, (attempt_iff hreports).mpr h]

-- A table is published with the source that gave it.
theorem resumeBootstrap_ok (hreports : q.reported a.asked = a.asked) (t : Table) :
    q.resumeBootstrap a (.ok t) =
      ({ q.publish t a.asked with phase := .ready }, .bootstrapped (.ok t)) := by
  rw [← hreports]
  simp only [resumeBootstrap, Acquisition.resume, hreports]

/-- As the bootstrap turns out, so are its steps. -/
theorem steps_of_bootstraps (hq : q.IsHonest) (hr : r.IsHonest)
    (h : Bootstraps limit q r deliver answer after asked) :
    BootstrapSteps limit q r deliver answer after asked := by
  cases h with
  | @first t h =>
    have hstep := resume_of_attempted (a := .start .binary) (hq .binary) h
    exact .once (hstep.trans (resumeBootstrap_ok (a := .start .binary) (hq .binary) t))
  | @second e t h h' =>
    let b : Acquisition := ⟨.http, [], [⟨.binary, e⟩]⟩
    have hstep := resume_of_attempted (a := .start .binary) (hq .binary) h
    have hstep' := resume_of_attempted (a := b) (hr .http) h'
    exact .twice rfl hstep (hstep'.trans (resumeBootstrap_ok (a := b) (hr .http) t))
  | @neither e e' h h' =>
    let b : Acquisition := ⟨.http, [], [⟨.binary, e⟩]⟩
    have hstep := resume_of_attempted (a := .start .binary) (hq .binary) h
    exact .twice rfl hstep (resume_of_attempted (a := b) (hr .http) h')

-- Sources that do not break down let a bootstrap end.
theorem exists_bootstraps
    (hworks : ∀ source, (FetchResult.await limit (deliver source)).2 ≠ .crashed)
    (q r : Provider) : ∃ answer after asked, Bootstraps limit q r deliver answer after asked := by
  obtain ⟨first, hfirst⟩ := exists_attempted .binary q.maxReplicas (hworks .binary)
  obtain ⟨second, hsecond⟩ := exists_attempted .http r.maxReplicas (hworks .http)
  cases first with
  | ok t => exact ⟨_, _, _, .first hfirst⟩
  | error e =>
    cases second with
    | ok t => exact ⟨_, _, _, .second hfirst hsecond⟩
    | error e' => exact ⟨_, _, _, .neither hfirst hsecond⟩

end Steps

end Provider

namespace Rehearsal.World

variable {w v : World} {id number : Nat} {p q' : Provider} {a : Acquisition}

/-- Nothing else is under way, and the call that comes is not dropped. -/
structure IsQuiet (w : World) : Prop where
  jobs : w.jobs = []
  agenda : w.agenda = []
  bootstraps : w.bootstraps = []
  limit : w.limit = none

theorem provider?_setProvider (h : w.provider? id = some q) (q' : Provider) :
    (w.setProvider id q').provider? id = some q' :=
  List.getElem?_set_self (List.getElem?_eq_some_iff.mp h).1

/-! ## Going on -/

-- Nothing of a job that goes on alone is left but what it leads to.
theorem filter_alone (x : Waiting) : [x].filter (·.id != x.id) = [] := by
  simp only [List.filter_cons, bne_self_eq_false, Bool.false_eq_true, if_false, List.filter_nil]

theorem resume_of_waits {x : Waiting} {job : Job} (hjobs : w.jobs = [x])
    (hq : w.provider? x.owner = some q) (h : q.resume x.job x.result = (q', .waits job)) :
    w.resume x = ({ w with jobs := [] }.setProvider x.owner q').enqueue x.id x.owner job := by
  have hprovider : { w with jobs := [] }.provider? x.owner = some q := hq
  simp only [resume, hjobs, filter_alone, hprovider, h]

theorem resume_of_answer {x : Waiting} (hjobs : w.jobs = [x]) (hbootstraps : w.bootstraps = [])
    (hq : w.provider? x.owner = some q)
    (h : q.resume x.job x.result = (q', .bootstrapped answer)) :
    w.resume x = { { w with jobs := [] }.setProvider x.owner q' with
      bootstraps := [(x.id, some answer)] } := by
  have hprovider : { w with jobs := [] }.provider? x.owner = some q := hq
  have hanswer : (x.id, some answer) :: w.bootstraps = [(x.id, some answer)] := by rw [hbootstraps]
  simp only [resume, hjobs, filter_alone, hprovider, h]
  exact congrArg (fun bootstraps =>
    { { w with jobs := [] }.setProvider x.owner q' with bootstraps }) hanswer

/-- The bootstrap with a number has ended. -/
def hasEnded (number : Nat) (w : World) : Bool := w.bootstraps.any (·.1 == number)

-- A job that is all that waits goes on when it is due.
theorem runDue_alone {x : Waiting} (hjobs : w.jobs = [x]) (hagenda : w.agenda = [])
    (hbootstraps : w.bootstraps = []) (hdue : w.now ≤ x.due) (fuel : Nat) :
    runDue none (hasEnded number) (fuel + 1) w =
      runDue none (hasEnded number) fuel ({ w with now := x.due }.resume x) := by
  have hnext : w.nextDue? = some (.job x) := by rw [nextDue?, hjobs, hagenda]; rfl
  have hgoing : ¬ hasEnded number w = true := by
    rw [hasEnded, hbootstraps]
    exact Bool.false_ne_true
  rw [runDue, if_neg hgoing, hnext]
  show runDue _ _ _ ({ w with now := max w.now x.due }.resume x) = _
  rw [Nat.max_eq_right hdue]

theorem runDue_of_ended (h : hasEnded number w = true) (fuel : Nat) :
    runDue none (hasEnded number) fuel w = w := by
  cases fuel with
  | zero => rfl
  | succ fuel => rw [runDue, if_pos h]

/-! ## One attempt -/

/-- What a source delivers that is asked now. -/
def delivered (w : World) (source : Source) : Delivery FetchResult := (w.fetch source).2

/-- The world after an attempt, which leaves the provider as given. -/
def afterAttempt (w : World) (source : Source) (id : Nat) (q : Provider) : World :=
  { (w.fetch source).1 with
    now := w.now + (w.delivered source).waited w.settings.configTimeout.ticks
    jobs := [] }.setProvider id q

theorem IsQuiet.afterAttempt (h : w.IsQuiet) (source : Source) (id : Nat) (q : Provider) :
    (w.afterAttempt source id q).IsQuiet := by
  cases source with
  | binary => exact ⟨rfl, h.agenda, h.bootstraps, h.limit⟩
  | http => exact ⟨rfl, h.agenda, h.bootstraps, h.limit⟩

theorem provider?_afterAttempt (h : w.provider? id = some q) (source : Source) (q' : Provider) :
    (w.afterAttempt source id q').provider? id = some q' := by
  cases source with
  | binary => exact provider?_setProvider h q'
  | http => exact provider?_setProvider h q'

/-- The job of a bootstrap while it waits for the source that it asks. -/
def attempting (w : World) (number id : Nat) (a : Acquisition) : Waiting :=
  ⟨number, id, .bootstrapping a,
    w.now + (w.delivered a.asked).waited w.settings.configTimeout.ticks,
    (FetchResult.await w.settings.configTimeout (w.delivered a.asked)).2⟩

/-- A job waits for a source and nothing else is under way. -/
def asking (w : World) (source : Source) (x : Waiting) : World :=
  { (w.fetch source).1 with jobs := [x] }

theorem enqueue_of_quiet (h : w.IsQuiet) (number id : Nat) (a : Acquisition) :
    w.enqueue number id (.bootstrapping a) = w.asking a.asked (w.attempting number id a) := by
  have hjobs : ∀ (ticks : Nat) (x : Waiting),
      (if ticks = 0 then x :: w.jobs else w.jobs ++ [x]) = [x] := fun ticks x => by
    rw [h.jobs, List.nil_append, ite_self]
  obtain ⟨source, next, failures⟩ := a
  cases source with
  | binary => exact congrArg (fun jobs => { (w.fetch .binary).1 with jobs }) (hjobs _ _)
  | http => exact congrArg (fun jobs => { (w.fetch .http).1 with jobs }) (hjobs _ _)

/-- The job of a bootstrap goes on when its attempt is over. -/
theorem runDue_attempt (h : w.IsQuiet) (number id : Nat) (a : Acquisition) (fuel : Nat) :
    runDue none (hasEnded number) (fuel + 1) (w.enqueue number id (.bootstrapping a)) =
      runDue none (hasEnded number) fuel
        ({ w.asking a.asked (w.attempting number id a) with
          now := (w.attempting number id a).due }.resume (w.attempting number id a)) := by
  have hdue : w.now ≤ (w.attempting number id a).due := Nat.le_add_right _ _
  rw [enqueue_of_quiet h]
  obtain ⟨source, next, failures⟩ := a
  cases source with
  | binary => exact runDue_alone (w := w.asking .binary _) rfl h.agenda h.bootstraps hdue fuel
  | http => exact runDue_alone (w := w.asking .http _) rfl h.agenda h.bootstraps hdue fuel

section Attempt

variable (h : w.IsQuiet) (hq : w.provider? id = some q)
include h hq

-- A bootstrap that is not over asks the next source,
theorem runDue_waits (number : Nat) {b : Acquisition}
    (hresume : q.resume (.bootstrapping a)
      (FetchResult.await w.settings.configTimeout (w.delivered a.asked)).2 =
        (q', .waits (.bootstrapping b))) (fuel : Nat) :
    runDue none (hasEnded number) (fuel + 1) (w.enqueue number id (.bootstrapping a)) =
      runDue none (hasEnded number) fuel
        ((w.afterAttempt a.asked id q').enqueue number id (.bootstrapping b)) := by
  rw [runDue_attempt h]
  obtain ⟨source, next, failures⟩ := a
  cases source with
  | binary => exact congrArg (runDue _ _ fuel) (resume_of_waits rfl hq hresume)
  | http => exact congrArg (runDue _ _ fuel) (resume_of_waits rfl hq hresume)

-- and one that is over tells its answer.
theorem runDue_answers (number : Nat)
    (hresume : q.resume (.bootstrapping a)
      (FetchResult.await w.settings.configTimeout (w.delivered a.asked)).2 =
        (q', .bootstrapped answer)) (fuel : Nat) :
    runDue none (hasEnded number) (fuel + 1) (w.enqueue number id (.bootstrapping a)) =
      { w.afterAttempt a.asked id q' with bootstraps := [(number, some answer)] } := by
  have hended : hasEnded number
      { w.afterAttempt a.asked id q' with bootstraps := [(number, some answer)] } = true := by
    rw [hasEnded, List.any_cons, beq_self_eq_true, Bool.true_or]
  rw [runDue_attempt h, ← runDue_of_ended hended fuel]
  obtain ⟨source, next, failures⟩ := a
  cases source with
  | binary => exact congrArg (runDue _ _ fuel) (resume_of_answer rfl h.bootstraps hq hresume)
  | http => exact congrArg (runDue _ _ fuel) (resume_of_answer rfl h.bootstraps hq hresume)

end Attempt

/-! ## Whole bootstraps -/

/-- The world once a bootstrap has begun. -/
def begun (w : World) (id : Nat) (p : Provider) : World :=
  { w.setProvider id p.beginBootstrap.1 with nextJob := w.nextJob + 1 }

theorem IsQuiet.begun (h : w.IsQuiet) (id : Nat) (p : Provider) : (w.begun id p).IsQuiet :=
  ⟨h.jobs, h.agenda, h.bootstraps, h.limit⟩

theorem stepsLeft_of_quiet (h : w.IsQuiet) (number id : Nat) (a : Acquisition) :
    (w.enqueue number id (.bootstrapping a)).limit = none ∧
      (w.enqueue number id (.bootstrapping a)).stepsLeft = 12 := by
  rw [enqueue_of_quiet h, stepsLeft]
  have hagenda : (w.asking a.asked (w.attempting number id a)).agenda = [] ∧
      (w.asking a.asked (w.attempting number id a)).limit = none := by
    rw [asking]
    cases a.asked with
    | binary => exact ⟨h.agenda, h.limit⟩
    | http => exact ⟨h.agenda, h.limit⟩
  rw [hagenda.1]
  exact ⟨hagenda.2, rfl⟩

-- The call waits for its job and hands on its answer.
theorem bootstrap_eq (h : w.IsQuiet) (hv : v.IsQuiet)
    (hrun : runDue none (hasEnded w.nextJob) 12
        ((w.begun id p).enqueue w.nextJob id (.bootstrapping (.start .binary))) =
      { v with bootstraps := [(w.nextJob, some answer)] }) :
    w.bootstrap id p = (v, some answer) := by
  have hended : hasEnded w.nextJob { v with bootstraps := [(w.nextJob, some answer)] } = true := by
    rw [hasEnded, List.any_cons, beq_self_eq_true, Bool.true_or]
  obtain ⟨hlimit, hsteps⟩ := stepsLeft_of_quiet (h.begun id p) w.nextJob id (.start .binary)
  have hadvance :
      ((w.begun id p).enqueue w.nextJob id (.bootstrapping (.start .binary))).advanceUntil
        (hasEnded w.nextJob) = { v with bootstraps := [(w.nextJob, some answer)] } := by
    rw [advanceUntil, hlimit, hsteps, hrun]
    exact if_pos hended
  have hfound : [(w.nextJob, some answer)].find? (·.1 == w.nextJob) =
      some (w.nextJob, some answer) := List.find?_cons_of_pos (beq_self_eq_true _)
  have hjobs : v.jobs.filter (·.id != w.nextJob) = v.jobs := by rw [hv.jobs]; rfl
  have hcall : w.bootstrap id p = (fun u : World =>
      ({ u with jobs := u.jobs.filter (·.id != w.nextJob), bootstraps := [] },
        (u.bootstraps.find? (·.1 == w.nextJob)).bind (·.2)))
      (((w.begun id p).enqueue w.nextJob id (.bootstrapping (.start .binary))).advanceUntil
        (hasEnded w.nextJob)) := rfl
  rw [hcall, hadvance]
  show ({ v with jobs := v.jobs.filter (·.id != w.nextJob), bootstraps := [] },
    ([(w.nextJob, some answer)].find? (·.1 == w.nextJob)).bind (·.2)) = _
  rw [hfound, hjobs]
  exact congrArg (fun bootstraps => ({ v with bootstraps }, some answer)) hv.bootstraps.symm

/-- What a bootstrap that makes some steps leaves. -/
theorem bootstrap_of_steps (hquiet : w.IsQuiet) (hp : w.provider? id = some p)
    (h : Provider.BootstrapSteps w.settings.configTimeout p.beginBootstrap.1 p.beginBootstrap.1
      w.delivered answer after asked) :
    (w.bootstrap id p).2 = some answer ∧ (w.bootstrap id p).1.provider? id = some after ∧
      (w.bootstrap id p).1.now =
        w.now + Bootstraps.ticks w.settings.configTimeout w.delivered asked ∧
      (w.bootstrap id p).1.binaryFetches = w.binaryFetches + asked.count .binary ∧
      (w.bootstrap id p).1.httpFetches = w.httpFetches + asked.count .http := by
  have hbegun := hquiet.begun id p
  have hq : (w.begun id p).provider? id = some p.beginBootstrap.1 := provider?_setProvider hp _
  cases h with
  | once h =>
    have hrun := runDue_answers hbegun hq w.nextJob h 11
    rw [bootstrap_eq hquiet (hbegun.afterAttempt _ _ _) hrun]
    exact ⟨rfl, provider?_afterAttempt hq _ _, rfl, rfl, rfl⟩
  | @twice _ _ b hasked h h' =>
    obtain ⟨source, next, failures⟩ := b
    cases hasked
    have hwaits := runDue_waits hbegun hq w.nextJob h 11
    -- the second attempt begins where the first one has ended
    let u := (w.begun id p).afterAttempt .binary id p.beginBootstrap.1
    have hu : u.IsQuiet := hbegun.afterAttempt _ _ _
    have hqu : u.provider? id = some p.beginBootstrap.1 := provider?_afterAttempt hq _ _
    have hrun := hwaits.trans (runDue_answers hu hqu w.nextJob h' 10)
    rw [bootstrap_eq hquiet (hu.afterAttempt _ _ _) hrun]
    exact ⟨rfl, provider?_afterAttempt hqu _ _, Nat.add_assoc _ _ _, rfl, rfl⟩

/-- Whatever its sources deliver, a bootstrap has one outcome, which its attempts decide. It answers
with a table exactly if one of them gives a table, asks the second source only where the first
attempt has failed, and takes two time limits at most. Nothing that others make of the provider
meanwhile changes that. -/
theorem bootstrap_outcome (w : World) (id : Nat) (p : Provider) (hquiet : w.IsQuiet)
    (hp : w.provider? id = some p) (hreports : p.IsHonest)
    (hworks : ∀ source,
      (FetchResult.await w.settings.configTimeout (w.delivered source)).2 ≠ .crashed) :
    let limit := w.settings.configTimeout
    let v := (w.bootstrap id p).1
    (∃ answer after asked, Bootstraps limit p p w.delivered answer after asked ∧
      (∀ answer' after' asked', Bootstraps limit p p w.delivered answer' after' asked' →
        answer' = answer ∧ after' = after ∧ asked' = asked) ∧
      ((∃ t, answer = .ok t) ↔
        (∃ t, Attempted .binary p.maxReplicas limit (w.delivered .binary) (.ok t)) ∨
          ∃ t, Attempted .http p.maxReplicas limit (w.delivered .http) (.ok t)) ∧
      (w.bootstrap id p).2 = some answer ∧ v.provider? id = some after ∧
      v.now = w.now + Bootstraps.ticks limit w.delivered asked ∧ v.now ≤ w.now + 2 * limit.ticks ∧
      v.binaryFetches = w.binaryFetches + asked.count .binary ∧
      v.httpFetches = w.httpFetches + asked.count .http) ∧
    ∀ q r : Provider, q.IsHonest → r.IsHonest → ∃ answer after asked,
      Bootstraps limit q r w.delivered answer after asked ∧
        Provider.BootstrapSteps limit q r w.delivered answer after asked := by
  intro limit v
  refine ⟨?_, fun q r hq hr => ?_⟩
  · obtain ⟨answer, after, asked, h⟩ := Provider.exists_bootstraps hworks p p
    have hbegun := hreports.begun
    obtain ⟨hanswer, hafter, hnow, hcounts⟩ := bootstrap_of_steps hquiet hp
      (Provider.steps_of_bootstraps hbegun hbegun h.begun)
    refine ⟨answer, after, asked, h, fun _ _ _ => h.unique, h.ok_iff, hanswer, hafter, hnow, ?_,
      hcounts⟩
    exact hnow.trans_le (Nat.add_le_add_left h.ticks_le w.now)
  · obtain ⟨answer, after, asked, h⟩ := Provider.exists_bootstraps hworks q r
    exact ⟨answer, after, asked, h, Provider.steps_of_bootstraps hq hr h⟩

/-- A provider whose binary source never answers. The other one does at the very end of its time,
with a blank text before the descriptor. -/
def lateAnswer : World :=
  { settings := { configTimeout := .ofMillis 20 }, blank := { maxReplicas := 3 }
    providers := [{ maxReplicas := 3 }]
    binaryScript := [⟨none, .failed .noResponse⟩]
    httpScript := [⟨some 20, .descriptors [⟨"h", " "⟩, ⟨"h", System.soloText "1"⟩]⟩] }

-- The first attempt is given up, and the second one gives the table.
theorem bootstrap_outcome_second :
    let p : Provider := { maxReplicas := 3 }
    let v := (lateAnswer.bootstrap 0 p).1
    lateAnswer.IsQuiet ∧ p.IsHonest ∧
      (lateAnswer.bootstrap 0 p).2 = some (.ok (System.soloTable 1)) ∧
      v.provider? 0 = some { p with
        table := some (System.soloTable 1), publications := 1, lastSource := some .http
        phase := .ready } ∧
      v.now = 40 ∧ v.binaryFetches = 1 ∧ v.httpFetches = 1 := by
  intro p v
  have hquiet : lateAnswer.IsQuiet := ⟨rfl, rfl, rfl, rfl⟩
  have hreports : p.IsHonest := fun source => by cases source <;> rfl
  have hparse : Table.parse (System.soloText "1") 3 = .ok (System.soloTable 1) := by decide +kernel
  have hbinary : Attempted .binary 3 (.ofMillis 20) (lateAnswer.delivered .binary)
      (.error (.transport (.timeout (.ofMillis 20)))) := .abandoned fun after h => by cases h
  have hhttp : Attempted .http 3 (.ofMillis 20) (lateAnswer.delivered .http)
      (.ok (System.soloTable 1)) :=
    .answered rfl (by decide) (.table ⟨[⟨"h", " "⟩], [], rfl, by decide, by decide⟩ .http hparse)
  obtain ⟨⟨answer, after, asked, -, hunique, -, hanswer, hafter, hnow, -, hbinaries, hhttps⟩, -⟩ :=
    bootstrap_outcome lateAnswer 0 p hquiet rfl hreports fun source => by cases source <;> decide
  obtain ⟨rfl, rfl, rfl⟩ := hunique _ _ _ (.second hbinary hhttp)
  exact ⟨hquiet, hreports, hanswer, hafter, hnow, hbinaries, hhttps⟩

end Rehearsal.World

end ClusterClient
