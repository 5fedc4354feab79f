import ClusterClient.Rehearsal.Script
/-!
# The world of a rehearsal

The state of everything outside the call under way: the clock, the providers with their jobs, the
scripts, and the instants that are still to happen. `World.advance` lets time pass: the next thing
that is due happens at its tick, until nothing more is due.

Every connect makes a provider of its own. The one that is in use is replaced when a connect has got
its table; jobs of the one before go on with it, and then it is gone.

A call that is dropped at a tick ends there and has no answer.
-/

namespace ClusterClient.Rehearsal

/-- A job that waits, with the provider that it belongs to, the tick at which it goes on and what it
then gets. -/
structure Waiting where
  id : Nat
  owner : Nat
  job : Job
  due : Nat
  result : FetchResult

/-- The cancel flag of the last confirmation that had one. -/
structure CancelFlag where
  -- The confirmation still looks at the flag.
  isHeard : Bool

/-- A subscription to the tables of a provider. -/
structure Subscription where
  provider : Nat
  -- The number of tables that have been seen.
  seen : Nat

/-- The state of a rehearsal. -/
structure World where
  now : Nat := 0
  settings : Settings
  -- A provider as it is made.
  blank : Provider
  -- The providers that have been made; each is known by its place.
  providers : List Provider := []
  -- The provider in use.
  inUse : Option Nat := none
  connection : Option Connection := none
  jobs : List Waiting := []
  nextJob : Nat := 0
  -- The bootstraps that have ended and have not been looked at, by their jobs.
  bootstraps : List (Nat × Option (Except ConfigurationError Table)) := []
  -- The refreshes that signal steps started since the last wait for them.
  signalled : List Nat := []
  binaryScript : Script FetchResult := []
  httpScript : Script FetchResult := []
  observeScripts : List (String × ObserveScript) := []
  getScripts : List (String × GetScript) := []
  -- The instants to happen, each with its tick, in order.
  agenda : List (Nat × Instant) := []
  cancelFlag : Option CancelFlag := none
  subscription : Option Subscription := none
  -- The tick at which the call under way is dropped.
  limit : Option Nat := none
  -- The call under way has been dropped.
  isDropped : Bool := false
  binaryFetches : Nat := 0
  httpFetches : Nat := 0
  -- The requests to nodes, latest first.
  sent : List Sent := []
  -- The answers of instants during a call, latest first.
  answers : List Answer := []

namespace World

/-! ## Providers -/

/-- Make a provider; its place is that of the next one. -/
def makeProvider (w : World) : World × Nat :=
  ({ w with providers := w.providers ++ [w.blank] }, w.providers.length)

/-- A rehearsal that starts with a provider in use. -/
def withProvider (w : World) : World :=
  let (w, id) := w.makeProvider
  { w with inUse := some id }

def provider? (w : World) (id : Nat) : Option Provider := w.providers[id]?

def setProvider (w : World) (id : Nat) (p : Provider) : World :=
  { w with providers := w.providers.set id p }

def current? (w : World) : Option Provider := w.inUse.bind w.provider?

def table? (w : World) : Option Table := w.current?.bind (·.table)

def rev (w : World) : Option Int := w.current?.bind (·.rev)

/-- Which of all tables is in force: the provider in use and the number of its table. -/
def edition (w : World) : Option (Nat × Nat) := do
  let id ← w.inUse
  let p ← w.provider? id
  let _ ← p.table
  some (id, p.publications)

/-- A provider is gone when it is not in use and no job of it is left. -/
def isGone (w : World) (id : Nat) : Bool :=
  w.inUse != some id && w.jobs.all (·.owner != id)

/-! ## Entries of scripts -/

/-- The value of a key of an association list. -/
def valueOf? {α : Type} (key : String) (entries : List (String × α)) : Option α :=
  (entries.find? (·.1 == key)).map (·.2)

/-- An association list with another value of a key. -/
def setEntry {α : Type} (key : String) (value : α) (entries : List (String × α)) :
    List (String × α) :=
  (key, value) :: entries.filter (·.1 != key)

/-! ## Jobs -/

/-- Ask a source: the delivery of its script. -/
def fetch (w : World) : Source → World × Delivery FetchResult
  | .binary =>
    let (d, script) := Script.next (.failed noScript) w.binaryScript
    ({ w with binaryScript := script, binaryFetches := w.binaryFetches + 1 }, d)
  | .http =>
    let (d, script) := Script.next (.failed noScript) w.httpScript
    ({ w with httpScript := script, httpFetches := w.httpFetches + 1 }, d)

/-- A job waits for its source, for as long as a source is given; one that need not wait goes on before
all others. A queued one goes on as soon as time may pass. -/
def enqueue (w : World) (id owner : Nat) (job : Job) : World :=
  match job.asked with
  | none => { w with jobs := w.jobs ++ [⟨id, owner, job, w.now, .failed .noResponse⟩] }
  | some source =>
    let (w, d) := w.fetch source
    let (ticks, result) := FetchResult.await w.settings.configTimeout d
    let x : Waiting := ⟨id, owner, job, w.now + ticks, result⟩
    { w with jobs := if ticks = 0 then x :: w.jobs else w.jobs ++ [x] }

/-- Start a job of a provider, and tell its number. -/
def spawn (w : World) (owner : Nat) (job : Job) : World × Nat :=
  ({ w with nextJob := w.nextJob + 1 }.enqueue w.nextJob owner job, w.nextJob)

def resume (w : World) (x : Waiting) : World :=
  let w := { w with jobs := w.jobs.filter (·.id != x.id) }
  match w.provider? x.owner with
  | none => w
  | some p =>
    let (p, progress) := p.resume x.job x.result
    let w := w.setProvider x.owner p
    match progress with
    | .waits job => w.enqueue x.id x.owner job
    | .bootstrapped answer => { w with bootstraps := (x.id, some answer) :: w.bootstraps }
    | .refreshed => w
    | .crashed =>
      match x.job with
      | .bootstrapping _ => { w with bootstraps := (x.id, none) :: w.bootstraps }
      | _ => w

/-- Report to a provider that its table is out of date; the number of the refresh, if one had to be
started. -/
def signalOutdated (w : World) (id : Nat) : World × Option Nat :=
  match w.provider? id with
  | none => (w, none)
  | some p =>
    let (p, starts) := p.signalOutdated
    let w := w.setProvider id p
    if starts then
      let (w, job) := w.spawn id .queued
      (w, some job)
    else (w, none)

/-! ## Instants -/

/-- Several signals in a row: which of them started a refresh. -/
def signals (w : World) (id : Nat) : Nat → World × List Bool
  | 0 => (w, [])
  | times + 1 =>
    let (w, job) := w.signalOutdated id
    let w := { w with signalled := w.signalled ++ job.toList }
    let (w, started) := w.signals id times
    (w, job.isSome :: started)

/-- Whether a subscriber has missed a table, and the revision of the last one; then all are seen. A
provider that is gone has nothing to tell any more. -/
def look (w : World) (x : Subscription) : World × Answer :=
  match w.provider? x.provider with
  | none => (w, .none)
  | some p =>
    ({ w with subscription := some ⟨x.provider, p.publications⟩ },
      .changed (!w.isGone x.provider && p.publications != x.seen) p.rev)

/-- What an instant does that needs a provider, which is in use. -/
def useProvider (w : World) (id : Nat) (p : Provider) : Instant → World × Answer
  | .topology => (w, .table p.table)
  | .probe => (w, .probe p.phase p.lastSource p.rev)
  | .route key => (w, .route (ClusterClient.route p.table key))
  | .mark node state =>
    match p.markNode? node state with
    | some p => (w.setProvider id p, .flag true)
    | none => (w, .flag false)
  | .reconfigure text =>
    match p.reconfigure text with
    | .ok (p, t) => (w.setProvider id p, .published (.ok (t, true)))
    | .error e => (w, .published (.error e))
  | .signal times =>
    let (w, started) := w.signals id times
    (w, .flags started)
  | .watch => ({ w with subscription := some ⟨id, p.publications⟩ }, .rev p.rev)
  | .changed =>
    match w.subscription with
    | some x => w.look x
    | none => (w, .none)
  | .designDoc name => (w, .text (w.settings.viewMode.designDocName name))
  | .kind => (w, .kind (w.connection.map (·.kind)))
  | .settings => (w, .settings w.settings)
  | _ => (w, .none)

def happen (w : World) (i : Instant) : World × Answer :=
  match i with
  | .serve .binary script => ({ w with binaryScript := script }, .none)
  | .serve .http script => ({ w with httpScript := script }, .none)
  | .onObserve node script =>
    ({ w with observeScripts := setEntry node script w.observeScripts }, .none)
  | .onGet node script => ({ w with getScripts := setEntry node script w.getScripts }, .none)
  | .cancel _ => (w, match w.cancelFlag with
    | some flag => .flag flag.isHeard
    | none => .none)
  | .cancelDrop => ({ w with cancelFlag := none }, .flag w.cancelFlag.isSome)
  | i =>
    match w.inUse, w.current? with
    | some id, some p => w.useProvider id p i
    | _, _ => (w, .notConnected)

/-! ## Time -/

/-- Something that is due: a job goes on, or the instants of a tick happen. -/
inductive Due where
  | job (x : Waiting)
  | instants (tick : Nat)

def Due.tick : Due → Nat
  | .job x => x.due
  | .instants tick => tick

def nextWaiting? : List Waiting → Option Waiting
  | [] => none
  | x :: rest =>
    match nextWaiting? rest with
    | some y => if y.due < x.due then some y else some x
    | none => some x

/-- What is due first; jobs go before instants. -/
def nextDue? (w : World) : Option Due :=
  match nextWaiting? w.jobs, w.agenda.head? with
  | none, none => none
  | some x, none => some (.job x)
  | none, some (tick, _) => some (.instants tick)
  | some x, some (tick, _) => if x.due ≤ tick then some (.job x) else some (.instants tick)

def happenDuring (w : World) (i : Instant) : World :=
  let (w, answer) := w.happen i
  { w with answers := answer :: w.answers }

/-- What is due happens. No job goes on between two instants of one tick. -/
def doDue (w : World) (d : Due) : World :=
  let w := { w with now := max w.now d.tick }
  match d with
  | .job x => w.resume x
  | .instants tick =>
    let (due, later) := w.agenda.span (·.1 ≤ tick)
    due.foldl (fun w (_, i) => w.happenDuring i) { w with agenda := later }

/-- More than the things that can become due before something else starts: a job has at most the two
attempts under way and, where a signal is remembered, two more; an instant leads to one more pass or
to one more job. -/
def stepsLeft (w : World) : Nat := 4 * (w.agenda.length + w.jobs.length + 2)

/-- Let what is due happen, up to a tick, until a condition holds. -/
def runDue (upTo : Option Nat) (enough : World → Bool) : Nat → World → World
  | 0, w => w
  | fuel + 1, w =>
    if enough w then w
    else match w.nextDue? with
      | none => w
      | some d =>
        if upTo.any (· < d.tick) then w else runDue upTo enough fuel (w.doDue d)

/-- Let what is due happen up to a tick, and time pass up to it. -/
def runUpTo (w : World) (tick : Nat) : World :=
  let w := w.runDue (some tick) (fun _ => false) w.stepsLeft
  { w with now := max w.now tick }

/-- The call under way waits up to a tick, unless it is dropped before. One whose time is over is
dropped as soon as it has to wait at all. -/
def advance (w : World) (tick : Nat) : World :=
  match w.limit with
  | none => w.runUpTo tick
  | some limit =>
    if limit ≤ w.now then { w with isDropped := true }
    else if limit < tick then { w.runUpTo limit with isDropped := true }
    else w.runUpTo tick

/-- Let time pass until a condition holds, unless the call under way is dropped before. -/
def advanceUntil (w : World) (enough : World → Bool) : World :=
  let w := w.runDue w.limit enough w.stepsLeft
  if enough w then w
  else { w with now := max w.now (w.limit.getD w.now), isDropped := true }

/-! ## Requests to nodes -/

def observe (w : World) (node : Node) (key : String) (cas : UInt64) (partition : Nat) :
    World × Delivery (Except TransportError Observation) :=
  let (d, script) := Script.next (.error noScript)
    ((valueOf? node.address w.observeScripts).getD [])
  ({ w with
      observeScripts := setEntry node.address script w.observeScripts
      sent := .observe node.address key cas partition :: w.sent }, d)

/-- Read a copy of a key from a node. -/
def get (w : World) (node : Node) (target : ReadTarget) (key : String) (partition : Nat) :
    World × Delivery ReadResult :=
  let (d, script) := Script.next (.failed noScript)
    ((valueOf? node.address w.getScripts).getD [])
  let request := match target with
    | .primary => Sent.get node.address key partition
    | .replica slot => .replicaGet node.address key partition slot
  ({ w with
      getScripts := setEntry node.address script w.getScripts
      sent := request :: w.sent }, d)

def surroundings : Surroundings World where
  table w := w.table?
  observe w _ node key cas partition := w.observe node key cas partition
  get w _ node target key partition := w.get node target key partition
  signalOutdated w := match w.inUse with
    | some id => (w.signalOutdated id).1
    | none => w
  wait w tick := w.advance tick
  isDropped w := w.isDropped

end World

end ClusterClient.Rehearsal
