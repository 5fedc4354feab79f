import ClusterClient.Rehearsal.World
/-!
# Playing a rehearsal

Each step is played to its end: the call, the instants that happen while it is under way, and then
all work that needs no time. What is recorded of a step is what an observer can see of it.
-/

namespace ClusterClient.Rehearsal

namespace World

/-! ## Calls -/

/-- Start a bootstrap of a provider and wait for it; nothing if it breaks down. A bootstrap that is
dropped ends there. -/
def bootstrap (w : World) (id : Nat) (p : Provider) :
    World × Option (Except ConfigurationError Table) :=
  let (p, job) := p.beginBootstrap
  let (w, number) := (w.setProvider id p).spawn id job
  let w := w.advanceUntil fun w => w.bootstraps.any (·.1 == number)
  let answer := (w.bootstraps.find? (·.1 == number)).bind (·.2)
  ({ w with jobs := w.jobs.filter (·.id != number), bootstraps := [] }, answer)

/-- The instants of the agenda that set the cancel flag, up to the one that lets go of it. -/
def cancelChanges : List (Nat × Instant) → List (Nat × Bool)
  | [] => []
  | (tick, .cancel value) :: rest => (tick, value) :: cancelChanges rest
  | (_, .cancelDrop) :: _ => []
  | _ :: rest => cancelChanges rest

/-- A new cancel flag, if the call has one, and its history. -/
def openCancel (w : World) : Option Bool → World × Cancellation
  | none => (w, .never)
  | some initially =>
    ({ w with cancelFlag := some ⟨true⟩ }, ⟨initially, cancelChanges w.agenda⟩)

/-- Nobody looks at the cancel flag any more. -/
def closeCancel (w : World) : World :=
  { w with cancelFlag := w.cancelFlag.map fun _ => ⟨false⟩ }

/-- The answer of a call, unless it was dropped. -/
def answerOf {α : Type} (answer : α → Answer) : Option α → Answer
  | some a => answer a
  | none => .dropped

/-- A call that needs a provider, which is in use. -/
def perform (w : World) (id : Nat) (p : Provider) : Call → World × Answer
  | .bootstrap =>
    let (w, answer) := w.bootstrap id p
    (w, match answer with
      | some answer => .published (answer.map (·, true))
      | none => .crashed)
  | .observe key cas =>
    match ClusterClient.route p.table key with
    | .error e => (w, .outcomes (.error e))
    | .ok route =>
      let (w, round) :=
        Round.run surroundings w w.now w.settings.operationTimeout.ticks key cas route
      (w, .outcomes (.ok (round.byAddress cas)))
  | .confirm request timeout cancel =>
    let (w, cancellation) := w.openCancel cancel
    let report := Poll.run surroundings w.settings.poll request timeout cancellation w w.now
    (if cancel.isSome then report.world.closeCancel else report.world,
      answerOf .durable report.answer)
  | .get key =>
    let (answer, w) := ReplicaRead.run surroundings w.settings.operationTimeout key w w.now
    (w, answerOf .read answer)
  | _ => (w, .none)

/-- Connect: a bootstrap of a new provider, which comes into use once it has a table. -/
def connect (w : World) : World × Answer :=
  let (w, id) := w.makeProvider
  let (w, answer) := w.bootstrap id w.blank
  match answer.map Connection.ofBootstrap with
  | none => (w, .crashed)
  | some (.error e) => (w, .connected (.error e))
  | some (.ok connection) =>
    ({ w with connection := some connection, inUse := some id }, .connected (.ok connection))

/-- Wait for the refreshes that signal steps have started, and tell how many they were. -/
def awaitRefresh (w : World) : World × Answer :=
  let ids := w.signalled
  let w := { w with signalled := [] }
  let w := w.advanceUntil fun w => ids.all fun id => w.jobs.all (·.id != id)
  (w, .count ids.length)

def make (w : World) : Call → World × Answer
  | .connect => w.connect
  | .advance ticks => (if ticks = 0 then w else w.advance (w.now + ticks), .none)
  | .awaitRefresh => w.awaitRefresh
  | c =>
    match w.inUse, w.current? with
    | some id, some p => w.perform id p c
    | _, _ => (w, .notConnected)

/-! ## Steps -/

/-- The agenda of a step that starts at a tick: an instant does not happen before those listed in
front of it. -/
def agendaFrom (start : Nat) : List (Nat × Instant) → List (Nat × Instant)
  | [] => []
  | (after, i) :: rest =>
    let tick := max start (start + after)
    (tick, i) :: agendaAfter start tick rest
where
  agendaAfter (start latest : Nat) : List (Nat × Instant) → List (Nat × Instant)
    | [] => []
    | (after, i) :: rest =>
      let tick := max latest (start + after)
      (tick, i) :: agendaAfter start tick rest

/-- Let everything that is left of a step happen: the instants of its agenda, and then work that
needs no time. -/
def finishStep (w : World) : World :=
  let last := (w.agenda.map (·.1)).foldl max w.now
  { w with limit := none, isDropped := false }.runUpTo last

/-- Play one step, without what is counted over it. -/
def playStep (w : World) : Step → World × Answer × Nat
  | .instant i =>
    let (w, answer) := w.happen i
    (w, answer, 0)
  | .call c dropAfter during =>
    let start := w.now
    let w := { w with agenda := agendaFrom start during, limit := dropAfter.map (start + ·) }
    let (w, answer) := w.make c
    (w, if w.isDropped then .dropped else answer, w.now - start)

def play (w : World) (s : Step) : World × Record :=
  let before := w.edition
  let w := { w with binaryFetches := 0, httpFetches := 0, sent := [], answers := [] }
  let (w, answer, took) := w.playStep s
  let w := w.finishStep
  (w,
    { answer, took
      now := w.now
      republished := w.edition != before
      rev := w.rev
      provider := w.current?.map fun p => (p.phase, p.lastSource)
      binaryFetches := w.binaryFetches
      httpFetches := w.httpFetches
      sent := w.sent.reverse
      during := w.answers.reverse })

def playAll (w : World) (steps : List Step) : List Record :=
  (steps.foldl (fun (w, records) s =>
    let (w, record) := w.play s
    (w, record :: records)) (w, [])).2.reverse

end World

end ClusterClient.Rehearsal
