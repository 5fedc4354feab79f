import ClusterClient.Durability.Cancellation
import ClusterClient.Durability.Round
import ClusterClient.Settings
/-!
# Confirming durability

After a mutation the client observes the key in rounds until one round proves the durability asked
for. Each round is routed anew, since the table may have changed, and counts by itself. The poll
ends early when the primary holds another version, when the route cannot satisfy the request, when
the caller's time is over, or when the caller cancels between two rounds. A caller may also let go of
a poll that waits; then it has no answer.
-/

namespace ClusterClient

inductive DurabilityError where
  | insufficientReplicas (request : DurabilityRequest) (available : Nat)
  -- The primary holds another version.
  | modified (key : String) (cas : UInt64) (rounds : Nat)
  -- No round proved the durability in time.
  | timeout (request : DurabilityRequest) (rounds : Nat) (elapsed : Duration)
  | interrupted (key : String) (rounds : Nat)
  | noRoute (e : NoRoute)
  deriving DecidableEq, Repr

def DurabilityRequest.requirementText (r : DurabilityRequest) : String :=
  s!"persist_to={r.persistTo.name} replicate_to={r.replicateTo.name}"

/-- What a message says of a failed confirmation. -/
def DurabilityError.message : DurabilityError → String
  | insufficientReplicas r available =>
    s!"key {Text.quoted r.key}: requested {r.requirementText} but only {available} replica(s) are available"
  | modified key cas rounds =>
    s!"key {Text.quoted key} was modified (expected cas {cas}) after {rounds} observe round(s)"
  | timeout r rounds elapsed =>
    s!"key {Text.quoted r.key}: observe timed out after {rounds} round(s) in {elapsed.text} " ++
      "(" ++ r.requirementText ++ ")"
  | interrupted key rounds =>
    s!"key {Text.quoted key}: observe interrupted after {rounds} round(s)"
  | noRoute e => e.message

structure PollSettings where
  -- The pause between two rounds.
  interval : Duration
  -- The most rounds.
  maxRounds : Nat
  -- How long one round waits for replies.
  roundTimeout : Duration
  deriving DecidableEq, Repr

def Settings.poll (s : Settings) : PollSettings :=
  { interval := s.pollInterval, maxRounds := s.pollMax, roundTimeout := s.operationTimeout }

namespace PollSettings

/-- The rounds that a caller's time allows: as many as pauses fit into it, the last one perhaps cut
short, but one at least; never more than the most rounds, unless those are none. -/
def roundsWithin (s : PollSettings) : Option Duration → Nat
  | none => s.maxRounds
  | some timeout =>
    let interval := max s.interval.nanos 1
    max (min ((timeout.nanos + interval - 1) / interval) s.maxRounds) 1

end PollSettings

namespace Poll

/-- A finished poll: its answer, the tick at which it gave it, the rounds that it broadcast, and the
world that it leaves. -/
structure Report (W : Type) where
  -- Nothing, if the caller let go of the poll.
  answer : Option (Except DurabilityError Unit)
  finished : Nat
  rounds : List Round
  world : W

variable {W : Type}

/-- The report of a poll that ends with an answer. -/
def Report.answered (answer : Except DurabilityError Unit) (w : W) (now : Nat) : Report W :=
  ⟨some answer, now, [], w⟩

/-- The report of a poll that its caller let go of. -/
def Report.dropped (w : W) (now : Nat) : Report W := ⟨none, now, [], w⟩

/-- A report of which one more round was broadcast before. -/
def Report.after (round : Round) (r : Report W) : Report W :=
  { r with rounds := round :: r.rounds }

/-- The earlier of a tick and the end of the caller's time. -/
def cap (tick : Nat) : Option Nat → Nat
  | none => tick
  | some deadline => min tick deadline

def isOver (deadline : Option Nat) (now : Nat) : Bool :=
  match deadline with
  | none => false
  | some d => d ≤ now

/-- What stays the same during a poll. -/
structure Job where
  settings : PollSettings
  request : DurabilityRequest
  cancel : Cancellation
  started : Nat
  -- The end of the caller's time.
  deadline : Option Nat
  -- The most rounds of this poll.
  limit : Nat

def Job.timedOut (t : Job) (rounds now : Nat) : DurabilityError :=
  .timeout t.request rounds (.ofMillis (now - t.started))

/-- What a round decides, which is the one of that number: the primary holds another version, the
durability is proved, or the caller's time is over. -/
def Job.verdict (t : Job) (number : Nat) (round : Round) : Option (Except DurabilityError Unit) :=
  let tally := round.tally t.request
  if tally.masterModified then
    some (.error (.modified t.request.key t.request.cas number))
  else if tally.satisfies t.request.persistTo t.request.replicateTo then some (.ok ())
  else if isOver t.deadline round.ended then some (.error (t.timedOut number round.ended))
  else none

/-- The rounds that are left, `left` of them, from a tick on. -/
def rounds (s : Surroundings W) (t : Job) : (left : Nat) → W → (now : Nat) → Report W
  | 0, w, now => .answered (.error (t.timedOut t.limit now)) w now
  | left + 1, w, now =>
    let before := t.limit - (left + 1)
    if t.cancel.wasSet now then .answered (.error (.interrupted t.request.key before)) w now
    else match route (s.table w) t.request.key with
      | .error e => .answered (.error (.noRoute e)) w now
      | .ok r =>
        if !t.request.isSatisfiable r then
          .answered (.error (.insufficientReplicas t.request (DurabilityRequest.available r))) w now
        else
          let window := cap (now + t.settings.roundTimeout.ticks) t.deadline - now
          let (w, round) := Round.run s w now window t.request.key t.request.cas r
          let now := round.ended
          Report.after round <|
            if s.isDropped w then .dropped w now
            else match t.verdict (before + 1) round with
              | some answer => .answered answer w now
              | none =>
                let wake := cap (now + t.settings.interval.ticks) t.deadline
                if wake ≤ now then rounds s t left w now
                else
                  let cancelled := t.cancel.firstSet? now wake
                  let now := cancelled.getD wake
                  let w := s.wait w now
                  if s.isDropped w then .dropped w now
                  else if cancelled.isSome then
                    .answered (.error (.interrupted t.request.key (before + 1))) w now
                  else rounds s t left w now

/-- Wait until a mutation is durable, for `timeout` at most if it is given. -/
def run (s : Surroundings W) (settings : PollSettings) (request : DurabilityRequest)
    (timeout : Option Duration) (cancel : Cancellation) (w : W) (now : Nat) : Report W :=
  if request.isTrivial then .answered (.ok ()) w now
  else
    let limit := settings.roundsWithin timeout
    rounds s
      { settings, request, cancel, limit, started := now,
        deadline := timeout.map fun d => now + d.ticks }
      limit w now

end Poll

end ClusterClient
