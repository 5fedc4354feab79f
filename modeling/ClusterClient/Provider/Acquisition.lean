import ClusterClient.Text.Blank
import ClusterClient.Topology.Descriptor
import ClusterClient.Transport.Delivery
import ClusterClient.Transport.Error
/-!
# Acquiring a table

One attempt asks one source for descriptors and takes the first that is not blank. In a descriptor
from the binary source the mark `$HOST` stands for the host that answered. An acquisition tries the
two sources in some order; the first table wins, and every attempt before it leaves a failure.
-/

namespace ClusterClient

structure RawDescriptor where
  -- The host that answered.
  origin : String
  text : String
  deriving DecidableEq, Repr

inductive FetchResult where
  | descriptors (found : List RawDescriptor)
  | failed (e : TransportError)
  -- The source broke down, and with it whoever asked.
  | crashed
  deriving DecidableEq, Repr

inductive AttemptError where
  | transport (e : TransportError)
  | malformed (e : Malformed)
  deriving DecidableEq, Repr

def AttemptError.message : AttemptError → String
  | transport e => e.message
  | malformed e => e.message

/-- An attempt that gave no table, with the source that was asked. -/
structure Failure where
  asked : Source
  cause : AttemptError
  deriving DecidableEq, Repr

def Failure.message (f : Failure) : String := f.asked.name ++ ": " ++ f.cause.message

/-- Why the client keeps the table that it has. -/
inductive ConfigurationError where
  -- No source gave a table.
  | noValidConfiguration (failures : List Failure)
  | malformed (e : Malformed)
  -- The table is older than the one in force.
  | stale (offered current : Int)
  deriving DecidableEq, Repr

/-- What a message says of a table that was not taken over. -/
def ConfigurationError.message : ConfigurationError → String
  | noValidConfiguration failures =>
    "no valid configuration: " ++ "; ".intercalate (failures.map (·.message))
  | malformed e => e.message
  | stale offered current =>
    s!"stale descriptor: revision {offered} is older than published revision {current}"

/-! ## Waiting for a source -/

/-- Wait for a source, for as long as an attempt may take: the ticks that pass and what came of
it. -/
def FetchResult.await (limit : Duration) (d : Delivery FetchResult) : Nat × FetchResult :=
  (d.waited limit.ticks, (d.within? limit.ticks).getD (.failed (.timeout limit)))

/-! ## Reading an answer -/

/-- A text, what was read of it latest first, with `$HOST` replaced by a host. -/
def expandHostAfter (host done : List Char) : List Char → List Char
  | '$' :: 'H' :: 'O' :: 'S' :: 'T' :: rest => expandHostAfter host (host.reverse ++ done) rest
  | c :: rest => expandHostAfter host (c :: done) rest
  | [] => done.reverse

/-- A text with `$HOST` replaced by a host. -/
def expandHost (host text : String) : String :=
  String.ofList (expandHostAfter host.toList [] text.toList)

/-- The text of a descriptor: only the binary source leaves its host to be filled in. -/
def RawDescriptor.capture (d : RawDescriptor) : Source → String
  | .binary => expandHost d.origin d.text
  | .http => d.text

/-- The table of a source's answer: that of the first descriptor that is not blank. -/
def tableOf (source : Source) (maxReplicas : Nat) (found : List RawDescriptor) :
    Except AttemptError Table :=
  match found.find? (!Text.isBlank ·.text) with
  | none => .error (.transport .noResponse)
  | some d =>
    match Table.parse (d.capture source) maxReplicas with
    | .ok t => .ok t
    | .error e => .error (.malformed e)

/-! ## Trying two sources -/

/-- An acquisition under way: the source that is asked, those to ask next, and what has failed. -/
structure Acquisition where
  asked : Source
  next : List Source
  failures : List Failure
  deriving DecidableEq, Repr

namespace Acquisition

def start (first : Source) : Acquisition := ⟨first, [first.other], []⟩

/-- What an attempt leads to: another attempt, or the end of the acquisition. -/
inductive Outcome where
  | again (a : Acquisition)
  | found (t : Table)
  | failed (failures : List Failure)

def resume (a : Acquisition) (attempt : Except AttemptError Table) : Outcome :=
  match attempt with
  | .ok t => .found t
  | .error e =>
    let failures := a.failures ++ [⟨a.asked, e⟩]
    match a.next with
    | [] => .failed failures
    | source :: rest => .again ⟨source, rest, failures⟩

end Acquisition

end ClusterClient
