import ClusterClient.Provider.Basic
/-!
# Work in progress

Bootstraps and refreshes wait for their sources, and meanwhile others use the provider. A job is what
such a piece of work remembers while it waits; between two waits it runs without interruption.

A refresh runs in passes. A signal that comes during a pass is remembered and leads to one more pass.
A pass leaves the provider ready if it had a table when the pass began or got one from it.
-/

namespace ClusterClient

/-- A bootstrap or a refresh between two of its steps. -/
inductive Job where
  -- A refresh that was started and has not run yet.
  | queued
  -- A pass of a refresh that waits for a source; `hadTable` tells whether there was a table when it
  -- began.
  | refreshing (hadTable : Bool) (a : Acquisition)
  -- A bootstrap that waits for a source.
  | bootstrapping (a : Acquisition)
  deriving DecidableEq, Repr

namespace Job

def asked : Job → Option Source
  | queued => none
  | refreshing _ a => some a.asked
  | bootstrapping a => some a.asked

end Job

/-- What a step of a job leads to. -/
inductive Progress where
  | waits (job : Job)
  -- A bootstrap has ended.
  | bootstrapped (answer : Except ConfigurationError Table)
  -- A refresh has ended.
  | refreshed
  -- The job broke down.
  | crashed

namespace Provider

def beginBootstrap (p : Provider) : Provider × Job :=
  ({ p with phase := .bootstrapping }, .bootstrapping (.start .binary))

/-- Start a pass of a refresh; signals before it are served by it. -/
def beginPass (p : Provider) : Provider × Job :=
  ({ p with isPending := false, phase := .refreshing },
    .refreshing p.table.isSome (.start p.preferred))

/-- After a pass: another one if a signal came meanwhile, or the refresh is over. -/
def endPass (p : Provider) : Provider × Progress :=
  if p.isPending then
    let (p, job) := p.beginPass
    (p, .waits job)
  else ({ p with isRefreshing := false }, .refreshed)

/-- Take over the table that a pass found. An older one is passed over without an error. -/
def acceptRefreshed (p : Provider) (t : Table) (source : Source) : Provider :=
  match p.publishIfNewer t source with
  | .ok p => p
  | .error _ => p

def phaseAfter (hadTable found : Bool) : Phase := if hadTable || found then .ready else .failed

/-- What an attempt gave, from what came of asking a source. -/
def attempt (p : Provider) (a : Acquisition) : FetchResult → Option (Except AttemptError Table)
  | .descriptors found => some (tableOf (p.reported a.asked) p.maxReplicas found)
  | .failed e => some (.error (.transport e))
  | .crashed => none

/-- A bootstrap goes on with what an attempt gave. -/
def resumeBootstrap (p : Provider) (a : Acquisition) (attempt : Except AttemptError Table) :
    Provider × Progress :=
  match a.resume attempt with
  | .again a => (p, .waits (.bootstrapping a))
  | .found t => ({ p.publish t (p.reported a.asked) with phase := .ready }, .bootstrapped (.ok t))
  | .failed failures =>
    ({ p with phase := .failed }, .bootstrapped (.error (.noValidConfiguration failures)))

/-- A pass of a refresh goes on with what an attempt gave. -/
def resumeRefresh (p : Provider) (hadTable : Bool) (a : Acquisition)
    (attempt : Except AttemptError Table) : Provider × Progress :=
  match a.resume attempt with
  | .again a => (p, .waits (.refreshing hadTable a))
  | .found t =>
    endPass { p.acceptRefreshed t (p.reported a.asked) with phase := phaseAfter hadTable true }
  | .failed _ => endPass { p with phase := phaseAfter hadTable false }

/-- The next step of a job, with what came of asking its source. A queued refresh asked nobody. A
job whose source breaks down ends there and leaves the provider as it is. -/
def resume (p : Provider) (job : Job) (result : FetchResult) : Provider × Progress :=
  match job with
  | .queued =>
    let (p, job) := p.beginPass
    (p, .waits job)
  | .refreshing hadTable a =>
    match p.attempt a result with
    | some attempt => p.resumeRefresh hadTable a attempt
    | none => (p, .crashed)
  | .bootstrapping a =>
    match p.attempt a result with
    | some attempt => p.resumeBootstrap a attempt
    | none => (p, .crashed)

end Provider

end ClusterClient
