import ClusterClient.Provider.Acquisition
import ClusterClient.Transport.Delivery
import ClusterClient.Transport.HttpStatus
/-!
# Asking seeds one after the other

The HTTP source asks the seeds in order, each within a limit, until one serves a body that is not
blank.
-/

namespace ClusterClient

namespace SeedSequence

inductive Response where
  | served (status : HttpStatus) (body : String)
  -- There was no response, or it could not be read.
  | broken (detail : String)
  deriving DecidableEq, Repr

/-- A seed with the address that is asked, the host in it, and what comes of asking it. -/
structure Seed where
  url : String
  host : String
  response : Delivery Response

/-- The body that a seed serves within a limit. -/
def Seed.body (s : Seed) (limit : Duration) : Except TransportError String :=
  match s.response.within? limit.ticks with
  | some (.served status body) =>
    if status.isSuccess then .ok body else .error (.http s!"{s.url} returned {status.text}")
  | some (.broken detail) => .error (.http detail)
  | none => .error (.http "operation timed out")

/-- The seeds that are left, from a tick on; `last` is the last failure before them. -/
def fetchFrom (limit : Duration) (tick : Nat) (last : TransportError) :
    List Seed → Delivery FetchResult
  | [] => ⟨some tick, .failed last⟩
  | s :: rest =>
    let tick := tick + s.response.waited limit.ticks
    match s.body limit with
    | .ok body =>
      if Text.isBlank body then fetchFrom limit tick last rest
      else ⟨some tick, .descriptors [⟨s.host, body⟩]⟩
    | .error e => fetchFrom limit tick e rest

/-- The body of the first seed that serves one that is not blank, or the last failure. A blank body
is no failure. -/
def fetch (limit : Duration) (seeds : List Seed) : Delivery FetchResult :=
  fetchFrom limit 0 .noResponse seeds

end SeedSequence

end ClusterClient
