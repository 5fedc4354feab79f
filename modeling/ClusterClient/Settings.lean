import ClusterClient.Duration
import ClusterClient.Text.Blank
/-!
# Settings

What a client is given to connect with; the defaults suit a stock cluster.
-/

namespace ClusterClient

/-- Whether design documents are addressed in production or in development form. -/
inductive ViewMode where
  | production
  | development
  deriving DecidableEq, Repr

namespace ViewMode

def mark : ViewMode → String
  | production => ""
  | development => "dev_"

def designDocName (m : ViewMode) (name : String) : String := m.mark ++ name

/-- The mode that a text names, blanks around it aside; production for any other text. -/
def ofText (s : String) : ViewMode :=
  if Text.trimBlank s = "development" then development else production

end ViewMode

structure Settings where
  -- The hosts that are asked for the first table.
  seedHosts : List String := ["127.0.0.1"]
  bucket : String := "default"
  password : String := ""
  binaryPort : Nat := 11210
  httpPort : Nat := 8091
  -- How long one attempt to fetch a descriptor may take.
  configTimeout : Duration := .ofSeconds 5
  -- How long one observe round and one replica read may take.
  operationTimeout : Duration := .ofMillis 2500
  -- The pause between two observe rounds.
  pollInterval : Duration := .ofMillis 10
  -- The most observe rounds of one confirmation.
  pollMax : Nat := 500
  -- The most replicas that a descriptor may declare.
  maxReplicas : Nat := 3
  viewMode : ViewMode := .production
  deriving DecidableEq, Repr

namespace Settings

/-- The addresses at which the seeds answer requests. -/
def binarySeeds (s : Settings) : List String :=
  s.seedHosts.map fun host => s!"{host}:{s.binaryPort}"

/-- The addresses at which the seeds serve the bucket's descriptor over HTTP. -/
def httpSeeds (s : Settings) : List String :=
  s.seedHosts.map fun host => s!"http://{host}:{s.httpPort}/pools/default/buckets/{s.bucket}"

end Settings

end ClusterClient
