import ClusterClient.Duration
/-!
# Failures of a transport

Descriptors come from one of two sources; requests to nodes and to sources fail in the same ways.
-/

namespace ClusterClient

inductive Source where
  | binary
  | http
  deriving DecidableEq, Repr

namespace Source

def other : Source → Source
  | binary => http
  | http => binary

def name : Source → String
  | binary => "Binary"
  | http => "Http"

end Source

/-- Why a request to a node or to a seed failed. -/
inductive TransportError where
  | network (detail : String)
  | protocol (detail : String)
  | http (detail : String)
  | timeout (limit : Duration)
  -- No seed gave a usable answer.
  | noResponse
  deriving DecidableEq, Repr

/-- What a message says of a failed request. -/
def TransportError.message : TransportError → String
  | network detail => "network error: " ++ detail
  | protocol detail => "protocol error: " ++ detail
  | http detail => "http error: " ++ detail
  | timeout limit => "timed out after " ++ limit.text
  | noResponse => "no seed node answered"

end ClusterClient
