import ClusterClient.Frame.Description
import ClusterClient.Frame.Stream
import ClusterClient.Surroundings
/-!
# Exchanges with a peer

Every request opens a connection of its own, writes one frame and reads one back, all within a
limit. The reply has to name the request, and has to be of the kind that the request asks for.
-/

namespace ClusterClient

/-- A peer, by what comes of connecting to it and sending it a request: the bytes that it writes
before it closes the connection, or why there is no connection. -/
structure Peer where
  answer : Envelope → Delivery (Except String (List UInt8))

namespace Peer

def unreachable : Peer := ⟨fun _ => .now (.error "no connection")⟩

/-- The message of the first frame that a peer writes. -/
def replyTo (id : RequestId) (bytes : List UInt8) : Except TransportError Message :=
  match (Frame.read bytes).1 with
  | .error why => .error why.transport
  | .ok e =>
    if e.id = id then .ok e.message
    else .error (.protocol
      s!"reply RequestId({e.id.text}) does not match request RequestId({id.text})")

/-- Send a request and wait for its reply. -/
def exchange (p : Peer) (limit : Duration) (request : Envelope) :
    Delivery (Except TransportError Message) :=
  let d := p.answer request
  let window := limit.ticks
  match d.result, Frame.write request, d.arrival? window with
  | .error detail, _, some tick => ⟨some tick, .error (.network detail)⟩
  | .ok _, .error e, _ => .now (.error e)
  | .ok bytes, .ok _, some tick => ⟨some tick, replyTo request.id bytes⟩
  | _, _, none => ⟨some window, .error (.timeout limit)⟩

end Peer

/-- What is said of a reply of another kind. -/
def unexpected (m : Message) : TransportError := .protocol ("unexpected reply " ++ m.text)

/-- The reply to a question about a key. -/
def Message.observation : Message → Except TransportError Observation
  | .observeResponse _ cas state => .ok ⟨cas, state⟩
  | other => .error (unexpected other)

/-- The reply of a node to a read. -/
def Message.getReply (node : String) : Message → Except TransportError GetReply
  | .getResponse status cas value => .ok ⟨node, status, cas, value⟩
  | other => .error (unexpected other)

end ClusterClient
