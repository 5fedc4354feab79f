import ClusterClient.Frame.Archive
import ClusterClient.Transport.Error
/-!
# Frames on a stream

A frame is the length of an archive, in four bytes with the highest first, and the archive. A frame
that cannot be read never disturbs those after it, unless the stream ends inside it or its length is
over the limit.
-/

namespace ClusterClient.Frame

/-- The longest archive that a frame may carry. -/
def maxLength : Nat := 16777216

inductive ReadError where
  -- The stream ended inside the length.
  | cutLength
  -- The stream ended inside the archive.
  | cutBody
  | tooLong (length : Nat)
  -- The bytes are not the archive of an envelope.
  | undecodable
  deriving DecidableEq, Repr

/-- What is said of an archive over the limit. -/
def overLimit (length : Nat) : String := s!"frame of {length} bytes exceeds limit"

/-- A failure to read a frame as a failure of the transport. -/
def ReadError.transport : ReadError → TransportError
  | cutLength => .network "end of stream"
  | cutBody => .network "early eof"
  | tooLong length => .protocol (overLimit length)
  | undecodable => .protocol "undecodable envelope"

/-- The bytes of a frame; nothing is written of an archive over the limit. -/
def write (e : Envelope) : Except TransportError (List UInt8) :=
  let body := archive e
  if maxLength < body.length then .error (.protocol (overLimit body.length))
  else .ok (bigEndian 4 body.length ++ body)

/-- Writing to a peer, who may have gone. -/
def send (peerGone : Bool) (e : Envelope) : Except TransportError (List UInt8) := do
  let bytes ← write e
  if peerGone then .error (.network "broken pipe") else .ok bytes

/-- Read one frame: the envelope or why there is none, and the bytes that are left. -/
def read (stream : List UInt8) : Except ReadError Envelope × List UInt8 :=
  if stream.length < 4 then (.error .cutLength, [])
  else
    let length := ofBigEndian (stream.take 4)
    let rest := stream.drop 4
    if maxLength < length then (.error (.tooLong length), rest)
    else if rest.length < length then (.error .cutBody, [])
    else
      match readArchive? (rest.take length) with
      | some e => (.ok e, rest.drop length)
      | none => (.error .undecodable, rest.drop length)

-- A frame that was read took at least its length from the stream.
theorem length_read_lt {stream rest : List UInt8} {e : Envelope}
    (h : read stream = (.ok e, rest)) : rest.length < stream.length := by
  simp only [read] at h
  split at h
  · cases h
  split at h
  · cases h
  split at h
  · cases h
  split at h
  · cases h
    simp only [List.length_drop]
    omega
  · cases h

/-- Frames until the stream is used up or one cannot be read, each with the number of bytes left
after it. An empty stream is tried once. -/
def readAll (stream : List UInt8) : List (Except ReadError Envelope × Nat) :=
  match _ : read stream with
  | (.ok e, []) => [(.ok e, 0)]
  | (.ok e, rest) => (.ok e, rest.length) :: readAll rest
  | (.error why, rest) => [(.error why, rest.length)]
termination_by stream.length
decreasing_by exact length_read_lt (by assumption)

end ClusterClient.Frame
