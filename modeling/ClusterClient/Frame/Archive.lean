import ClusterClient.Frame.Bytes
import ClusterClient.Frame.Message
/-!
# The archive of an envelope

An envelope as a run of bytes in which every part stands at a fixed place. The last 48 bytes are the
root: 32 bytes of message, whose first byte is the tag, and 16 bytes of id. Numbers are little-endian.
A text of at most seven bytes stands in its place; a longer one, and every value of a get, stands
before the root and is pointed at by an offset from the place of its field. What stands before the
root is filled up with zeros to a multiple of eight.

Reading asks only what the message needs: bytes that no field uses are passed over.
-/

namespace ClusterClient.Frame

def zeros (n : Nat) : List UInt8 := List.replicate n 0

def messageSize : Nat := 32

/-- The bytes of the root: the message and the id. -/
def rootSize : Nat := 48

/-! ## Codes -/

def keyStateCode : KeyState → UInt8
  | .foundNotPersisted => 0
  | .foundPersisted => 1
  | .notFoundNotPersisted => 2
  | .notFoundPersisted => 3

def keyState? (code : UInt8) : Option KeyState :=
  if code = 0 then some .foundNotPersisted
  else if code = 1 then some .foundPersisted
  else if code = 2 then some .notFoundNotPersisted
  else if code = 3 then some .notFoundPersisted
  else none

def getStatusCode : GetStatus → UInt8
  | .success => 0
  | .notFound => 1
  | .notMyPartition => 2
  | .failure => 3

def getStatus? (code : UInt8) : Option GetStatus :=
  if code = 0 then some .success
  else if code = 1 then some .notFound
  else if code = 2 then some .notMyPartition
  else if code = 3 then some .failure
  else none

/-! ## Writing -/

def textBytes (s : String) : List UInt8 := s.toUTF8.data.toList

/-- The most bytes of a text that stand in its field. -/
def inlineLimit : Nat := 7

/-- The part of a text that stands before the root. -/
def textOutside (s : String) : List UInt8 :=
  if s.utf8ByteSize ≤ inlineLimit then [] else textBytes s

/-- The part of a message that stands before the root; it starts the archive. -/
def outside : Message → List UInt8
  | .getConfig | .config none | .getResponse _ _ none => []
  | .config (some s) | .observe s _ _ | .observeResponse s _ _ | .get s _ | .replicaGet s _ _ =>
    textOutside s
  | .getResponse _ _ (some value) => value

/-- The zeros that fill a run of bytes up to a multiple of eight. -/
def padding (length : Nat) : List UInt8 := zeros ((8 - length % 8) % 8)

/-- The field of a text, at a place of the archive. A long text starts the archive. -/
def textField (place : Nat) (s : String) : List UInt8 :=
  let size := s.utf8ByteSize
  if size ≤ inlineLimit then textBytes s ++ zeros (inlineLimit - size) ++ [UInt8.ofNat size]
  else littleEndian 4 size ++ offsetBytes (-(place : Int))

/-- The 32 bytes of a message whose root stands at a place of the archive. -/
def messageBytes (root : Nat) : Message → List UInt8
  | .getConfig => 0 :: zeros 31
  | .config none => 1 :: zeros 31
  | .config (some s) => [1, 0, 0, 0, 1, 0, 0, 0] ++ textField (root + 8) s ++ zeros 16
  | .observe key cas partition =>
    [2, 0, 0, 0] ++ textField (root + 4) key ++ zeros 4 ++ littleEndian 8 cas.toNat ++
      littleEndian 4 partition.toNat ++ zeros 4
  | .observeResponse key cas state =>
    [3, 0, 0, 0] ++ textField (root + 4) key ++ zeros 4 ++ littleEndian 8 cas.toNat ++
      keyStateCode state :: zeros 7
  | .get key partition =>
    [4, 0, 0, 0] ++ textField (root + 4) key ++ littleEndian 4 partition.toNat ++ zeros 16
  | .replicaGet key partition replicaIndex =>
    [5, 0, 0, 0] ++ textField (root + 4) key ++ littleEndian 4 partition.toNat ++
      littleEndian 4 replicaIndex.toNat ++ zeros 12
  | .getResponse status cas value =>
    [6, getStatusCode status] ++ zeros 6 ++ littleEndian 8 cas.toNat ++
      match value with
      | none => zeros 16
      | some value =>
        [1, 0, 0, 0] ++ offsetBytes (-((root + 20 : Nat) : Int)) ++
          littleEndian 4 value.length ++ zeros 4

def archive (e : Envelope) : List UInt8 :=
  let before := outside e.message
  let filled := before ++ padding before.length
  filled ++ messageBytes filled.length e.message ++ e.id.bytes.toList

/-! ## Reading -/

/-- `length` bytes from a place on. -/
def slice (bytes : List UInt8) (place length : Nat) : List UInt8 :=
  (bytes.drop place).take length

def numberAt (bytes : List UInt8) (place width : Nat) : Nat :=
  ofLittleEndian (slice bytes place width)

def byteAt (bytes : List UInt8) (place : Nat) : UInt8 := bytes.getD place 0

/-- The bytes that a field at a place points at. They have to lie before the root; a run of no bytes
may also lie where the root begins. -/
def pointed? (bytes : List UInt8) (root place : Nat) (offset : Int) (length : Nat) :
    Option (List UInt8) :=
  let start := (place : Int) + offset
  if 0 ≤ start ∧ start + length ≤ root then some (slice bytes start.toNat length) else none

def text? (bytes : List UInt8) : Option String := String.fromUTF8? ⟨bytes.toArray⟩

/-- The text of the field at a place. The top bit of the field's last byte tells a text that stands
elsewhere: it is the sign of the offset, which points back. -/
def readText? (bytes : List UInt8) (root place : Nat) : Option String :=
  let last := (byteAt bytes (place + 7)).toNat
  if last < 128 then
    if last ≤ inlineLimit then text? (slice bytes place last) else none
  else
    (pointed? bytes root place (ofOffsetBytes (slice bytes (place + 4) 4))
      (numberAt bytes place 4)).bind text?

/-- The value of a get whose field stands at a place. -/
def readValue? (bytes : List UInt8) (root place : Nat) : Option (List UInt8) :=
  pointed? bytes root place (ofOffsetBytes (slice bytes place 4)) (numberAt bytes (place + 4) 4)

/-- A part of a message that may be missing, by the tag at a place. -/
def optional? {α : Type} (bytes : List UInt8) (place : Nat) (read : Option α) :
    Option (Option α) :=
  let tag := byteAt bytes place
  if tag = 0 then some none else if tag = 1 then read.map some else none

/-- The message of the root at a place. -/
def readMessage? (bytes : List UInt8) (root : Nat) : Option Message :=
  let tag := byteAt bytes root
  let word (place : Nat) : UInt32 := UInt32.ofNat (numberAt bytes (root + place) 4)
  let long (place : Nat) : UInt64 := UInt64.ofNat (numberAt bytes (root + place) 8)
  if tag = 0 then some .getConfig
  else if tag = 1 then
    (optional? bytes (root + 4) (readText? bytes root (root + 8))).map .config
  else if tag = 2 then
    (readText? bytes root (root + 4)).map fun key => .observe key (long 16) (word 24)
  else if tag = 3 then do
    let key ← readText? bytes root (root + 4)
    let state ← keyState? (byteAt bytes (root + 24))
    some (.observeResponse key (long 16) state)
  else if tag = 4 then (readText? bytes root (root + 4)).map fun key => .get key (word 12)
  else if tag = 5 then
    (readText? bytes root (root + 4)).map fun key => .replicaGet key (word 12) (word 16)
  else if tag = 6 then do
    let status ← getStatus? (byteAt bytes (root + 1))
    let value ← optional? bytes (root + 16) (readValue? bytes root (root + 20))
    some (.getResponse status (long 8) value)
  else none

def requestId? (bytes : List UInt8) : Option RequestId :=
  if h : bytes.length = 16 then some ⟨⟨bytes.toArray, by simpa using h⟩⟩ else none

/-- The envelope of an archive, whose root has to stand at a multiple of eight. -/
def readArchive? (bytes : List UInt8) : Option Envelope :=
  if bytes.length < rootSize ∨ bytes.length % 8 ≠ 0 then none
  else do
    let root := bytes.length - rootSize
    let message ← readMessage? bytes root
    let id ← requestId? (bytes.drop (root + messageSize))
    some { id, message }

end ClusterClient.Frame
