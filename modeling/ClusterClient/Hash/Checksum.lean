/-!
# CRC-32

The cyclic redundancy check with the reflected polynomial 0xEDB88320: the remainder starts with all
bits set, takes each byte in at its low end, moves down one place per bit, and is complemented at
the end.
-/

namespace ClusterClient.Hash

/-- The remainder moved down one place: the polynomial is added when a bit falls out. -/
def shift (r : UInt32) : UInt32 :=
  if r &&& 1 = 0 then r >>> 1 else (r >>> 1) ^^^ 0xEDB88320

def crcByte (r : UInt32) (b : UInt8) : UInt32 :=
  shift <| shift <| shift <| shift <| shift <| shift <| shift <| shift (r ^^^ b.toUInt32)

def crcBytes (r : UInt32) (bytes : List UInt8) : UInt32 := bytes.foldl crcByte r

def crc32 (bytes : List UInt8) : UInt32 := ~~~ crcBytes 0xFFFFFFFF bytes

-- The remainder over two runs is that of the second, taken on from that of the first.
theorem crcBytes_append (r : UInt32) (a b : List UInt8) :
    crcBytes r (a ++ b) = crcBytes (crcBytes r a) b := List.foldl_append

end ClusterClient.Hash
