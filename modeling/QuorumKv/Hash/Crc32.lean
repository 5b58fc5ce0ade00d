import QuorumKv.Bytes

/-! CRC-32 with the reflected polynomial 0xEDB88320, as in IEEE 802.3. -/
namespace QuorumKv.Hash.Crc32

def polynomial : UInt32 := 0xEDB88320

def shift (c : UInt32) : UInt32 :=
  if c &&& 1 = 1 then (c >>> 1) ^^^ polynomial else c >>> 1

/-- What one byte adds, by its value. -/
def table : Array UInt32 :=
  (Array.range 256).map fun n => Nat.repeat shift 8 (UInt32.ofNat n)

def step (crc : UInt32) (b : UInt8) : UInt32 :=
  table.getD ((crc ^^^ b.toUInt32) &&& 0xFF).toNat 0 ^^^ (crc >>> 8)

def checksum (bytes : Bytes) : UInt32 :=
  bytes.foldl step 0xFFFFFFFF ^^^ 0xFFFFFFFF

end QuorumKv.Hash.Crc32
