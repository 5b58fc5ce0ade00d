/-! Byte strings, the form in which everything crosses a connection. -/
namespace QuorumKv

abbrev Bytes := List UInt8

namespace Bytes

def cr : UInt8 := 13

def lf : UInt8 := 10

/-- Every line and every data block on the wire ends with these two. -/
def crlf : Bytes := [cr, lf]

/-- The first eight bytes as a number, least significant byte first. -/
def littleEndian (bytes : Bytes) : Nat :=
  bytes.foldr (fun b n => b.toNat + 256 * n) 0

end Bytes

end QuorumKv
