import QuorumKv.Bytes
import QuorumKv.Revision
import QuorumKv.Failure
import QuorumKv.Text.Blank

/-! Items are what clients exchange; metadata is what a node tells about a stored record. -/
namespace QuorumKv

/-- `rev` is the requested revision of a write and the stored one of an answer. -/
structure Item where
  flags : UInt32
  value : Bytes
  rev : Revision
  deriving DecidableEq

structure Meta where
  rev : Revision
  hash : UInt32
  flags : UInt32
  size : Nat
  timestamp : Nat
  chunk : UInt32
  offset : Nat
  deriving DecidableEq

namespace Meta

/-- The fields on one line: revision, hash, flags, size, timestamp, chunk, offset. -/
def line (m : Meta) : String :=
  s!"{m.rev.val} {m.hash.toNat} {m.flags.toNat} {m.size} {m.timestamp} {m.chunk.toNat} {m.offset}"

def ofFields? : List String → Option Meta
  | [rev, hash, flags, size, timestamp, chunk, offset] => do
    let rev ← Text.int64? rev >>= Revision.ofInt?
    return ⟨rev, ← Text.uint32? hash, ← Text.uint32? flags, ← Text.uint64? size,
      ← Text.uint64? timestamp, ← Text.uint32? chunk, ← Text.uint64? offset⟩
  | _ => none

def ofLine (line : String) : Except Failure Meta :=
  match ofFields? (Text.splitWords line) with
  | some m => pure m
  | none => throw (.protocol ("bad meta line: " ++ line))

end Meta

end QuorumKv
