import QuorumKv.Assoc
import QuorumKv.Item
import QuorumKv.Hash.Crc32
import QuorumKv.Text.Utf8
import QuorumKv.Total

/-! The record store of a node. Each key has its latest record, and a delete leaves a tombstone.
Records lie as if appended to one log: each stored version takes a slot of whole 256-byte units.
Writing what is already there under a higher revision only raises the revision and keeps the
slot. -/
namespace QuorumKv

structure Record where
  flags : UInt32
  value : Bytes
  rev : Revision
  hash : UInt32
  timestamp : Nat
  offset : Nat
  deriving DecidableEq

namespace Record

def isLive (r : Record) : Bool :=
  !r.rev.isTombstone

def item (r : Record) : Item :=
  ⟨r.flags, r.value, r.rev⟩

/-- A tombstone shows no value. -/
def versioned (r : Record) : Item :=
  if r.isLive then r.item else ⟨r.flags, [], r.rev⟩

def toMeta (r : Record) : Meta where
  rev := r.rev
  hash := r.hash
  flags := r.flags
  size := r.value.length
  timestamp := r.timestamp
  chunk := 0
  offset := r.offset

/-- A slot holds a header of 24 bytes, the key and the value, and is rounded up past the next
multiple of 256. -/
def slot (keyLength valueLength : Nat) : Nat :=
  ((valueLength + keyLength + 24) / 256 + 1) * 256

/-- The slot as a 64-bit word, which is how it is reported. The word wraps around. -/
def slotWord (keyLength valueLength : Nat) : UInt64 :=
  UInt64.ofNat (slot keyLength valueLength)

end Record

structure Store where
  records : Assoc String Record
  /-- The next free log position. -/
  tail : Nat
  deriving DecidableEq

structure Store.Stats where
  liveKeys : Nat
  tombstones : Nat
  liveBytes : Nat
  logPosition : Nat

namespace Store

def empty : Store := ⟨[], 0⟩

def record? (s : Store) (key : String) : Option Record :=
  s.records.get? key

/-- The live item. -/
def get? (s : Store) (key : String) : Option Item :=
  ((s.record? key).filter Record.isLive).map Record.item

/-- The latest version, tombstones included. -/
def getVersioned? (s : Store) (key : String) : Option Item :=
  (s.record? key).map Record.versioned

def getMeta? (s : Store) (key : String) : Option Meta :=
  (s.record? key).map Record.toMeta

/-- Appends a version of `key` to the log. -/
def append (s : Store) (key : String) (flags : UInt32) (value : Bytes) (rev : Revision)
    (now : Nat) : Store where
  records := s.records.put key
    ⟨flags, value, rev, Hash.Crc32.checksum value, now, s.tail⟩
  tail := s.tail + Record.slot key.utf8ByteSize value.length

/-- Stores `item` under a revision that is already decided. -/
def write (s : Store) (key : String) (item : Item) (rev : Revision) (now : Nat) : Store :=
  match s.record? key with
  | some r =>
    if r.isLive && r.hash == Hash.Crc32.checksum item.value && r.flags == item.flags &&
        r.value == item.value then
      ⟨s.records.put key { r with rev := rev, timestamp := now }, s.tail⟩
    else s.append key item.flags item.value rev now
  | none => s.append key item.flags item.value rev now

/-- The answer is the revision under which the item is stored. -/
def set (s : Store) (key : String) (item : Item) (now : Nat) : Except Failure Revision × Store :=
  if item.rev.isTombstone then
    (throw (.protocol s!"negative revision {item.rev.val} on set of {key}"), s)
  else
    match Revision.resolve ((s.record? key).map Record.rev) item.rev with
    | .store rev => (pure rev, s.write key item rev now)
    | .duplicate => (pure item.rev, s)
    | .stale _ => (throw (.stale key), s)

/-- Puts a tombstone over a live record; false when there is none. -/
def delete (s : Store) (key : String) (now : Nat) : Bool × Store :=
  match s.record? key with
  | some r =>
    if r.isLive then (true, s.append key 0 [] r.rev.tombstone now) else (false, s)
  | none => (false, s)

def stats (s : Store) : Stats :=
  let live := s.records.filter fun (_, r) => r.isLive
  { liveKeys := live.length
    tombstones := (s.records.filter fun (_, r) => !r.isLive).length
    liveBytes := total (live.map fun (_, r) => r.value.length)
    logPosition := s.tail }

end Store

end QuorumKv
