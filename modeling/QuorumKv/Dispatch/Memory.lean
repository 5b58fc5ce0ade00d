import QuorumKv.Dispatch
import QuorumKv.Store

/-! Requests over record stores in memory, in the place of the legacy and the new store. Either
can be made to refuse every call. -/
namespace QuorumKv

/-- What a record store answers, at a time in seconds. -/
def Store.answer (s : Store) (now : Nat) : (q : Ask) → q.Outcome × Store
  | .get key => (.ok (s.get? key), s)
  | .getMeta key => (.ok (s.getMeta? key), s)
  | .getMulti keys => (.ok (keys.filterMap fun key => (s.get? key).map fun item => (key, item)), s)
  | .set key item =>
    let (r, s) := s.set key item now
    (r.map fun _ => (), s)
  | .delete key =>
    let (found, s) := s.delete key now
    (.ok found, s)

namespace Dispatch

open Migration (Side Table)

structure Memory where
  table : Table
  legacy : Store
  new : Store
  legacyFails : Bool
  newFails : Bool
  buffers : Buffers
  /-- In seconds. -/
  now : Nat
  /-- What happened, oldest first. -/
  events : List Event

namespace Memory

def start (table : Table) (now : Nat) : Memory :=
  ⟨table, Store.empty, Store.empty, false, false, Buffers.empty, now, []⟩

def store (m : Memory) : Side → Store
  | .legacy => m.legacy
  | .new => m.new

def putStore (m : Memory) (side : Side) (s : Store) : Memory :=
  match side with
  | .legacy => { m with legacy := s }
  | .new => { m with new := s }

def fails (m : Memory) : Side → Bool
  | .legacy => m.legacyFails
  | .new => m.newFails

def setFails (m : Memory) (side : Side) (on : Bool) : Memory :=
  match side with
  | .legacy => { m with legacyFails := on }
  | .new => { m with newFails := on }

def answer (side : Side) (q : Ask) (m : Memory) : q.Outcome × Memory :=
  if m.fails side then (.error (.node side.name "down"), m)
  else
    let (r, s) := (m.store side).answer m.now q
    (r, m.putStore side s)

def host : Host Memory where
  table := table
  answer := answer
  hold g m := { m with buffers := m.buffers.hold g }
  release g m := { m with buffers := m.buffers.release g }
  note e m := { m with events := m.events ++ [e] }

end Memory

end Dispatch

end QuorumKv
