import QuorumKv.Ask
import QuorumKv.Buffer
import QuorumKv.Migration.Table

/-! A client request as a script: which stores it asks, in which order, and what it makes of every
possible answer. Nothing is asked yet; a script is given its answers one at a time, so that other
requests may go on in between. -/
namespace QuorumKv.Dispatch

open Migration (Side Stage Table)

/-- A copy that did not reach the second store. -/
structure MirrorFailure where
  cmd : String
  key : String
  stage : Stage
  side : Side
  reason : Failure
  deriving DecidableEq

/-- What is counted and logged besides the answers. -/
inductive Event where
  | asked (cmd : String) (side : Side) (success : Bool)
  | mirrorFailed (failure : MirrorFailure)
  deriving DecidableEq

inductive Script (α : Type) where
  | done (result : α)
  /-- Takes a snapshot of the switch table. -/
  | table (next : Table → Script α)
  | ask (side : Side) (q : Ask) (next : q.Outcome → Script α)
  | hold (guard : Buffer.Guard) (next : Script α)
  | release (guard : Buffer.Guard) (next : Script α)
  | note (event : Event) (next : Script α)

namespace Script

variable {α β : Type}

def bind : Script α → (α → Script β) → Script β
  | done a, f => f a
  | table next, f => table fun t => (next t).bind f
  | ask side q next, f => ask side q fun r => (next r).bind f
  | hold g next, f => hold g (next.bind f)
  | release g next, f => release g (next.bind f)
  | note e next, f => note e (next.bind f)

instance : Monad Script where
  pure := done
  bind := bind

def snapshot : Script Table := table done

/-- Holds a value in memory while something runs. -/
def holding (guard : Buffer.Guard) (s : Script α) : Script α :=
  hold guard (s.bind fun a => release guard (done a))

/-- Asks one store and counts the call under a command's name. -/
def call (cmd : String) (side : Side) (q : Ask) : Script q.Outcome :=
  ask side q fun r => note (.asked cmd side r.isOk) (done r)

end Script

/-- Something that scripts can run on without interruption: it holds the switch table and the
account of buffers, and answers every question at once. -/
structure Host (σ : Type) where
  table : σ → Table
  answer : Side → (q : Ask) → σ → q.Outcome × σ
  hold : Buffer.Guard → σ → σ
  release : Buffer.Guard → σ → σ
  note : Event → σ → σ

def Script.run {σ α : Type} (host : Host σ) : Script α → σ → α × σ
  | done a, s => (a, s)
  | table next, s => (next (host.table s)).run host s
  | ask side q next, s =>
    let (r, s) := host.answer side q s
    (next r).run host s
  | hold g next, s => next.run host (host.hold g s)
  | release g next, s => next.run host (host.release g s)
  | note e next, s => next.run host (host.note e s)

end QuorumKv.Dispatch
