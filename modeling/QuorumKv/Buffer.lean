import QuorumKv.Text.Order

/-! Accounting of the values that the proxy holds in memory. Each value is held by a guard on one of
four shards; letting the guard go takes it off the account again. Counters have 64 bits and wrap. -/
namespace QuorumKv

/-- What a value is held for. -/
inductive Shard where
  /-- Answers to clients. -/
  | getData
  /-- Values that clients set. -/
  | setData
  /-- Copies for the mirror store. -/
  | mirrorData
  /-- Copies for the replicas. -/
  | replicaData
  deriving DecidableEq, Repr

namespace Shard

def all : List Shard := [getData, setData, mirrorData, replicaData]

def name : Shard → String
  | getData => "GetData"
  | setData => "SetData"
  | mirrorData => "MirrorData"
  | replicaData => "ReplicaData"

end Shard

namespace Buffer

def wrap (n : Int) : Int := n.bmod 18446744073709551616

structure Usage where
  count : Int
  size : Int
  deriving DecidableEq

structure Guard where
  shard : Shard
  size : Nat
  deriving DecidableEq

end Buffer

open Buffer

structure Buffers where
  getData : Usage
  setData : Usage
  mirrorData : Usage
  replicaData : Usage
  deriving DecidableEq

namespace Buffers

def empty : Buffers :=
  ⟨⟨0, 0⟩, ⟨0, 0⟩, ⟨0, 0⟩, ⟨0, 0⟩⟩

def usage (b : Buffers) : Shard → Usage
  | .getData => b.getData
  | .setData => b.setData
  | .mirrorData => b.mirrorData
  | .replicaData => b.replicaData

def update (b : Buffers) (shard : Shard) (u : Usage) : Buffers :=
  match shard with
  | .getData => { b with getData := u }
  | .setData => { b with setData := u }
  | .mirrorData => { b with mirrorData := u }
  | .replicaData => { b with replicaData := u }

theorem usage_update (b : Buffers) (s t : Shard) (u : Usage) :
    (b.update s u).usage t = if s = t then u else b.usage t := by
  cases s <;> cases t <;> rfl

def hold (b : Buffers) (g : Guard) : Buffers :=
  let u := b.usage g.shard
  b.update g.shard ⟨wrap (u.count + 1), wrap (u.size + g.size)⟩

def release (b : Buffers) (g : Guard) : Buffers :=
  let u := b.usage g.shard
  b.update g.shard ⟨wrap (u.count - 1), wrap (u.size - g.size)⟩

def isDrained (b : Buffers) : Bool :=
  Shard.all.all fun shard => b.usage shard == ⟨0, 0⟩

/-- The usage of each shard under its name, in text order. -/
def snapshot (b : Buffers) : List (String × Usage) :=
  Text.byName (Shard.all.map fun shard => (shard.name, b.usage shard))

end Buffers

/-- An account together with its guards, numbered in the order in which they were taken. -/
structure Buffer.Ledger where
  buffers : Buffers
  guards : List (Option Guard)

namespace Buffer.Ledger

def empty : Ledger := ⟨Buffers.empty, []⟩

def hold (l : Ledger) (g : Guard) : Ledger :=
  ⟨l.buffers.hold g, l.guards ++ [some g]⟩

/-- A guard that is not there, or no longer, lets nothing go. -/
def drop (l : Ledger) (i : Nat) : Ledger :=
  match l.guards[i]? with
  | some (some g) => ⟨l.buffers.release g, l.guards.set i none⟩
  | _ => l

/-- The guards that still hold something. -/
def outstanding (l : Ledger) : List Guard :=
  l.guards.filterMap id

end Buffer.Ledger

end QuorumKv
