import QuorumKv.Config
import QuorumKv.Health.Breaker
import QuorumKv.Health.Samples

/-! The health of one node: its circuit breaker, its samples and the sizes of the items it was seen
with. Only connection failures drive the breaker; every error counts in the score. -/
namespace QuorumKv.Health

structure Settings where
  breaker : Breaker.Settings
  responseSeconds : Nat
  errorSeconds : Nat
  scoreDeviation : Float
  responseMin : Float
  itemSizes : Nat

def Settings.ofConfig (c : Config.Replication) : Settings where
  breaker := ⟨max c.maxConnectErrors 1, c.errorSeconds * 1000, c.silence⟩
  responseSeconds := max c.responseSeconds 1
  errorSeconds := max c.errorSeconds 1
  scoreDeviation := c.scoreDeviation
  responseMin := c.responseMin
  itemSizes := c.itemSizes

/-- How a call to a node ended. -/
inductive Outcome where
  /-- With an answer, after so many microseconds. -/
  | success (micros : Nat)
  | failure (connection : Bool) (reason : String)
  deriving DecidableEq

/-- A node that answers is healthy, also when it answers that the write is stale. -/
def Outcome.of {α : Type} (result : Except Failure α) (micros : Nat) : Outcome :=
  match result with
  | .ok _ | .error (.stale _) => .success micros
  | .error e => .failure e.isConnection e.message

/-- What is worth a warning. -/
inductive Event where
  | opened (node : String) (failures : Nat) (reason : String)
  | reopened (node reason : String)
  deriving DecidableEq

/-- `born` is when the node became known. -/
structure Node where
  addr : String
  settings : Settings
  born : Nat
  breaker : Breaker
  samples : Samples
  /-- The sizes of the last items, oldest first. -/
  sizes : List Nat

structure Sizes where
  samples : Nat
  average : Nat
  max : Nat

namespace Node

def fresh (addr : String) (settings : Settings) (now : Nat) : Node where
  addr := addr
  settings := settings
  born := now
  breaker := Breaker.initial
  samples := Samples.empty (max settings.responseSeconds settings.errorSeconds)
  sizes := []

/-- Milliseconds since the node became known. -/
def age (n : Node) (now : Nat) : Nat := now - n.born

def second (n : Node) (now : Nat) : Nat := n.age now / 1000

def isRoutable (n : Node) (now : Nat) : Bool :=
  n.breaker.isRoutable n.settings.breaker (n.age now)

def ask (n : Node) (now : Nat) : Permission × Node :=
  let (permission, breaker) := n.breaker.ask n.settings.breaker (n.age now)
  (permission, { n with breaker := breaker })

/-- The event that a change of the circuit stands for. -/
def event? (n : Node) (reason : String) : Breaker.Change → Option Event
  | .none => none
  | .opened => some (.opened n.addr n.breaker.failures reason)
  | .reopened => some (.reopened n.addr reason)

def record (n : Node) (outcome : Outcome) (now : Nat) : Node × Option Event :=
  match outcome with
  | .success micros =>
    ({ n with
        breaker := n.breaker.succeed
        samples := n.samples.addLatency (n.second now) micros }, none)
  | .failure connection reason =>
    let n := { n with samples := n.samples.addError (n.second now) }
    if connection then
      let (breaker, change) := n.breaker.fail n.settings.breaker (n.age now)
      let n := { n with breaker := breaker }
      (n, n.event? reason change)
    else (n, none)

/-- The oldest size makes room for a new one. -/
def recordSize (n : Node) (size : Nat) : Node :=
  if n.settings.itemSizes = 0 then n
  else
    let sizes := if n.settings.itemSizes ≤ n.sizes.length then n.sizes.drop 1 else n.sizes
    { n with sizes := sizes ++ [size] }

/-- The sum behind the average is a 64-bit word, which wraps around. -/
def sizeStats (n : Node) : Sizes :=
  match n.sizes with
  | [] => ⟨0, 0, 0⟩
  | sizes =>
    ⟨sizes.length, (UInt64.ofNat (total sizes)).toNat / sizes.length, sizes.foldl max 0⟩

/-- Microseconds, over the window for response times. The sum is a 64-bit word, which wraps
around. -/
def averageLatency (n : Node) (now : Nat) : Float :=
  let (sum, count) := n.samples.latencies (n.second now) n.settings.responseSeconds
  if count = 0 then 0 else (UInt64.ofNat sum).toFloat / Float.ofNat count

def recentErrors (n : Node) (now : Nat) : Nat :=
  n.samples.errors (n.second now) n.settings.errorSeconds

/-- Lower is healthier. -/
def score (n : Node) (now : Nat) : Float :=
  let latency := max (n.averageLatency now) n.settings.responseMin
  (latency / n.settings.scoreDeviation).floor + Float.ofNat (n.recentErrors now)

end Node

end QuorumKv.Health
