import QuorumKv.Total

/-! What happened on a node, second by second. A ring of slots, one per second, keeps as many
seconds as the longest window needs; a second takes over the slot of the one that many seconds
before it. -/
namespace QuorumKv.Health

structure Slot where
  second : Nat
  /-- Microseconds of all successful calls. -/
  latencySum : Nat
  latencyCount : Nat
  errors : Nat
  deriving DecidableEq

/-- The slots that were ever used. -/
structure Samples where
  size : Nat
  slots : List Slot
  deriving DecidableEq

namespace Samples

/-- A ring that holds at least one second. -/
def empty (size : Nat) : Samples := ⟨max size 1, []⟩

/-- Changes the slot of a second, which starts empty unless it is that second's already. -/
def update (s : Samples) (second : Nat) (change : Slot → Slot) : Samples :=
  let slot := (s.slots.find? fun t => t.second = second).getD ⟨second, 0, 0, 0⟩
  let others := s.slots.filter fun t => t.second % s.size ≠ second % s.size
  { s with slots := change slot :: others }

def addLatency (s : Samples) (second micros : Nat) : Samples :=
  s.update second fun t =>
    { t with latencySum := t.latencySum + micros, latencyCount := t.latencyCount + 1 }

def addError (s : Samples) (second : Nat) : Samples :=
  s.update second fun t => { t with errors := t.errors + 1 }

/-- The slots of the last `window` seconds up to `now`. -/
def recent (s : Samples) (now window : Nat) : List Slot :=
  s.slots.filter fun t => t.second ≤ now && now - t.second < window

/-- Sum and number of the latencies in the window. -/
def latencies (s : Samples) (now window : Nat) : Nat × Nat :=
  let slots := s.recent now window
  (total (slots.map (·.latencySum)), total (slots.map (·.latencyCount)))

def errors (s : Samples) (now window : Nat) : Nat :=
  total ((s.recent now window).map (·.errors))

end Samples

end QuorumKv.Health
