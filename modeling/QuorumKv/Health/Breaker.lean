/-! The circuit breaker of one node. Too many connection failures in a row open the circuit. After
a period of silence a single trial call may pass; it alone decides whether the circuit closes.
Times are milliseconds since the node became known. -/
namespace QuorumKv.Health

inductive Circuit where
  | closed
  /-- A trial call is under way. -/
  | halfOpen
  | open
  deriving DecidableEq, Repr

def Circuit.name : Circuit → String
  | closed => "closed"
  | halfOpen => "half_open"
  | «open» => "open"

/-- The answer to asking for a call. -/
inductive Permission where
  | allowed
  /-- The call is the one trial. -/
  | trial
  | rejected
  deriving DecidableEq, Repr

namespace Permission

def isAllowed : Permission → Bool
  | rejected => false
  | _ => true

def name : Permission → String
  | allowed => "Allowed"
  | trial => "Trial"
  | rejected => "Rejected"

end Permission

/-- A streak of failures counts while it is not older than `window`. -/
structure Breaker.Settings where
  maxErrors : Nat
  window : Nat
  silence : Nat
  deriving DecidableEq

structure Breaker where
  circuit : Circuit
  failures : Nat
  streakStart : Nat
  lastFailure : Nat
  deriving DecidableEq

/-- What a failure did to the circuit, beyond being counted. -/
inductive Breaker.Change where
  | none
  | opened
  | reopened
  deriving DecidableEq, Repr

namespace Breaker

def initial : Breaker := ⟨.closed, 0, 0, 0⟩

def silenceOver (b : Breaker) (s : Settings) (now : Nat) : Bool :=
  s.silence ≤ now - b.lastFailure

/-- Whether a call may be directed at the node. -/
def isRoutable (b : Breaker) (s : Settings) (now : Nat) : Bool :=
  match b.circuit with
  | .closed => true
  | .halfOpen => false
  | .open => b.silenceOver s now

/-- Asks for one call. An open circuit past its silence gives out the trial. -/
def ask (b : Breaker) (s : Settings) (now : Nat) : Permission × Breaker :=
  match b.circuit with
  | .closed => (.allowed, b)
  | .halfOpen => (.rejected, b)
  | .open =>
    if b.silenceOver s now then (.trial, { b with circuit := .halfOpen }) else (.rejected, b)

/-- A call succeeded. -/
def succeed (b : Breaker) : Breaker :=
  { b with
    failures := 0
    circuit := if b.circuit = .halfOpen then .closed else b.circuit }

/-- Counts a failure into the current streak, or begins a new one. -/
def extendStreak (b : Breaker) (s : Settings) (now : Nat) : Breaker :=
  if b.failures = 0 ∨ s.window < now - b.streakStart then
    { b with failures := 1, streakStart := now }
  else { b with failures := b.failures + 1 }

/-- The node could not be reached. -/
def fail (b : Breaker) (s : Settings) (now : Nat) : Breaker × Change :=
  let b := { b with lastFailure := now }
  match b.circuit with
  | .halfOpen => ({ b with circuit := .open }, .reopened)
  | .open => (b, .none)
  | .closed =>
    let b := b.extendStreak s now
    if s.maxErrors ≤ b.failures then ({ b with circuit := .open }, .opened) else (b, .none)

end Breaker

end QuorumKv.Health
