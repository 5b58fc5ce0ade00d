import QuorumKv.Assoc
import QuorumKv.Health.Node

/-! The health of all nodes of a route table, and the order in which they are asked. -/
namespace QuorumKv.Health

/-- By address, in text order. -/
structure Monitor where
  settings : Settings
  nodes : Assoc String Node

namespace Monitor

/-- Knows the given addresses. Nodes that `previous` knows keep their state. -/
def build (settings : Settings) (addrs : List String) (previous : Option Monitor) (now : Nat) :
    Monitor where
  settings := settings
  nodes := (Text.sortedSet addrs).map fun addr =>
    let known := previous.bind fun m => m.nodes.get? addr
    (addr, known.getD (Node.fresh addr settings now))

def node? (m : Monitor) (addr : String) : Option Node :=
  m.nodes.get? addr

def put (m : Monitor) (n : Node) : Monitor :=
  { m with nodes := m.nodes.put n.addr n }

def isRoutable (m : Monitor) (addr : String) (now : Nat) : Bool :=
  match m.node? addr with
  | some n => n.isRoutable now
  | none => false

/-- The routable ones of some addresses, in the order given. -/
def live (m : Monitor) (addrs : List String) (now : Nat) : List String :=
  addrs.filter fun addr => m.isRoutable addr now

/-- A total order on doubles: by value, minus zero before zero, and no number at all first. -/
def orderKey (x : Float) : Int :=
  let bits := x.toBits.toNat
  if x.isNaN then -18446744073709551616
  else if bits < Text.bound63 then bits
  else (Text.bound63 : Int) - bits - 1

def score (m : Monitor) (addr : String) (now : Nat) : Int :=
  match m.node? addr with
  | some n => orderKey (n.score now)
  | none => 18446744073709551616

/-- Whether one scored address comes before another. -/
def comesFirst (a b : Int × String) : Bool :=
  a.1 < b.1 || (a.1 == b.1 && decide (a.2 ≤ b.2))

/-- The routable ones of some addresses, lowest score first, equal scores in text order. -/
def rank (m : Monitor) (addrs : List String) (now : Nat) : List String :=
  (((m.live addrs now).map fun addr => (m.score addr now, addr)).mergeSort comesFirst).map (·.2)

end Monitor

/-- A node as the status page shows it. -/
def Node.toDocument (n : Node) (now : Nat) : Document :=
  let sizes := n.sizeStats
  .table [("addr", .text n.addr), ("state", .text n.breaker.circuit.name),
    ("score", .real (n.score now)), ("avg_response_time_us", .real (n.averageLatency now)),
    ("recent_errors", .nat (n.recentErrors now)),
    ("consecutive_failures", .nat n.breaker.failures),
    ("item_size", .table [("samples", .nat sizes.samples), ("avg", .nat sizes.average),
      ("max", .nat sizes.max)])]

def Monitor.toDocument (m : Monitor) (now : Nat) : Document :=
  .list (m.nodes.map fun (_, n) => n.toDocument now)

end QuorumKv.Health
