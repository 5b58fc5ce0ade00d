import QuorumKv.Assoc
import QuorumKv.Metrics.Histogram
import QuorumKv.Text.Blank
import QuorumKv.Text.Shortest

/-! What the proxy counts: requests per command and store, failed copies, writes that needed backup
nodes, circuit openings and open connections, and their text form for a monitoring system. -/
namespace QuorumKv.Metrics

structure Command where
  requests : UInt64
  errors : UInt64
  latency : Histogram

def Command.empty : Command := ⟨0, 0, Histogram.latency⟩

structure Registry where
  commands : Assoc (String × String) Command
  dualWriteErrors : UInt64
  backupWrites : UInt64
  breakerTrips : UInt64
  activeConnections : UInt64

namespace Registry

def empty : Registry := ⟨[], 0, 0, 0, 0⟩

/-- The counters of a command on a store. -/
def command (r : Registry) (cmd store : String) : Command :=
  (r.commands.get? (cmd, store)).getD Command.empty

/-- Enters the counters of a command on a store when they are not there yet. -/
def touch (r : Registry) (cmd store : String) : Registry :=
  { r with commands := r.commands.put (cmd, store) (r.command cmd store) }

/-- A duration in milliseconds. -/
def milliseconds (micros : Nat) : Float :=
  let seconds := Float.ofNat (micros / 1000000)
  let nanos := Float.ofNat (micros % 1000000 * 1000)
  (seconds + nanos / 1000000000) * 1000

def record (r : Registry) (cmd store : String) (micros : Nat) (success : Bool) : Registry :=
  let c := r.command cmd store
  let counted : Command :=
    { requests := c.requests + 1
      errors := if success then c.errors else c.errors + 1
      latency := c.latency.observe (milliseconds micros) }
  { r with commands := r.commands.put (cmd, store) counted }

def before (a b : (String × String) × Command) : Bool :=
  if a.1.1 = b.1.1 then decide (a.1.2 ≤ b.1.2) else decide (a.1.1 ≤ b.1.1)

def plain (x : Float) : String := Text.Layout.plain.text x

/-- One metric: what it means, its type, its lines. -/
def metric (name help type : String) (samples : List String) : List String :=
  s!"# HELP {name} {help}" :: s!"# TYPE {name} {type}" :: samples

def labels (cmd store : String) : String :=
  "cmd=\"" ++ cmd ++ "\",store=\"" ++ store ++ "\""

def sample (name labels value : String) : String :=
  name ++ "\x7b" ++ labels ++ "\x7d " ++ value

def durationLines (entry : (String × String) × Command) : List String :=
  let name := "beanproxy_cmd_duration_ms"
  let labels := labels entry.1.1 entry.1.2
  let h := entry.2.latency
  (h.cumulative.map fun (bound, count) =>
    let le := match bound with
      | some bound => if bound.isInf then "+Inf" else plain bound
      | none => "+Inf"
    sample (name ++ "_bucket") (labels ++ ",le=\"" ++ le ++ "\"") count.toNat.repr) ++
  [sample (name ++ "_sum") labels (plain h.sum),
    sample (name ++ "_count") labels h.count.toNat.repr]

/-- The lines of the text form. -/
def lines (r : Registry) (uptime : Nat) : List String :=
  let single (name help type : String) (n : Nat) : List String :=
    metric name help type [s!"{name} {n}"]
  let commands := r.commands.mergeSort before
  let perCommand (name : String) (count : Command → UInt64) : List String :=
    commands.map fun ((cmd, store), c) => sample name (labels cmd store) (count c).toNat.repr
  single "beanproxy_dual_write_errors_total" "Failed mirrored writes" "counter"
      r.dualWriteErrors.toNat ++
    single "beanproxy_backup_writes_total" "Writes that engaged backup nodes" "counter"
      r.backupWrites.toNat ++
    single "beanproxy_breaker_trips_total" "Circuit breaker openings" "counter"
      r.breakerTrips.toNat ++
    single "beanproxy_active_connections" "Open client connections" "gauge"
      r.activeConnections.toNat ++
    single "beanproxy_uptime_seconds" "Server uptime in seconds" "gauge" uptime ++
    metric "beanproxy_total_reqs" "Requests per command and store" "counter"
      (perCommand "beanproxy_total_reqs" (·.requests)) ++
    metric "beanproxy_error_reqs" "Failed requests per command and store" "counter"
      (perCommand "beanproxy_error_reqs" (·.errors)) ++
    metric "beanproxy_cmd_duration_ms" "Command duration in milliseconds" "histogram"
      (commands.flatMap durationLines)

def text (r : Registry) (uptime : Nat) : String :=
  Text.unlines (r.lines uptime)

end Registry

end QuorumKv.Metrics
