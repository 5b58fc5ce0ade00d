import QuorumKv.Dispatch.Script
import QuorumKv.Metrics.Registry

/-! What the requests of clients add to the counters. -/
namespace QuorumKv.Dispatch

/-- Counts an event; a call to a store took so many microseconds. -/
def Event.count (micros : Nat) (r : Metrics.Registry) : Event → Metrics.Registry
  | asked cmd side success => r.record cmd side.name micros success
  | mirrorFailed _ => { r with dualWriteErrors := r.dualWriteErrors + 1 }

end QuorumKv.Dispatch
