/-! Histograms of durations. A value is counted in the first bucket whose bound it does not exceed,
and the sum is kept in whole thousandths. Counters have 64 bits and wrap. -/
namespace QuorumKv.Metrics

structure Histogram where
  bounds : List Float
  /-- One count per bound, and one for the values beyond the last. -/
  counts : List UInt64
  thousandths : UInt64
  count : UInt64

namespace Histogram

def withBounds (bounds : List Float) : Histogram :=
  ⟨bounds, List.replicate (bounds.length + 1) 0, 0, 0⟩

/-- Milliseconds. -/
def latencyBounds : List Float :=
  [1, 5, 10, 25, 50, 100, 250, 500, 1000, 2500, 5000]

def latency : Histogram := withBounds latencyBounds

def observe (h : Histogram) (x : Float) : Histogram :=
  let bucket := (h.bounds.findIdx? fun bound => x ≤ bound).getD h.bounds.length
  { h with
    counts := h.counts.modify bucket (· + 1)
    thousandths := h.thousandths + (x * 1000).toUInt64
    count := h.count + 1 }

def runningSums : UInt64 → List UInt64 → List UInt64
  | _, [] => []
  | sum, n :: rest => (sum + n) :: runningSums (sum + n) rest

/-- How many values lie at or below each bound; without a bound, how many there are. -/
def cumulative (h : Histogram) : List (Option Float × UInt64) :=
  (h.bounds.map some ++ [none]).zip (runningSums 0 h.counts)

def sum (h : Histogram) : Float :=
  h.thousandths.toFloat / 1000

end Histogram

end QuorumKv.Metrics
