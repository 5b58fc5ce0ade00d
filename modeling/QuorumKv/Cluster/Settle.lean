import QuorumKv.Cluster

/-! The cluster left to itself: everything that can move without the clock moves, one step at a
time, and the answer of an operation is what it has when nothing moves any more. -/
namespace QuorumKv.Cluster

/-- What a call does next. Nothing listens at an address that is not reachable. -/
def Call.next (reachable : String → Bool) (addr : String) (number : Nat) (call : Call) : Step :=
  match call.stage with
  | .waiting => .ask number
  | .running _ _ =>
    if reachable addr then .serve number
    else .fail number (.connection (addr ++ ": connection refused"))
  | .served _ (some _) => .finish number
  | .served _ none => .fail number (.timeout (addr ++ ": no complete answer"))
  | .ended _ _ => .deliver number
  | .delivered _ => .record number

/-- A bucket of a fetch that has not begun. -/
def waitingBucket? (entry : Nat × Operation) : Option Step :=
  match entry.2.state with
  | .fetch m => m.waiting?.map fun bucket => .beginBucket entry.1 bucket
  | _ => none

/-- The oldest call moves first; a new bucket begins when no call is left. -/
def nextStep? (c : Cluster) (reachable : String → Bool) : Option Step :=
  match c.calls with
  | (number, call) :: _ => some (call.next reachable (c.addrOf call) number)
  | [] => c.operations.findSome? waitingBucket?

def settleWithin (reachable : String → Bool) : Nat → Cluster → Cluster
  | 0, c => c
  | fuel + 1, c =>
    match c.nextStep? reachable with
    | some s => settleWithin reachable fuel (c.step s)
    | none => c

/-- More than the number of calls that an operation can still make. -/
def Operation.weight (op : Operation) : Nat :=
  let buckets := match op.state with
    | .fetch m => m.groups.length
    | _ => 0
  (buckets + 1) * (op.topology.numbers.length + 1)

/-- More than the number of steps that are left; a call takes at most five. -/
def budget (c : Cluster) : Nat :=
  6 * (c.calls.length + total (c.operations.map fun (_, op) => op.weight) + 1)

def settle (c : Cluster) (reachable : String → Bool) : Cluster :=
  settleWithin reachable c.budget c

/-- Asks the replicas and waits for the answer. -/
def perform (reachable : String → Bool) (q : Ask) (c : Cluster) : q.Outcome × Cluster :=
  let number := c.next
  let c := (c.begin q).settle reachable
  let result := (c.result? number q).getD (throw (.timeout "no answer"))
  (result, c.forget number)

end QuorumKv.Cluster
