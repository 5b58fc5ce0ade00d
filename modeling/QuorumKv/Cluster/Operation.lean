import QuorumKv.Ask
import QuorumKv.Quorum.Fetch
import QuorumKv.Quorum.Read
import QuorumKv.Quorum.Write

/-! An operation on the replicas: the question, and the quorum machine that works on it. -/
namespace QuorumKv.Cluster

inductive Operation.State where
  | read (m : Quorum.Read Item)
  | readMeta (m : Quorum.Read Meta)
  | write (m : Quorum.Write)
  | fetch (m : Quorum.Fetch)

/-- What an answer leads to: the nodes to call now, and the sizes of items that were found. -/
structure Operation.Reaction where
  state : Operation.State
  calls : List String
  sizes : List Nat

namespace Operation.State

/-- Takes a node's answer to a question that this operation asked it about a bucket. -/
def absorb (liveBackups : List String) (addr : String) (bucket : Nat) :
    State → (q : Ask) → q.Outcome → Reaction
  | read m, .get _, r =>
    let (m, calls) := m.absorb Item.rev liveBackups r
    ⟨read m, calls, []⟩
  | readMeta m, .getMeta _, r =>
    let (m, calls) := m.absorb Meta.rev liveBackups r
    ⟨readMeta m, calls, []⟩
  | write m, .set _ _, r =>
    let (m, calls) := m.absorb addr (r.map fun _ => true)
    ⟨write m, calls, []⟩
  | write m, .delete _, r =>
    let (m, calls) := m.absorb addr r
    ⟨write m, calls, []⟩
  | fetch m, .getMulti _, r =>
    match m.group? bucket with
    | none => ⟨fetch m, [], []⟩
    | some g =>
      let (h, calls) := g.absorb r
      let sizes := (h.found.drop g.found.length).map fun (_, item) => item.value.length
      ⟨fetch (m.putGroup h), calls, sizes⟩
  | s, _, _ => ⟨s, [], []⟩

/-- The deadline passes. A fetch has none. -/
def expire : State → State
  | read m => read m.expire
  | readMeta m => readMeta m.expire
  | write m => write m.expire
  | fetch m => fetch m

/-- The answer to the question, once there is one. To a reader of values a tombstone is nothing. -/
def result? : State → (q : Ask) → Option q.Outcome
  | read m, .get _ =>
    m.result?.map fun r => r.map fun found => found.filter fun item => !item.rev.isTombstone
  | readMeta m, .getMeta _ => m.result?
  | fetch m, .getMulti _ => m.result?.map pure
  | write m, .set _ _ => m.result.map fun r => r.map fun _ => ()
  | write m, .delete _ => m.result
  | _, _ => none

/-- How many times backups were brought in. -/
def engaged : State → Nat
  | write m => m.engaged
  | _ => 0

/-- What a node is asked on behalf of a question. -/
def question (bucket : Nat) : State → Ask → Ask
  | fetch m, q => ((m.group? bucket).map fun g => .getMulti g.missing).getD q
  | _, q => q

/-- Whether the operation waits for each of its calls alone. -/
def isSequential : State → Bool
  | read m => m.isThrough
  | readMeta m => m.isThrough
  | write _ => false
  | fetch _ => true

end Operation.State

end QuorumKv.Cluster
